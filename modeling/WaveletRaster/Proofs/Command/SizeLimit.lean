import Mathlib
import WaveletRaster.Proofs.Command.Batch
import WaveletRaster.Proofs.Text.Split

/-! The size limit of JSON texts. A run is written once more with readers of any kind in the place
of the JSON readers, and with readers that keep a record it shows which texts it hands to them. A
batch hands over its specification only if the size that is told for it is within the limit; a
stream hands over its lines at any length. -/

namespace WaveletRaster

/-- Readers of the texts that hold a specification and of those that hold a job. -/
structure Readers (m : Type → Type) where
  spec : String → m (Option JobSpec32)
  job : String → m (Option Job32)

def specOutcome : Option JobSpec32 → Outcome
  | none => .ofExcept (.error .malformedSpec)
  | some spec =>
    let results : Except RunError (List JobResult32) := spec.run.mapError .invalidSpec
    .ofExcept (results.map (·.map JobResult.text))

def isBlankLine (line : String) : Bool := line.toList.all Text.isBlank

def readableLines (lines : List (List UInt8)) : List String :=
  ((lines.map fun line => String.fromUTF8? ⟨line.toArray⟩).takeWhile Option.isSome).filterMap id

section
variable {m : Type → Type} [Monad m] (read : Readers m)

def runBatchThrough (s : Surroundings) (input : Option String) : m Outcome :=
  match readSpecText s input with
  | .error e => return .ofExcept (.error e)
  | .ok text => return specOutcome (← read.spec text)

def runLineThrough (line : String) : m (Option JobResult32) :=
  if isBlankLine line then return none else return (← read.job line).map Job.run

def runStreamThrough (lines : List (List UInt8)) : m Outcome := do
  let results ← (readableLines lines).mapM (runLineThrough read)
  return {
    lines := (results.filterMap id).map JobResult.text
    error := if lines.all fun line => (String.fromUTF8? ⟨line.toArray⟩).isSome then none
      else some .unreadableLine }

def Request.runThrough (s : Surroundings) : Request → m Outcome
  | .batch input _ _ => runBatchThrough read s input
  | .stream _ => runStreamThrough read (inputLines s.input.toList)
  | r => return r.run s

end

def Readers.recording : Readers (StateM (List String)) where
  spec text := do
    modify (· ++ [text])
    return JobSpec.parse? text
  job text := do
    modify (· ++ [text])
    return Job.parse? text

/-- The texts that a run hands to the JSON readers. -/
def Request.parsedTexts (s : Surroundings) (r : Request) : List String :=
  ((r.runThrough .recording s).run []).2

theorem runBatch_eq (s : Surroundings) (input : Option String) :
    Outcome.ofExcept (runBatch s input) =
      match readSpecText s input with
      | .error e => .ofExcept (.error e)
      | .ok text => specOutcome (JobSpec.parse? text) := by
  rw [runBatch]
  cases readSpecText s input with
  | error e => rfl
  | ok text =>
    show Outcome.ofExcept (match JobSpec.parse? text with
      | none => .error .malformedSpec
      | some spec => spec.run.mapError .invalidSpec >>= fun results =>
        .ok (results.map JobResult.text)) = specOutcome (JobSpec.parse? text)
    cases JobSpec.parse? text with
    | none => rfl
    | some spec => exact congrArg Outcome.ofExcept bind_ok_eq_map

theorem runBatchThrough_recording (s : Surroundings) (input : Option String) :
    (runBatchThrough .recording s input).run [] =
      (Outcome.ofExcept (runBatch s input), (readSpecText s input).toOption.toList) := by
  rw [runBatch_eq, runBatchThrough]
  cases readSpecText s input <;> rfl

theorem runLineThrough_recording (line : String) (log : List String) :
    (runLineThrough .recording line).run log =
      (runLine? line, log ++ [line].filter (!isBlankLine ·)) := by
  have hrun :
      runLine? line = if isBlankLine line then none else (Job.parse? line).map Job.run := rfl
  rw [runLineThrough, hrun]
  split_ifs with hblank
  · rw [List.filter_cons_of_neg (by simp [hblank]), List.filter_nil, List.append_nil]
    rfl
  · rw [List.filter_cons_of_pos (by simp [hblank]), List.filter_nil]
    rfl

theorem mapM_runLineThrough_recording (lines : List String) (log : List String) :
    (lines.mapM (runLineThrough .recording)).run log =
      (lines.map runLine?, log ++ lines.filter (!isBlankLine ·)) := by
  induction lines generalizing log with
  | nil => exact congrArg (Prod.mk []) (List.append_nil log).symm
  | cons line lines ih =>
    rw [List.mapM_cons, StateT.run_bind, runLineThrough_recording]
    show ((lines.mapM (runLineThrough .recording) >>= _).run _ : Id _) = _
    rw [StateT.run_bind, ih, List.append_assoc, ← List.filter_append]
    rfl

theorem runStreamThrough_recording (lines : List (List UInt8)) :
    (runStreamThrough .recording lines).run [] =
      (runStream lines, (readableLines lines).filter (!isBlankLine ·)) := by
  have hlines : ((readableLines lines).map runLine?).filterMap id =
      (readableLines lines).filterMap runLine? := by
    rw [List.filterMap_map]
    rfl
  have hrun : runStream lines = ⟨((readableLines lines).filterMap runLine?).map JobResult.text,
      if lines.all fun line => (String.fromUTF8? ⟨line.toArray⟩).isSome then none
        else some .unreadableLine⟩ := by
    simp only [runStream, List.all_map]
    rfl
  rw [runStreamThrough, StateT.run_bind, mapM_runLineThrough_recording, hrun, ← hlines]
  rfl

theorem Request.runThrough_recording (s : Surroundings) (r : Request) :
    (r.runThrough .recording s).run [] = (r.run s, r.parsedTexts s) := by
  have hrun : ((r.runThrough .recording s).run []).1 = r.run s := by
    cases r with
    | batch => exact congrArg Prod.fst (runBatchThrough_recording s _)
    | stream => exact congrArg Prod.fst (runStreamThrough_recording _)
    | moments | coeffs | version => rfl
  exact Prod.ext hrun rfl

section
variable (s : Surroundings)

theorem parsedTexts_batch (path : Option String) (workers : Nat) (verbose : Bool) :
    (Request.batch path workers verbose).parsedTexts s = (readSpecText s path).toOption.toList :=
  congrArg Prod.snd (runBatchThrough_recording s path)

theorem parsedTexts_stream (verbose : Bool) : (Request.stream verbose).parsedTexts s =
    (readableLines (inputLines s.input.toList)).filter (!isBlankLine ·) :=
  congrArg Prod.snd (runStreamThrough_recording _)

theorem mem_parsedTexts_batch_iff {path : Option String} {workers : Nat} {verbose : Bool}
    {text : String} : text ∈ (Request.batch path workers verbose).parsedTexts s ↔
      ∃ size, s.source? path = some (text.toUTF8, size) ∧ size ≤ Limits.maxInputBytes := by
  rw [parsedTexts_batch, ← readSpecText_eq_ok_iff]
  cases readSpecText s path <;> simp [Except.toOption, eq_comm]

theorem source?_some_eq_some_iff {path : String} {bytes : ByteArray} {size : Nat} :
    s.source? (some path) = some (bytes, size) ↔ s.file path = .present size (.ok bytes) := by
  rw [Surroundings.source?]
  cases s.file path with
  | missing => simp
  | present told read => cases read <;> simp [and_comm]

theorem readSpecText_of_tooLarge {path : Option String} {text : String} {size : Nat}
    (hsource : s.source? path = some (text.toUTF8, size)) (hsize : Limits.maxInputBytes < size) :
    readSpecText s path = .error (.inputTooLarge ⟨size⟩) := by
  have hcheck : checkInputSize size = .error ⟨size⟩ := if_pos hsize
  cases path with
  | none =>
    obtain ⟨hinput, hlength⟩ := Prod.mk.inj (Option.some.inj hsource)
    have hbytes : text.utf8ByteSize = size := by
      rw [← hlength, hinput]
      rfl
    rw [readSpecText, hinput, fromUTF8?_eq_some_iff.mpr rfl]
    show ((checkInputSize text.utf8ByteSize).mapError RunError.inputTooLarge >>= _) = _
    rw [hbytes, hcheck]
    rfl
  | some path =>
    rw [readSpecText, (source?_some_eq_some_iff s).mp hsource]
    show ((checkInputSize size).mapError RunError.inputTooLarge >>= _) = _
    rw [hcheck]
    rfl

theorem specOutcome_error_ne_tooLarge (spec : Option JobSpec32) (e : InputTooLarge) :
    (specOutcome spec).error ≠ some (.inputTooLarge e) := by
  cases spec with
  | none => exact nofun
  | some spec =>
    rw [specOutcome]
    cases spec.run with
    | error _ => exact nofun
    | ok _ => exact nofun

end

namespace Json

theorem exists_foldlM_replicate {l : Lexer} {read : List Token} (h : l.finish? = some read)
    (n : Nat) : ∃ last, (List.replicate n ' ').foldlM Lexer.step? l = some last ∧
      last.finish? = some read := by
  induction n generalizing l with
  | zero => exact ⟨l, rfl, h⟩
  | succ n ih =>
    rw [List.replicate_succ, List.foldlM_cons, Lexer.step?_space h]
    exact ih rfl

end Json

/-- The text with spaces behind it, so that it has a number of bytes. -/
def padded (text : String) (bytes : Nat) : String :=
  text ++ String.ofList (List.replicate (bytes - text.utf8ByteSize) ' ')

theorem utf8ByteSize_replicate (n : Nat) :
    (String.ofList (List.replicate n ' ')).utf8ByteSize = n := by
  induction n with
  | zero => rfl
  | succ n ih =>
    rw [List.replicate_succ, ← List.singleton_append, String.ofList_append,
      String.utf8ByteSize_append, ih, Nat.add_comm]
    rfl

section
variable {text : String} {n : Nat}

theorem utf8ByteSize_padded (h : text.utf8ByteSize ≤ n) : (padded text n).utf8ByteSize = n := by
  rw [padded, String.utf8ByteSize_append, utf8ByteSize_replicate, Nat.add_sub_cancel' h]

theorem toList_padded :
    (padded text n).toList = text.toList ++ List.replicate (n - text.utf8ByteSize) ' ' := by
  rw [padded, String.toList_append, String.toList_ofList]

theorem le_of_mem_padded (h : ∀ c ∈ text.toList, ' ' ≤ c) :
    ∀ c ∈ (padded text n).toList, ' ' ≤ c := by
  rw [toList_padded]
  refine List.forall_mem_append.mpr ⟨h, fun c hc => ?_⟩
  rw [List.eq_of_mem_replicate hc]

theorem Json.parse?_padded {v : Json} (h : parse? text = some v) :
    parse? (padded text n) = some v := by
  obtain ⟨ts, hlex, hread⟩ := Option.bind_eq_some_iff.mp h
  obtain ⟨l, hfold, hlex⟩ := Option.bind_eq_some_iff.mp hlex
  obtain ⟨read, hfinish, hlex⟩ := Option.bind_eq_some_iff.mp hlex
  obtain ⟨last, hspaces, hlast⟩ := exists_foldlM_replicate hfinish (n - text.utf8ByteSize)
  have htokens : tokens? (padded text n).toList = some ts := by
    rw [tokens?, toList_padded, List.foldlM_append, hfold]
    show ((List.replicate _ ' ').foldlM Lexer.step? l >>= _) = _
    rw [hspaces]
    show (last.finish? >>= _) = _
    rw [hlast]
    exact hlex
  rw [parse?, htokens]
  exact hread

theorem Job.parse?_padded {job : Job32} (h : Job.parse? text = some job) :
    Job.parse? (padded text n) = some job := by
  obtain ⟨v, hv, hjob⟩ := Option.bind_eq_some_iff.mp h
  rw [Job.parse?, Json.parse?_padded hv]
  exact hjob

end

theorem readableLines_map_lineBytes (texts : List String) :
    readableLines (texts.map lineBytes) = texts := by
  have hread : (fun line : List UInt8 => String.fromUTF8? ⟨line.toArray⟩) ∘ lineBytes = some :=
    funext fromUTF8?_lineBytes
  rw [readableLines, List.map_map, hread, List.takeWhile_eq_self_iff.mpr]
  · simp
  · simp

theorem parsedTexts_stream_of_hasLines {input : ByteArray} {texts : List String}
    (h : HasLines input texts) (file : String → FileState) (verbose : Bool) :
    (Request.stream verbose).parsedTexts ⟨input, file⟩ = texts.filter (!isBlankLine ·) := by
  rw [parsedTexts_stream, h, readableLines_map_lineBytes]

theorem hasLines_toUTF8 {text : String} (hprintable : ∀ c ∈ text.toList, ' ' ≤ c)
    (hne : text ≠ "") : HasLines text.toUTF8 [text] := by
  have hbytes : lineBytes text ≠ [] := by
    intro hnil
    have hnone : lineBytes "" = [] := lineBytes_eq ""
    have hread := fromUTF8?_lineBytes ""
    rw [hnone, ← hnil, fromUTF8?_lineBytes] at hread
    exact hne (Option.some.inj hread)
  have hpieces : Text.splitOn (· = 10) (lineBytes text) = [lineBytes text] :=
    Text.splitOn_eq_singleton fun b hb => decide_eq_false fun hfeed =>
      absurd (le_of_mem_lineBytes hprintable hb) (hfeed ▸ by decide)
  show Text.lines 10 13 (lineBytes text) = [lineBytes text]
  simp [Text.lines, hpieces, hbytes]

theorem stream_of_padded {text : String} {job : Job32} (hprintable : ∀ c ∈ text.toList, ' ' ≤ c)
    (hjob : Job.parse? text = some job) (n : Nat) (verbose : Bool) (file : String → FileState) :
    let line := padded text n
    (Request.stream verbose).parsedTexts ⟨line.toUTF8, file⟩ = [line] ∧
      (Request.stream verbose).run ⟨line.toUTF8, file⟩ = ⟨resultLines [job], none⟩ := by
  intro line
  have hread : Job.parse? line = some job := Job.parse?_padded hjob
  have hwritten : isBlankLine line = false := by
    by_contra hblank
    rw [Job.parse?, Json.parse?_of_isBlank (Bool.eq_true_of_not_eq_false hblank)] at hread
    cases hread
  have hne : line ≠ "" := by
    intro hempty
    rw [hempty] at hwritten
    cases hwritten
  have hlines : HasLines line.toUTF8 [line] := hasLines_toUTF8 (le_of_mem_padded hprintable) hne
  refine ⟨?_, ?_⟩
  · refine (parsedTexts_stream_of_hasLines hlines file verbose).trans ?_
    rw [List.filter_cons_of_pos (by simp [hwritten]), List.filter_nil]
  · refine (runStream_of_hasLines hlines).trans ?_
    rw [List.filterMap_cons_some hread, List.filterMap_nil]

def oversizedLine : String := padded "[\"one\",2,[0,0],[0,0,0],[]]" 10485761

def fullSpec : String := padded "[\"1.0\",[[\"one\",2,[0,0],[0,0,0],[]]]]" 10485760

theorem utf8ByteSize_oversizedLine : oversizedLine.utf8ByteSize = Limits.maxInputBytes + 1 :=
  utf8ByteSize_padded (by decide +kernel)

theorem utf8ByteSize_fullSpec : fullSpec.utf8ByteSize = Limits.maxInputBytes :=
  utf8ByteSize_padded (by decide +kernel)

/-- The size that is told for a file is the number of its bytes. -/
def Surroundings.TellsSizes (s : Surroundings) : Prop :=
  ∀ path size bytes, s.file path = .present size (.ok bytes) → size = bytes.size

theorem Surroundings.TellsSizes.eq_of_source? {s : Surroundings} (h : s.TellsSizes)
    {path : Option String} {bytes : ByteArray} {size : Nat}
    (hsource : s.source? path = some (bytes, size)) : size = bytes.size := by
  cases path with
  | none =>
    obtain ⟨rfl, rfl⟩ := Prod.mk.inj (Option.some.inj hsource)
    rfl
  | some path => exact h _ _ _ ((source?_some_eq_some_iff s).mp hsource)

theorem only_streams_parse_oversized_texts (s : Surroundings) :
    (∀ r : Request, (r.runThrough .recording s).run [] = (r.run s, r.parsedTexts s)) ∧
    (s.TellsSizes →
      (∀ r : Request, ∀ text ∈ r.parsedTexts s, Limits.maxInputBytes < text.utf8ByteSize →
        ∃ verbose, r = .stream verbose) ∧
      ∀ (path : Option String) (workers : Nat) (verbose : Bool) (text : String),
        let batch : Request := .batch path workers verbose
        (s.source? path).map Prod.fst = some text.toUTF8 →
          (Limits.maxInputBytes < text.utf8ByteSize → batch.parsedTexts s = [] ∧
            batch.run s = ⟨[], some (.inputTooLarge ⟨text.utf8ByteSize⟩)⟩) ∧
          (text.utf8ByteSize ≤ Limits.maxInputBytes → batch.parsedTexts s = [text] ∧
            ∀ e, (batch.run s).error ≠ some (.inputTooLarge e))) ∧
    ∀ verbose : Bool,
      let stream : Request := .stream verbose
      stream.parsedTexts s = (readableLines (inputLines s.input.toList)).filter (!isBlankLine ·) ∧
        ∀ e, (stream.run s).error ≠ some (.inputTooLarge e) := by
  refine ⟨fun r => r.runThrough_recording s, fun hsizes => ⟨?_, ?_⟩, ?_⟩
  · intro r text htext hlarge
    cases r with
    | stream verbose => exact ⟨verbose, rfl⟩
    | batch =>
      obtain ⟨size, hsource, hsize⟩ := (mem_parsedTexts_batch_iff s).mp htext
      obtain rfl : size = text.utf8ByteSize := hsizes.eq_of_source? hsource
      exact absurd hsize hlarge.not_ge
    | moments | coeffs | version => exact absurd htext List.not_mem_nil
  · intro path workers verbose text batch hbytes
    obtain ⟨⟨_, size⟩, hsource, rfl⟩ := Option.map_eq_some_iff.mp hbytes
    obtain rfl : size = text.utf8ByteSize := hsizes.eq_of_source? hsource
    refine ⟨fun hsize => ?_, fun hsize => ?_⟩
    · have hread : readSpecText s path = .error (.inputTooLarge ⟨text.utf8ByteSize⟩) :=
        readSpecText_of_tooLarge s hsource hsize
      have hrun : runBatch s path = .error (.inputTooLarge ⟨text.utf8ByteSize⟩) := by
        rw [runBatch, hread]
        rfl
      refine ⟨?_, congrArg Outcome.ofExcept hrun⟩
      rw [parsedTexts_batch, hread]
      rfl
    · have hread : readSpecText s path = .ok text :=
        readSpecText_eq_ok_iff.mpr ⟨_, hsource, hsize⟩
      have hrun : batch.run s = specOutcome (JobSpec.parse? text) := by
        refine (runBatch_eq s path).trans ?_
        rw [hread]
      rw [parsedTexts_batch, hread, hrun]
      exact ⟨rfl, specOutcome_error_ne_tooLarge _⟩
  · intro verbose stream
    refine ⟨parsedTexts_stream s verbose, fun e => ?_⟩
    show (if _ then none else some RunError.unreadableLine) ≠ some (.inputTooLarge e)
    split_ifs <;> simp

theorem only_streams_parse_oversized_texts_beside_full :
    let s : Surroundings := ⟨oversizedLine.toUTF8, fun _ => .contents fullSpec.toUTF8⟩
    let piped : Request := .batch none 0 false
    let named : Request := .batch (some "spec.json") 0 false
    s.TellsSizes ∧ Limits.maxInputBytes < oversizedLine.utf8ByteSize ∧
      fullSpec.utf8ByteSize ≤ Limits.maxInputBytes ∧
      piped.parsedTexts s = [] ∧
      piped.run s = ⟨[], some (.inputTooLarge ⟨oversizedLine.utf8ByteSize⟩)⟩ ∧
      named.parsedTexts s = [fullSpec] ∧ ∀ e, (named.run s).error ≠ some (.inputTooLarge e) := by
  intro s piped named
  have hlarge : Limits.maxInputBytes < oversizedLine.utf8ByteSize :=
    utf8ByteSize_oversizedLine ▸ Nat.lt_succ_self _
  have hfits : fullSpec.utf8ByteSize ≤ Limits.maxInputBytes := utf8ByteSize_fullSpec.le
  have hsizes : s.TellsSizes := by
    rintro _ _ _ ⟨⟩
    rfl
  obtain ⟨-, hbatch⟩ := (only_streams_parse_oversized_texts s).2.1 hsizes
  obtain ⟨hunread, hrefused⟩ := (hbatch none 0 false oversizedLine rfl).1 hlarge
  exact ⟨hsizes, hlarge, hfits, hunread, hrefused,
    (hbatch (some "spec.json") 0 false fullSpec rfl).2 hfits⟩

theorem stream_parses_oversized_line :
    Limits.maxInputBytes < oversizedLine.utf8ByteSize ∧
    let s : Surroundings := ⟨oversizedLine.toUTF8, fun _ => .missing .notFound⟩
    (Request.stream false).parsedTexts s = [oversizedLine] ∧
      (Request.stream false).run s = ⟨resultLines [⟨"one", 2, .zero, .zero, []⟩], none⟩ := by
  refine ⟨utf8ByteSize_oversizedLine ▸ Nat.lt_succ_self _, ?_⟩
  exact stream_of_padded (by simp) (by decide +kernel) 10485761 false _

end WaveletRaster
