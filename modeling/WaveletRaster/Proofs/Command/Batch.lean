import Mathlib
import WaveletRaster.Proofs.Acceptance
import WaveletRaster.Proofs.Command.Stream
import WaveletRaster.Proofs.Job.RoundTrip
import WaveletRaster.Proofs.Job.Spec
import WaveletRaster.Proofs.Json.Legible

/-! A whole specification at once. An accepted one is answered as its jobs are line by line; any
other one prints nothing. -/

namespace WaveletRaster

/-- The bytes to be read and the size that is told for them. -/
def Surroundings.source? (s : Surroundings) : Option String → Option (ByteArray × Nat)
  | none => some (s.input, s.input.size)
  | some path =>
    match s.file path with
    | .present size (.ok bytes) => some (bytes, size)
    | .present _ (.error _) | .missing _ => none

/-- What is read is a text, the size told for it is within the limit, and the specification it holds
has a valid header. -/
def Surroundings.Submits (s : Surroundings) (path : Option String) (spec : JobSpec32) : Prop :=
  ∃ (text : String) (size : Nat), s.source? path = some (text.toUTF8, size) ∧
    size ≤ Limits.maxInputBytes ∧ JobSpec.parse? text = some spec ∧ spec.validateHeader = .ok ()

theorem checkInputSize_bind_eq_ok_iff {bytes : Nat} {α : Type} {x : Except RunError α} {a : α} :
    ((checkInputSize bytes).mapError .inputTooLarge >>= fun _ => x) = .ok a ↔
      bytes ≤ Limits.maxInputBytes ∧ x = .ok a := by
  rw [checkInputSize]
  split_ifs with h
  · exact iff_of_false nofun fun hok => h.not_ge hok.1
  · exact (and_iff_right (not_lt.mp h)).symm

theorem readSpecText_eq_ok_iff {s : Surroundings} {path : Option String} {text : String} :
    readSpecText s path = .ok text ↔
      ∃ size, s.source? path = some (text.toUTF8, size) ∧ size ≤ Limits.maxInputBytes := by
  have hsource (bytes : ByteArray) (size : Nat) :
      (∃ told, some (bytes, size) = some (text.toUTF8, told) ∧ told ≤ Limits.maxInputBytes) ↔
        size ≤ Limits.maxInputBytes ∧ String.fromUTF8? bytes = some text := by
    rw [fromUTF8?_eq_some_iff]
    constructor
    · rintro ⟨_, ⟨⟩, hsize⟩
      exact ⟨hsize, rfl⟩
    · rintro ⟨hsize, rfl⟩
      exact ⟨size, rfl, hsize⟩
  cases path with
  | none =>
    rw [Surroundings.source?, hsource, readSpecText]
    cases hread : String.fromUTF8? s.input with
    | none => exact iff_of_false (by rintro ⟨⟩) (by rintro ⟨-, ⟨⟩⟩)
    | some t =>
      have hsize : s.input.size = t.utf8ByteSize := by
        rw [fromUTF8?_eq_some_iff.mp hread]
        rfl
      rw [hsize]
      exact checkInputSize_bind_eq_ok_iff.trans (and_congr_right' (by simp [pure, Except.pure]))
  | some path =>
    rw [Surroundings.source?, readSpecText]
    cases s.file path with
    | missing => exact iff_of_false (by rintro ⟨⟩) (by rintro ⟨_, ⟨⟩, -⟩)
    | present size read =>
      cases read with
      | error =>
        refine iff_of_false (fun hok => ?_) (by rintro ⟨_, ⟨⟩, -⟩)
        cases (checkInputSize_bind_eq_ok_iff.mp hok).2
      | ok bytes =>
        refine checkInputSize_bind_eq_ok_iff.trans (Iff.trans ?_ (hsource bytes size).symm)
        dsimp only
        cases String.fromUTF8? bytes <;> simp [pure, Except.pure]

theorem resultTexts_eq_ok_iff {spec : JobSpec32} {lines : List String} :
    ((spec.run.mapError .invalidSpec : Except RunError (List JobResult32)) >>=
        fun results => pure (results.map JobResult.text)) = .ok lines ↔
      spec.validateHeader = .ok () ∧ lines = resultLines spec.jobs := by
  rw [bind_eq_ok_iff]
  constructor
  · rintro ⟨results, hresults, ⟨⟩⟩
    obtain ⟨hheader, rfl⟩ := JobSpec.run_eq_ok_iff.mp (mapError_eq_ok_iff.mp hresults)
    exact ⟨hheader, List.map_map⟩
  · rintro ⟨hheader, rfl⟩
    have hrun := JobSpec.run_eq_ok_iff.mpr ⟨hheader, rfl⟩
    exact ⟨_, mapError_eq_ok_iff.mpr hrun, congrArg Except.ok List.map_map⟩

theorem runBatch_eq_ok_iff {s : Surroundings} {path : Option String} {lines : List String} :
    runBatch s path = .ok lines ↔ ∃ spec, s.Submits path spec ∧ lines = resultLines spec.jobs := by
  rw [runBatch, bind_eq_ok_iff]
  constructor
  · rintro ⟨text, htext, hlines⟩
    obtain ⟨size, hsource, hsize⟩ := readSpecText_eq_ok_iff.mp htext
    cases hspec : JobSpec.parse? text with
    | none =>
      rw [hspec] at hlines
      cases hlines
    | some spec =>
      rw [hspec] at hlines
      obtain ⟨hheader, hlines⟩ := resultTexts_eq_ok_iff.mp hlines
      exact ⟨spec, ⟨text, size, hsource, hsize, hspec, hheader⟩, hlines⟩
  · rintro ⟨spec, ⟨text, size, hsource, hsize, hspec, hheader⟩, hlines⟩
    refine ⟨text, readSpecText_eq_ok_iff.mpr ⟨size, hsource, hsize⟩, ?_⟩
    rw [hspec]
    exact resultTexts_eq_ok_iff.mpr ⟨hheader, hlines⟩

/-- The input has a line for each of the jobs, in order. -/
def OneJobPerLine (input : ByteArray) (jobs : List Job32) : Prop :=
  ∃ texts, HasLines input texts ∧
    List.Forall₂ (fun text job => Job.parse? text = some job) texts jobs

theorem filterMap_of_forall₂ {α β : Type} {f : α → Option β} {xs : List α} {ys : List β}
    (h : List.Forall₂ (fun x y => f x = some y) xs ys) : xs.filterMap f = ys := by
  induction h with
  | nil => rfl
  | cons hx _ ih => rw [List.filterMap_cons_some hx, ih]

theorem runStream_of_oneJobPerLine {input : ByteArray} {jobs : List Job32}
    (h : OneJobPerLine input jobs) :
    runStream (inputLines input.toList) = ⟨resultLines jobs, none⟩ := by
  obtain ⟨texts, hlines, hjobs⟩ := h
  rw [runStream_of_hasLines hlines, filterMap_of_forall₂ hjobs]

theorem exists_items_of_ofJson? {v : Json} {spec : JobSpec32} (h : JobSpec.ofJson? v = some spec) :
    ∃ items, List.Forall₂ (fun item job => Job.ofJson? item = some job) items spec.jobs ∧
      ∀ item ∈ items, item.tokens ⊆ v.tokens := by
  obtain ⟨version, items, hfields, hitems⟩ := JobSpec.exists_items h
  have hpart : (Json.array items).tokens ⊆ v.tokens :=
    Json.tokens_subset_of_fields? hfields (by simp)
  exact ⟨items, hitems, fun item hitem =>
    List.Subset.trans (Json.tokens_subset_array hitem) hpart⟩

theorem exists_oneJobPerLine {text : String} {spec : JobSpec32}
    (h : JobSpec.parse? text = some spec) : ∃ input, OneJobPerLine input spec.jobs := by
  obtain ⟨v, hv, hspec⟩ := Option.bind_eq_some_iff.mp h
  obtain ⟨items, hitems, hparts⟩ := exists_items_of_ofJson? hspec
  have hline {item : Json} (hitem : item ∈ items) := Json.parse?_line hv (hparts item hitem)
  refine ⟨streamInput (items.map Json.line), items.map Json.line, ?_, ?_⟩
  · exact hasLines_streamInput (List.forall_mem_map.mpr fun item hitem => (hline hitem).2)
  · rw [List.forall₂_map_left_iff]
    refine ((List.forall₂_and_left _ _).mpr ⟨fun item hitem => (hline hitem).1, hitems⟩).imp ?_
    rintro item job ⟨hread, hjob⟩
    rw [Job.parse?, hread]
    exact hjob

theorem parse?_resultLines (jobs : List Job32) :
    (resultLines jobs).map Json.parse? =
      jobs.map fun job => some (job.run : JobResult32).toJson := by
  rw [resultLines, List.map_map]
  exact List.map_congr_left fun job _ => (job.run : JobResult32).plain_toJson.parse?_text

theorem stream_and_batch_agree (s : Surroundings) (path : Option String) (workers : Nat)
    (verbose : Bool) :
    let stream (input : ByteArray) : Outcome := (Request.stream verbose).run { s with input }
    let batch : Outcome := (Request.batch path workers verbose).run s
    (∀ input texts, HasLines input texts →
      stream input = ⟨resultLines (texts.filterMap Job.parse?), none⟩) ∧
    (∀ front back texts, HasLines front texts → Text.EndsLine 10 front.toList →
      stream (front ++ back) =
        ⟨(stream front).lines ++ (stream back).lines, (stream back).error⟩) ∧
    (∀ spec, s.Submits path spec → (∃ input, OneJobPerLine input spec.jobs) ∧
      (∀ input, OneJobPerLine input spec.jobs → stream input = batch) ∧
      batch = ⟨resultLines spec.jobs, none⟩) ∧
    ((¬∃ spec, s.Submits path spec) → batch.lines = [] ∧ batch.error.isSome) ∧
    ∀ jobs, (resultLines jobs).map Json.parse? =
      jobs.map fun job => some (job.run : JobResult32).toJson := by
  intro stream batch
  refine ⟨fun input texts h => runStream_of_hasLines h, fun front back texts h hends => ?_,
    fun spec h => ?_, fun h => ?_, parse?_resultLines⟩
  · have hfront : stream front = ⟨resultLines (texts.filterMap Job.parse?), none⟩ :=
      runStream_of_hasLines h
    rw [hfront]
    exact runStream_append_of_hasLines h hends back
  · have hbatch : batch = ⟨resultLines spec.jobs, none⟩ :=
      congrArg Outcome.ofExcept (runBatch_eq_ok_iff.mpr ⟨spec, h, rfl⟩)
    obtain ⟨text, _, -, -, hparse, -⟩ := h
    exact ⟨exists_oneJobPerLine hparse,
      fun input hinput => (runStream_of_oneJobPerLine hinput).trans hbatch.symm, hbatch⟩
  · cases hrun : runBatch s path with
    | error e =>
      have hbatch : batch = ⟨[], some e⟩ := congrArg Outcome.ofExcept hrun
      rw [hbatch]
      exact ⟨rfl, rfl⟩
    | ok lines =>
      obtain ⟨spec, hspec, -⟩ := runBatch_eq_ok_iff.mp hrun
      exact absurd ⟨spec, hspec⟩ h

def twoJobSpec : JobSpec32 :=
  let p (x y : Nat) : Point Binary32 := ⟨.ofNat x, .ofNat y⟩
  let cut : Job32 :=
    { id := "cut", half := 2, origin := ⟨1, 0⟩, coefficients := .zero
      edges := [⟨1, [p 4 0, p 4 2]⟩] }
  ⟨"1.0", [cut, { cut with id := "flat", half := 0, edges := [] }]⟩

def cutLine : String := "[\"cut\", 2, [1, 0], [0, 0, 0], [[1, [[4, 0], [4.0, 2]]]]]"

def flatLine : String := "[\"flat\", 0, [1, 0], [0, 0, 0], []]"

theorem stream_and_batch_agree_two_jobs :
    let s : Surroundings :=
      ⟨("[\"1.0\", [" ++ cutLine ++ "," ++ flatLine ++ "]]").toUTF8, fun _ => .missing .notFound⟩
    let stream (input : ByteArray) : Outcome := (Request.stream false).run { s with input }
    let batch : Outcome := (Request.batch none 0 false).run s
    let front := [cutLine, "no job"]
    let back := ["\u00a0", flatLine]
    HasLines (streamInput front) front ∧ Text.EndsLine 10 (streamInput front).toList ∧
      HasLines (streamInput back) back ∧ s.Submits none twoJobSpec ∧
      OneJobPerLine (streamInput [cutLine, flatLine]) twoJobSpec.jobs ∧
      stream (streamInput [cutLine, flatLine]) = batch ∧
      stream (streamInput front ++ streamInput back) = batch ∧ batch.lines.length = 2 ∧
      ((Request.batch (some "missing") 0 false).run s).lines = [] := by
  intro s stream batch front back
  obtain ⟨hstream, hjoin, hbatch, -⟩ := stream_and_batch_agree s none 0 false
  have hsubmits : s.Submits none twoJobSpec :=
    ⟨_, _, rfl, by decide +kernel, by decide +kernel, by decide⟩
  have hlines {texts : List String} (h : texts.all fun text => text.toList.all (' ' ≤ ·)) :
      HasLines (streamInput texts) texts :=
    hasLines_streamInput (by simpa using h)
  have hfront : HasLines (streamInput front) front := hlines (by decide +kernel)
  have hback : HasLines (streamInput back) back := hlines (by decide +kernel)
  have hends : Text.EndsLine 10 (streamInput front).toList := endsLine_streamInput front
  have hjobs : OneJobPerLine (streamInput [cutLine, flatLine]) twoJobSpec.jobs :=
    ⟨_, hlines (by decide +kernel), .cons (by decide +kernel) (.cons (by decide +kernel) .nil)⟩
  have hprinted : batch = ⟨resultLines twoJobSpec.jobs, none⟩ :=
    (hbatch _ hsubmits).2.2
  have hjoined : stream (streamInput front ++ streamInput back) = batch := by
    have hfound : front.filterMap Job.parse? ++ back.filterMap Job.parse? = twoJobSpec.jobs := by
      decide +kernel
    refine (hjoin _ _ _ hfront hends).trans ?_
    rw [hstream _ _ hfront, hstream _ _ hback, hprinted, ← hfound, resultLines, resultLines,
      ← List.map_append]
    rfl
  have hrefused : ¬∃ spec, s.Submits (some "missing") spec := by
    rintro ⟨_, _, _, hsource, -⟩
    cases hsource
  exact ⟨hfront, hends, hback, hsubmits, hjobs, (hbatch _ hsubmits).2.1 _ hjobs, hjoined,
    congrArg (List.length ∘ Outcome.lines) hprinted,
    ((stream_and_batch_agree s (some "missing") 0 false).2.2.2.1 hrefused).1⟩

end WaveletRaster
