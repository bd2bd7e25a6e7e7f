import Mathlib
import WaveletRaster.Command.Run
import WaveletRaster.Proofs.Text.Bytes
import WaveletRaster.Proofs.Text.Split

/-! Jobs line by line. Each line is answered for itself: a line that holds a job by its result, any
other line by nothing, so that an input may be cut behind any of its lines. -/

namespace WaveletRaster

namespace Json

theorem toNat_of_isBlank {c : Char} (hc : Text.isBlank c) : c.toNat ≤ 0x20 ∨ 0x7f < c.toNat := by
  simp only [Text.isBlank, Bool.or_eq_true, Bool.and_eq_true, decide_eq_true_eq] at hc
  omega

/-- No token starts with white space of any kind, and only some kinds may stand between tokens. -/
theorem start?_of_isBlank {c : Char} (hc : Text.isBlank c) (tokens : List Token) :
    Lexer.start? tokens c = if isBlank c then some ⟨.none, tokens⟩ else none := by
  have houtside := toNat_of_isBlank hc
  have hcode : c.val.toNat = c.toNat := rfl
  have hne {d : Char} (hd : 0x20 < d.toNat ∧ d.toNat ≤ 0x7f) : c ≠ d := by
    rintro rfl
    omega
  have hdigit : c.isDigit = false := by
    have hrange : 48 ≤ c.toNat → 57 < c.toNat := by omega
    simpa [Char.isDigit, UInt32.le_iff_toNat_le] using hrange
  have hnumber : Lexer.isNumberStart c = false := by simp [Lexer.isNumberStart, hdigit, hne]
  have hword : Lexer.isWordChar c = false := by
    have hrange : 97 ≤ c.toNat → 122 < c.toNat := by omega
    simpa [Lexer.isWordChar, Char.le_def, UInt32.le_iff_toNat_le] using hrange
  have hmark : Token.ofMark? c = none := by simp [Token.ofMark?, hne]
  simp [Lexer.start?, hnumber, hword, hmark, hne]

theorem foldlM_of_isBlank {cs : List Char} (hcs : ∀ c ∈ cs, Text.isBlank c) {l : Lexer}
    (h : cs.foldlM Lexer.step? ⟨.none, []⟩ = some l) : l = ⟨.none, []⟩ := by
  induction cs with
  | nil => exact (Option.some.inj h).symm
  | cons c cs ih =>
    obtain ⟨hc, hcs⟩ := List.forall_mem_cons.mp hcs
    have hstep : Lexer.step? ⟨.none, []⟩ c = if isBlank c then some ⟨.none, []⟩ else none :=
      start?_of_isBlank hc []
    rw [List.foldlM_cons, hstep] at h
    split_ifs at h
    · exact ih hcs h
    · cases h

theorem parse?_of_isBlank {text : String} (h : text.toList.all Text.isBlank) :
    parse? text = none := by
  rw [parse?, tokens?]
  cases hfold : text.toList.foldlM Lexer.step? ⟨.none, []⟩ with
  | none => rfl
  | some l =>
    obtain rfl := foldlM_of_isBlank (List.all_eq_true.mp h) hfold
    rfl

end Json

theorem runLine?_eq (line : String) : runLine? line = (Job.parse? line).map Job.run := by
  rw [runLine?]
  split_ifs with hblank
  · rw [Job.parse?, Json.parse?_of_isBlank hblank]
    rfl
  · rfl

def resultLines (jobs : List Job32) : List String :=
  jobs.map fun job => (job.run : JobResult32).text

theorem runStream_cons (text : String) (rest : List (List UInt8)) :
    runStream (lineBytes text :: rest) =
      ⟨resultLines (Job.parse? text).toList ++ (runStream rest).lines, (runStream rest).error⟩ := by
  have hline : resultLines (Job.parse? text).toList =
      (runLine? text).toList.map JobResult.text := by
    rw [runLine?_eq]
    cases Job.parse? text <;> rfl
  rw [hline]
  cases h : runLine? text <;> simp [runStream, fromUTF8?_lineBytes, h]

theorem runStream_append (texts : List String) (rest : List (List UInt8)) :
    runStream (texts.map lineBytes ++ rest) =
      ⟨resultLines (texts.filterMap Job.parse?) ++ (runStream rest).lines,
        (runStream rest).error⟩ := by
  induction texts with
  | nil => rfl
  | cons text texts ih =>
    have hresults : resultLines ((text :: texts).filterMap Job.parse?) =
        resultLines (Job.parse? text).toList ++ resultLines (texts.filterMap Job.parse?) := by
      cases h : Job.parse? text <;> simp [resultLines, h]
    rw [List.map_cons, List.cons_append, runStream_cons, ih, hresults, List.append_assoc]

/-- The lines of the input are these texts. -/
def HasLines (input : ByteArray) (texts : List String) : Prop :=
  inputLines input.toList = texts.map lineBytes

def streamInput (texts : List String) : ByteArray :=
  ⟨((texts.map lineBytes).flatMap (· ++ [10])).toArray⟩

theorem endsLine_streamInput (texts : List String) :
    Text.EndsLine 10 (streamInput texts).toList := by
  rw [Text.endsLine_iff, streamInput, byteArray_toList_eq]
  obtain rfl | ⟨front, text, rfl⟩ := List.eq_nil_or_concat' texts
  · exact Or.inl rfl
  · refine Or.inr ⟨(front.map lineBytes).flatMap (· ++ [10]) ++ lineBytes text, ?_⟩
    simp

theorem hasLines_streamInput {texts : List String}
    (h : ∀ text ∈ texts, ∀ c ∈ text.toList, ' ' ≤ c) : HasLines (streamInput texts) texts := by
  rw [HasLines, byteArray_toList_eq]
  refine Text.lines_flatMap (List.forall_mem_map.mpr fun text htext => ?_)
  have hbytes : ∀ b ∈ lineBytes text, 32 ≤ b := fun b hb => le_of_mem_lineBytes (h text htext) hb
  exact ⟨fun hfeed => absurd (hbytes 10 hfeed) (by decide),
    fun hreturn => absurd (hbytes 13 hreturn) (by decide)⟩

theorem runStream_of_hasLines {input : ByteArray} {texts : List String} (h : HasLines input texts) :
    runStream (inputLines input.toList) = ⟨resultLines (texts.filterMap Job.parse?), none⟩ := by
  have hrun := runStream_append texts []
  rw [List.append_nil] at hrun
  rw [h, hrun]
  exact congrArg₂ Outcome.mk (List.append_nil _) rfl

theorem runStream_append_of_hasLines {front : ByteArray} {texts : List String}
    (h : HasLines front texts) (hends : Text.EndsLine 10 front.toList) (back : ByteArray) :
    runStream (inputLines (front ++ back).toList) =
      ⟨resultLines (texts.filterMap Job.parse?) ++ (runStream (inputLines back.toList)).lines,
        (runStream (inputLines back.toList)).error⟩ := by
  have hlines : inputLines (front ++ back).toList =
      texts.map lineBytes ++ inputLines back.toList := by
    rw [byteArray_toList_append, ← h]
    exact Text.lines_append hends back.toList
  rw [hlines, runStream_append]

end WaveletRaster
