import Mathlib
import WaveletRaster.Command.Operand
import WaveletRaster.Proofs.Acceptance
import WaveletRaster.Proofs.Decimal.Literal
import WaveletRaster.Proofs.Text.Blank

/-! Points as they are typed. White space cuts the text into words, the first comma cuts a word in
two, and a word is a point when both sides are literals. The first word that is no point decides
what is reported, so that a text which is continued behind white space is read piece by piece. -/

namespace WaveletRaster.Operand
open Decimal (IsLiteral IsNoLiteral LiteralFault readLiteral)
open Text (Spaced isBlank)

inductive IsPoint : List Char → Point Binary32 → Prop
  | intro {x y : List Char} {p : Point Binary32} (hcomma : ',' ∉ x) (hx : IsLiteral x p.x)
    (hy : IsLiteral y p.y) : IsPoint (x ++ ',' :: y) p

/-- What is wrong with a word that is no point. The side in front of the comma comes first. -/
inductive IsNoPoint : List Char → OperandError → Prop
  | noComma {word : List Char} (h : ',' ∉ word) : IsNoPoint word (.notAPair word)
  | badX {x y : List Char} {fault : LiteralFault} (hcomma : ',' ∉ x)
    (hx : IsNoLiteral .single x fault) : IsNoPoint (x ++ ',' :: y) (.badX (x ++ ',' :: y) fault)
  | badY {x y : List Char} {value : Binary32} {fault : LiteralFault} (hcomma : ',' ∉ x)
    (hx : IsLiteral x value) (hy : IsNoLiteral .single y fault) :
    IsNoPoint (x ++ ',' :: y) (.badY (x ++ ',' :: y) fault)

section
variable {word : List Char}

theorem readPoint_of_notMem (h : ',' ∉ word) : readPoint word = .error (.notAPair word) := by
  have hnone : Text.splitFirst? isComma word = none :=
    Text.splitFirst?_eq_none_iff.mpr (Text.eq_false_of_notMem h)
  rw [readPoint, hnone]

theorem readPoint_append {x y : List Char} (hcomma : ',' ∉ x)
    (hsolid : ∀ c ∈ x ++ ',' :: y, isBlank c = false) : readPoint (x ++ ',' :: y) = (do
      let a ← (readLiteral x).mapError (.badX (x ++ ',' :: y))
      let b ← (readLiteral y).mapError (.badY (x ++ ',' :: y))
      return ⟨a, b⟩) := by
  have hsplit : Text.splitFirst? isComma (x ++ ',' :: y) = some (x, y) :=
    Text.splitFirst?_append_cons (Text.eq_false_of_notMem hcomma) rfl
  obtain ⟨hx, hy⟩ := List.forall_mem_append.mp hsolid
  rw [readPoint, hsplit]
  simp only [Text.trim_eq_self hx, Text.trim_eq_self (List.forall_mem_cons.mp hy).2]

theorem readPoint_of_isPoint (hsolid : ∀ c ∈ word, isBlank c = false) {p : Point Binary32}
    (h : IsPoint word p) : readPoint word = .ok p := by
  cases h with
  | intro hcomma hx hy =>
    rw [readPoint_append hcomma hsolid, Decimal.readLiteral_of_isLiteral hx,
      Decimal.readLiteral_of_isLiteral hy]
    rfl

theorem readPoint_of_isNoPoint (hsolid : ∀ c ∈ word, isBlank c = false) {e : OperandError}
    (h : IsNoPoint word e) : readPoint word = .error e := by
  cases h with
  | noComma h => exact readPoint_of_notMem h
  | badX hcomma hx =>
    rw [readPoint_append hcomma hsolid, Decimal.readLiteral_eq_error_iff.mpr hx]
    rfl
  | badY hcomma hx hy =>
    rw [readPoint_append hcomma hsolid, Decimal.readLiteral_of_isLiteral hx,
      Decimal.readLiteral_eq_error_iff.mpr hy]
    rfl

theorem isPoint_or_isNoPoint (word : List Char) :
    (∃ p, IsPoint word p) ∨ ∃ e, IsNoPoint word e := by
  cases hsplit : Text.splitFirst? isComma word with
  | none =>
    have hcomma := Text.notMem_of_eq_false (Text.splitFirst?_eq_none_iff.mp hsplit)
    exact .inr ⟨_, .noComma hcomma⟩
  | some sides =>
    obtain ⟨x, y⟩ := sides
    obtain ⟨hfront, c, hc, rfl⟩ := Text.splitFirst?_eq_some_iff.mp hsplit
    obtain rfl : c = ',' := of_decide_eq_true hc
    have hcomma := Text.notMem_of_eq_false hfront
    rcases Decimal.isLiteral_or_isNoLiteral .single x with ⟨a, ha⟩ | ⟨fault, hx⟩
    · rcases Decimal.isLiteral_or_isNoLiteral .single y with ⟨b, hb⟩ | ⟨fault, hy⟩
      · exact .inl ⟨⟨a, b⟩, .intro hcomma ha hb⟩
      · exact .inr ⟨_, .badY hcomma ha hy⟩
    · exact .inr ⟨_, .badX hcomma hx⟩

theorem readPoint_eq_ok_iff (hsolid : ∀ c ∈ word, isBlank c = false) {p : Point Binary32} :
    readPoint word = .ok p ↔ IsPoint word p :=
  eq_ok_iff_of_total (fun _ => readPoint_of_isPoint hsolid) (fun _ => readPoint_of_isNoPoint hsolid)
    (isPoint_or_isNoPoint word)

theorem readPoint_eq_error_iff (hsolid : ∀ c ∈ word, isBlank c = false) {e : OperandError} :
    readPoint word = .error e ↔ IsNoPoint word e :=
  eq_error_iff_of_total (fun _ => readPoint_of_isPoint hsolid)
    (fun _ => readPoint_of_isNoPoint hsolid) (isPoint_or_isNoPoint word)

end

section
variable {text : String} {words : List (List Char)} (h : Spaced words text.toList)
include h

theorem readPoints_eq_ok_iff {points : List (Point Binary32)} :
    readPoints text = .ok points ↔ List.Forall₂ IsPoint words points := by
  have hwords (word : List Char) (p : Point Binary32) :
      Text.IsWord word ∧ readPoint word = .ok p ↔ Text.IsWord word ∧ IsPoint word p :=
    and_congr_right fun hword => readPoint_eq_ok_iff hword.solid
  have hsolid (R : List Char → Point Binary32 → Prop) : List.Forall₂ R words points ↔
      List.Forall₂ (fun word p => Text.IsWord word ∧ R word p) words points := by
    rw [List.forall₂_and_left, and_iff_right h.isWord]
  rw [readPoints, Text.words_eq_iff.mpr h, mapM_eq_ok_iff, hsolid, hsolid IsPoint]
  simp only [hwords]

theorem readPoints_eq_error_iff {e : OperandError} : readPoints text = .error e ↔
    ∃ before word after, words = before ++ word :: after ∧
      (∀ w ∈ before, ∃ p, IsPoint w p) ∧ IsNoPoint word e := by
  rw [readPoints, Text.words_eq_iff.mpr h, mapM_eq_error_iff]
  refine exists₃_congr fun before word after => and_congr_right fun hwords => ?_
  obtain ⟨hbefore, hafter⟩ := List.forall_mem_append.mp (hwords ▸ h.isWord)
  have hword := (List.forall_mem_cons.mp hafter).1
  rw [readPoint_eq_error_iff hword.solid, and_congr_left fun _ => forall₂_congr fun w hw => ?_]
  exact exists_congr fun p => readPoint_eq_ok_iff (hbefore w hw).solid

end

theorem readPoints_append (front back : String) {c : Char} (hc : isBlank c) :
    readPoints (front ++ String.singleton c ++ back) = (do
      let ps ← readPoints front
      let qs ← readPoints back
      return ps ++ qs) := by
  have htext : (front ++ String.singleton c ++ back).toList = front.toList ++ c :: back.toList := by
    simp
  rw [readPoints, htext, Text.words_append_cons hc, List.mapM_append]
  rfl

theorem points_are_read_word_by_word :
    (∀ text : String, ∃ words : List (List Char), Spaced words text.toList ∧
      (∀ others, Spaced others text.toList → others = words) ∧
      (∀ points, readPoints text = .ok points ↔ List.Forall₂ IsPoint words points) ∧
      ∀ e, readPoints text = .error e ↔ ∃ before word after, words = before ++ word :: after ∧
        (∀ w ∈ before, ∃ p, IsPoint w p) ∧ IsNoPoint word e) ∧
    (∀ (words : List (List Char)) (text text' : String), Spaced words text.toList →
      Spaced words text'.toList → readPoints text = readPoints text') ∧
    ∀ (front back : String) (c : Char), isBlank c →
      readPoints (front ++ String.singleton c ++ back) = (do
        let ps ← readPoints front
        let qs ← readPoints back
        return ps ++ qs) := by
  refine ⟨fun text => ?_, fun words text text' h h' => ?_, fun front back c hc => ?_⟩
  · have h := Text.spaced_words text.toList
    refine ⟨_, h, fun others hothers => ?_, fun points => readPoints_eq_ok_iff h,
      fun e => readPoints_eq_error_iff h⟩
    exact (Text.words_eq_iff.mpr hothers).symm
  · rw [readPoints, readPoints, Text.words_eq_iff.mpr h, Text.words_eq_iff.mpr h']
  · exact readPoints_append front back hc

theorem points_are_read_word_by_word_spaced :
    let words := ["0,-1".toList, "2.5e0,+.5".toList]
    let points : List (Point Binary32) := [⟨.zero false, -.ofNat 1⟩,
      ⟨.ofDecimal false 25 (-1), .ofDecimal false 5 (-1)⟩]
    Spaced words "0,-1 2.5e0,+.5".toList ∧
    readPoints "\u00a00,-1\t\n2.5e0,+.5\u3000" = .ok points ∧
    readPoints "0,-1 2.5e0,+.5\u20281,,2 3" =
      .error (.badY "1,,2".toList .invalid) := by
  intro words points
  obtain ⟨-, hspaced, happend⟩ := points_are_read_word_by_word
  have hplain : Spaced words "0,-1 2.5e0,+.5".toList :=
    Text.words_eq_iff.mp (by decide +kernel)
  have hread : readPoints "0,-1 2.5e0,+.5" = .ok points := by decide +kernel
  refine ⟨hplain, ?_, ?_⟩
  · rw [← hread]
    exact hspaced words _ _ (Text.words_eq_iff.mp (by decide +kernel)) hplain
  · have hjoined := happend "0,-1 2.5e0,+.5" "1,,2 3" '\u2028' (by decide)
    rw [hread] at hjoined
    exact hjoined

end WaveletRaster.Operand
