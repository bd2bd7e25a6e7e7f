import Mathlib
import WaveletRaster.Command.Operand
import WaveletRaster.Proofs.Acceptance
import WaveletRaster.Proofs.Decimal.Integer
import WaveletRaster.Proofs.Text.Blank

/-! Origins and coefficients as they are typed: parts between commas, with white space around them.
The two are refused in opposite orders. An origin must have two parts before its numbers are read,
and of coefficients the first one that is no literal is reported before their number. -/

namespace WaveletRaster.Operand
open Decimal (IntegerFault IntegerRange IsInteger IsLiteral IsNoLiteral LiteralFault Numeral
  readLiteral)
open Text (Joined Padded isBlank padded_iff)

theorem splitOn_isComma {parts : List (List Char)} {cs : List Char} (h : Joined ',' parts cs) :
    Text.splitOn isComma cs = parts :=
  Text.splitOn_eq_iff.mpr h

inductive IsOrigin : List Char → Origin → Prop
  | intro {x y cs : List Char} {o : Origin} (hparts : Joined ',' [x, y] cs)
    (hx : Padded IsInteger x o.x.toInt) (hy : Padded IsInteger y o.y.toInt) : IsOrigin cs o

inductive IsNoOrigin : List Char → OperandError → Prop
  | commas {cs : List Char} (h : cs.count ',' ≠ 1) : IsNoOrigin cs (.notAPair cs)
  | badX {x y cs : List Char} {fault : IntegerFault} (hparts : Joined ',' [x, y] cs)
    (hx : Padded IntegerRange.int32.HasFault x fault) : IsNoOrigin cs (.badOriginX fault)
  | badY {x y cs : List Char} {i : Int32} {fault : IntegerFault} (hparts : Joined ',' [x, y] cs)
    (hx : Padded IsInteger x i.toInt) (hy : Padded IntegerRange.int32.HasFault y fault) :
    IsNoOrigin cs (.badOriginY fault)

section
variable {text : String}

theorem readOrigin_of_joined {x y : List Char} (h : Joined ',' [x, y] text.toList) :
    readOrigin text = (do
      let i ← (IntegerRange.int32.read (Text.trim x)).mapError .badOriginX
      let j ← (IntegerRange.int32.read (Text.trim y)).mapError .badOriginY
      return ⟨Int32.ofInt i, Int32.ofInt j⟩) := by
  rw [readOrigin, splitOn_isComma h]
  rfl

theorem readOrigin_of_count_ne (h : text.toList.count ',' ≠ 1) :
    readOrigin text = .error (.notAPair text.toList) := by
  have hcount := (Text.joined_splitOn ',' text.toList).count
  rw [readOrigin]
  split
  · rename_i x y hparts
    have hlength := congrArg List.length hparts
    rw [List.length_map] at hlength
    exact absurd (Nat.succ.inj (hcount.trans hlength)) h
  · rfl

theorem readOrigin_of_isOrigin {o : Origin} (h : IsOrigin text.toList o) :
    readOrigin text = .ok o := by
  obtain ⟨hparts, hx, hy⟩ := h
  rw [readOrigin_of_joined hparts, IntegerRange.read_int32_of_isInteger (padded_iff.mp hx),
    IntegerRange.read_int32_of_isInteger (padded_iff.mp hy)]
  show Except.ok (Origin.mk (Int32.ofInt o.x.toInt) (Int32.ofInt o.y.toInt)) = .ok o
  rw [Int32.ofInt_toInt, Int32.ofInt_toInt]

theorem readOrigin_of_isNoOrigin {e : OperandError} (h : IsNoOrigin text.toList e) :
    readOrigin text = .error e := by
  cases h with
  | commas h => exact readOrigin_of_count_ne h
  | badX hparts hx =>
    rw [readOrigin_of_joined hparts, IntegerRange.read_int32_of_hasFault (padded_iff.mp hx)]
    rfl
  | badY hparts hx hy =>
    rw [readOrigin_of_joined hparts, IntegerRange.read_int32_of_isInteger (padded_iff.mp hx),
      IntegerRange.read_int32_of_hasFault (padded_iff.mp hy)]
    rfl

theorem isOrigin_or_isNoOrigin (cs : List Char) :
    (∃ o, IsOrigin cs o) ∨ ∃ e, IsNoOrigin cs e := by
  by_cases hcount : cs.count ',' = 1
  · have hparts := Text.joined_splitOn ',' cs
    have hlength := hparts.count
    rw [hcount] at hlength
    obtain ⟨x, y, hxy⟩ := List.length_eq_two.mp hlength.symm
    rw [hxy] at hparts
    rcases IntegerRange.isInt32_or_hasFault (Text.trim x) with ⟨i, hi⟩ | ⟨fault, hx⟩
    · rcases IntegerRange.isInt32_or_hasFault (Text.trim y) with ⟨j, hj⟩ | ⟨fault, hy⟩
      · exact .inl ⟨⟨i, j⟩, .intro hparts (padded_iff.mpr hi) (padded_iff.mpr hj)⟩
      · exact .inr ⟨_, .badY hparts (padded_iff.mpr hi) (padded_iff.mpr hy)⟩
    · exact .inr ⟨_, .badX hparts (padded_iff.mpr hx)⟩
  · exact .inr ⟨_, .commas hcount⟩

theorem readOrigin_eq_ok_iff {o : Origin} : readOrigin text = .ok o ↔ IsOrigin text.toList o :=
  eq_ok_iff_of_total (fun _ => readOrigin_of_isOrigin) (fun _ => readOrigin_of_isNoOrigin)
    (isOrigin_or_isNoOrigin text.toList)

theorem readOrigin_eq_error_iff {e : OperandError} :
    readOrigin text = .error e ↔ IsNoOrigin text.toList e :=
  eq_error_iff_of_total (fun _ => readOrigin_of_isOrigin) (fun _ => readOrigin_of_isNoOrigin)
    (isOrigin_or_isNoOrigin text.toList)

end

section
variable {a b a' b' : List Char} (ha : ∀ c ∈ a, isBlank c) (hb : ∀ c ∈ b, isBlank c)
include ha hb

theorem padded_ofInt (i : Int) : Padded IsInteger (a ++ (Numeral.ofInt i).chars ++ b) i := by
  have h := Decimal.isInteger_chars_ofInt i
  exact ⟨_, ⟨⟨a, b, ha, hb, rfl⟩, fun c hc => (h.solid c (List.mem_of_head? hc)).1,
    fun c hc => (h.solid c (List.mem_of_getLast? hc)).1⟩, h⟩

theorem comma_notMem_ofInt (i : Int) : ',' ∉ a ++ (Numeral.ofInt i).chars ++ b := by
  have hblank : ¬isBlank ',' := by decide
  simp only [List.mem_append, not_or]
  exact ⟨⟨fun h => hblank (ha _ h),
    fun h => ((Decimal.isInteger_chars_ofInt i).solid _ h).2 rfl⟩, fun h => hblank (hb _ h)⟩

theorem isOrigin_chars_ofInt (ha' : ∀ c ∈ a', isBlank c) (hb' : ∀ c ∈ b', isBlank c)
    (o : Origin) : IsOrigin (a ++ (Numeral.ofInt o.x.toInt).chars ++ b ++
      ',' :: (a' ++ (Numeral.ofInt o.y.toInt).chars ++ b')) o :=
  .intro (.cons (comma_notMem_ofInt ha hb _) (.single (comma_notMem_ofInt ha' hb' _)))
    (padded_ofInt ha hb _) (padded_ofInt ha' hb' _)

end

inductive IsCoefficients : List Char → Coefficients Binary32 → Prop
  | intro {parts : List (List Char)} {cs : List Char} {c : Coefficients Binary32}
    (hparts : Joined ',' parts cs) (hvalues : List.Forall₂ (Padded IsLiteral) parts c.toList) :
    IsCoefficients cs c

/-- What is wrong with a text that is no list of three coefficients. -/
inductive IsNoCoefficients : List Char → OperandError → Prop
  | literal {before after : List (List Char)} {part cs : List Char} {fault : LiteralFault}
    (hparts : Joined ',' (before ++ part :: after) cs)
    (hbefore : ∀ p ∈ before, ∃ value : Binary32, Padded IsLiteral p value)
    (hpart : Padded (IsNoLiteral .single) part fault) : IsNoCoefficients cs (.badCoefficient fault)
  | count {parts : List (List Char)} {cs : List Char} (hparts : Joined ',' parts cs)
    {values : List Binary32} (hvalues : List.Forall₂ (Padded IsLiteral) parts values)
    (hcount : parts.length ≠ 3) : IsNoCoefficients cs (.coefficientCount parts.length)

theorem readPart_eq_ok_iff {part : List Char} {value : Binary32} :
    (readLiteral (Text.trim part)).mapError OperandError.badCoefficient = .ok value ↔
      Padded IsLiteral part value := by
  rw [mapError_eq_ok_iff, Decimal.readLiteral_eq_ok_iff, padded_iff]

section
variable {parts : List (List Char)} {cs : List Char} (h : Joined ',' parts cs)
include h

theorem mapM_splitOn_eq_ok_iff {values : List Binary32} :
    (Text.splitOn isComma cs).mapM (fun part =>
      (readLiteral (Text.trim part)).mapError OperandError.badCoefficient) = .ok values ↔
      List.Forall₂ (Padded IsLiteral) parts values := by
  rw [splitOn_isComma h, mapM_eq_ok_iff]
  simp only [readPart_eq_ok_iff]

theorem mapM_splitOn_eq_error_iff {e : OperandError} :
    (Text.splitOn isComma cs).mapM (fun part =>
      (readLiteral (f := .single) (Text.trim part)).mapError OperandError.badCoefficient) =
        .error e ↔
      ∃ before part after fault, parts = before ++ part :: after ∧
        (∀ p ∈ before, ∃ value : Binary32, Padded IsLiteral p value) ∧
        Padded (IsNoLiteral .single) part fault ∧ .badCoefficient fault = e := by
  rw [splitOn_isComma h, mapM_eq_error_iff]
  simp only [readPart_eq_ok_iff, mapError_eq_error_iff, Decimal.readLiteral_eq_error_iff,
    padded_iff (R := IsNoLiteral .single), exists_and_left]

end

section
variable {text : String}

theorem readCoefficients_of_isCoefficients {c : Coefficients Binary32}
    (h : IsCoefficients text.toList c) : readCoefficients text = .ok c := by
  obtain ⟨hparts, hvalues⟩ := h
  rw [readCoefficients, (mapM_splitOn_eq_ok_iff hparts).mpr hvalues]
  rfl

theorem readCoefficients_of_isNoCoefficients {e : OperandError}
    (h : IsNoCoefficients text.toList e) : readCoefficients text = .error e := by
  cases h with
  | literal hparts hbefore hpart =>
    rw [readCoefficients,
      (mapM_splitOn_eq_error_iff hparts).mpr ⟨_, _, _, _, rfl, hbefore, hpart, rfl⟩]
    rfl
  | @count parts _ hparts values hvalues hcount =>
    rw [hvalues.length_eq] at hcount ⊢
    rw [readCoefficients, (mapM_splitOn_eq_ok_iff hparts).mpr hvalues]
    dsimp only [bind, Except.bind]
    split
    · exact absurd rfl hcount
    · rfl

theorem isCoefficients_or_isNoCoefficients (cs : List Char) :
    (∃ c, IsCoefficients cs c) ∨ ∃ e, IsNoCoefficients cs e := by
  have hparts := Text.joined_splitOn ',' cs
  cases hread : (Text.splitOn isComma cs).mapM (fun part =>
      (readLiteral (Text.trim part)).mapError OperandError.badCoefficient) with
  | error e =>
    obtain ⟨before, part, after, fault, hsplit, hbefore, hpart, rfl⟩ :=
      (mapM_splitOn_eq_error_iff hparts).mp hread
    exact .inr ⟨_, .literal (hsplit ▸ hparts) hbefore hpart⟩
  | ok values =>
    have hvalues := (mapM_splitOn_eq_ok_iff hparts).mp hread
    by_cases hcount : (Text.splitOn (· = ',') cs).length = 3
    · obtain ⟨h, v, d, rfl⟩ := List.length_eq_three.mp (hvalues.length_eq ▸ hcount)
      exact .inl ⟨⟨h, v, d⟩, .intro hparts hvalues⟩
    · exact .inr ⟨_, .count hparts hvalues hcount⟩

theorem readCoefficients_eq_ok_iff {c : Coefficients Binary32} :
    readCoefficients text = .ok c ↔ IsCoefficients text.toList c :=
  eq_ok_iff_of_total (fun _ => readCoefficients_of_isCoefficients)
    (fun _ => readCoefficients_of_isNoCoefficients) (isCoefficients_or_isNoCoefficients text.toList)

theorem readCoefficients_eq_error_iff {e : OperandError} :
    readCoefficients text = .error e ↔ IsNoCoefficients text.toList e :=
  eq_error_iff_of_total (fun _ => readCoefficients_of_isCoefficients)
    (fun _ => readCoefficients_of_isNoCoefficients) (isCoefficients_or_isNoCoefficients text.toList)

end

theorem origins_and_coefficients_are_read :
    (∀ (text : String) (o : Origin), readOrigin text = .ok o ↔ IsOrigin text.toList o) ∧
    (∀ (text : String) (e : OperandError), readOrigin text = .error e ↔ IsNoOrigin text.toList e) ∧
    (∀ (o : Origin) (a b a' b' : List Char), (∀ c ∈ a ++ b ++ a' ++ b', isBlank c) →
      readOrigin (String.ofList (a ++ (Numeral.ofInt o.x.toInt).chars ++ b ++
        ',' :: (a' ++ (Numeral.ofInt o.y.toInt).chars ++ b'))) = .ok o) ∧
    (∀ (text : String) (c : Coefficients Binary32),
      readCoefficients text = .ok c ↔ IsCoefficients text.toList c) ∧
    ∀ (text : String) (e : OperandError),
      readCoefficients text = .error e ↔ IsNoCoefficients text.toList e := by
  refine ⟨fun text o => readOrigin_eq_ok_iff, fun text e => readOrigin_eq_error_iff,
    fun o a b a' b' hblank => ?_, fun text c => readCoefficients_eq_ok_iff,
    fun text e => readCoefficients_eq_error_iff⟩
  simp only [List.forall_mem_append] at hblank
  obtain ⟨⟨⟨ha, hb⟩, ha'⟩, hb'⟩ := hblank
  rw [readOrigin_eq_ok_iff, String.toList_ofList]
  exact isOrigin_chars_ofInt ha hb ha' hb' o

theorem origins_and_coefficients_are_read_extreme :
    readOrigin "\u2003-2147483648\t,2147483647\n" = .ok ⟨Int32.minValue, Int32.maxValue⟩ ∧
    IsNoOrigin "2147483648,x".toList (.badOriginX .tooLarge) ∧
    IsNoOrigin "x,2,3".toList (.notAPair "x,2,3".toList) ∧
    IsNoCoefficients "1, ,x,4".toList (.badCoefficient .empty) := by
  obtain ⟨-, hnoOrigin, hwritten, -, hnoCoefficients⟩ := origins_and_coefficients_are_read
  refine ⟨?_, (hnoOrigin "2147483648,x" _).mp (by decide +kernel),
    (hnoOrigin "x,2,3" _).mp (by decide +kernel),
    (hnoCoefficients "1, ,x,4" _).mp (by decide +kernel)⟩
  have hread := hwritten ⟨Int32.minValue, Int32.maxValue⟩ ['\u2003'] ['\t'] [] ['\n']
    (List.all_eq_true.mp (by decide +kernel))
  exact (congrArg readOrigin (by decide +kernel)).trans hread

end WaveletRaster.Operand
