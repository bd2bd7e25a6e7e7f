import Mathlib
import WaveletRaster.Decimal.Notation

/-! Numerals read back as they are written. Integers and binary numbers are written without a
superfluous zero in front, which is all that reading asks for. -/

namespace WaveletRaster.Decimal

def EndsDigits (cs : List Char) : Prop := ∀ c ∈ cs.head?, Digit.ofChar? c = none

namespace Numeral

theorem takeDigits_append (ds : List Digit) {cs : List Char} (h : EndsDigits cs) :
    takeDigits (ds.map Digit.char ++ cs) = (ds, cs) := by
  induction ds with
  | nil =>
    cases cs with
    | nil => rfl
    | cons c cs =>
      have hc : Digit.ofChar? c = none := h c rfl
      rw [List.map_nil, List.nil_append, takeDigits, hc]
  | cons d ds ih => rw [List.map_cons, List.cons_append, takeDigits, Digit.ofChar?_char, ih]

theorem takeDigits_map (ds : List Digit) : takeDigits (ds.map Digit.char) = (ds, []) := by
  have hends : EndsDigits [] := nofun
  simpa using takeDigits_append ds hends

def fractionChars (ds : List Digit) : List Char :=
  if ds.isEmpty then [] else '.' :: ds.map Digit.char

def tailChars (e : Option Int) : List Char := (e.map exponentChars).getD []

theorem chars_eq (n : Numeral) : n.chars = (if n.negative then ['-'] else []) ++
    (n.whole.map Digit.char ++ (fractionChars n.fraction ++ tailChars n.exponent)) := by
  rw [chars, List.append_assoc, List.append_assoc]
  rfl

theorem readExponent?_tailChars (e : Option Int) : readExponent? (tailChars e) = some e := by
  cases e with
  | none => rfl
  | some e =>
    have hsign (cs : List Char) :
        takeSign ((if e < 0 then '-' else '+') :: cs) = (decide (e < 0), cs) := by
      split_ifs with h <;> simp [takeSign, h]
    obtain ⟨d, ds, hds⟩ := List.exists_cons_of_ne_nil (digitsOnto_ne_nil e.natAbs [])
    have hvalue : valueOf (d :: ds) = e.natAbs := hds ▸ valueOf_digitsOf e.natAbs
    change readExponent? (exponentChars e) = _
    rw [exponentChars, readExponent?, if_pos (Or.inl rfl), hsign, digitsOf, hds]
    simp only [takeDigits_map, hvalue, decide_eq_true_eq, Option.some.injEq]
    split_ifs <;> omega

theorem endsDigits_tailChars (e : Option Int) : EndsDigits (tailChars e) := by
  cases e with
  | none => nofun
  | some e =>
    rintro c ⟨⟩
    decide

theorem endsDigits_fractionChars_append (ds : List Digit) (e : Option Int) :
    EndsDigits (fractionChars ds ++ tailChars e) := by
  cases ds with
  | nil => exact endsDigits_tailChars e
  | cons d ds =>
    rintro c ⟨⟩
    decide

theorem readFraction?_append (ds : List Digit) (e : Option Int) :
    readFraction? (fractionChars ds ++ tailChars e) = some (ds, tailChars e) := by
  cases ds with
  | nil =>
    cases e with
    | none => rfl
    | some e => rfl
  | cons d ds =>
    change readFraction? ('.' :: ((d :: ds).map Digit.char ++ tailChars e)) = _
    rw [readFraction?, takeDigits_append _ (endsDigits_tailChars e)]

theorem digit_char_ne_minus (d : Digit) : d.char ≠ '-' := by
  intro h
  have := Digit.ofChar?_char d
  rw [h] at this
  cases this

theorem ofChars?_chars {n : Numeral} (h : isPlainWhole n.whole) : ofChars? n.chars = some n := by
  obtain ⟨negative, whole, fraction, exponent⟩ := n
  set body := whole.map Digit.char ++ (fractionChars fraction ++ tailChars exponent) with hbody
  have hsign : (if (chars ⟨negative, whole, fraction, exponent⟩).head? = some '-' then
      (true, (chars ⟨negative, whole, fraction, exponent⟩).tail) else
      (false, chars ⟨negative, whole, fraction, exponent⟩)) = (negative, body) := by
    rw [chars_eq]
    cases negative with
    | true => rfl
    | false =>
      cases whole with
      | nil => cases h
      | cons d whole =>
        rw [if_neg]
        · rfl
        · intro hhead
          exact digit_char_ne_minus d (Option.some.inj hhead)
  rw [ofChars?, hsign, hbody]
  simp only [takeDigits_append _ (endsDigits_fractionChars_append _ _), readFraction?_append,
    readExponent?_tailChars, Option.bind_eq_bind, Option.bind_some, h]
  rfl

theorem isPlainWhole_cons {d : Digit} (h : d ≠ Digit.zero) (ds : List Digit) :
    isPlainWhole (d :: ds) := by
  cases ds with
  | nil => rfl
  | cons => simpa [isPlainWhole] using h

end Numeral

open Numeral (isPlainWhole isPlainWhole_cons)

theorem exists_digitsOnto_eq_cons {n : Nat} (hn : n ≠ 0) (tail : List Digit) :
    ∃ d ds, digitsOnto n tail = d :: ds ∧ d ≠ Digit.zero := by
  induction n using Nat.strongRecOn generalizing tail with
  | ind n ih =>
    rw [digitsOnto]
    split_ifs with hlt
    · refine ⟨_, _, rfl, fun h => hn ?_⟩
      have : n % 10 = 0 := congrArg Fin.val h
      omega
    · exact ih (n / 10) (by omega) (by omega) _

theorem isPlainWhole_digitsOf (n : Nat) : isPlainWhole (digitsOf n) := by
  rcases eq_or_ne n 0 with rfl | hn
  · rw [digitsOf, digitsOnto]
    rfl
  · obtain ⟨d, ds, hds, hd⟩ := exists_digitsOnto_eq_cons hn []
    rw [digitsOf, hds]
    exact isPlainWhole_cons hd ds

theorem isPlainWhole_ofInt (i : Int) : isPlainWhole (Numeral.ofInt i).whole :=
  isPlainWhole_digitsOf i.natAbs

theorem isPlainWhole_write (w : Notation) (negative : Bool) {x : Scaled}
    (h : x.digits = 0 → x.exponent = 0) : isPlainWhole (w.write negative x).whole := by
  obtain ⟨digits, exponent⟩ := x
  rcases eq_or_ne digits 0 with rfl | hdigits
  · obtain rfl : exponent = 0 := h rfl
    have hzero : digitsOf 0 = [Digit.zero] := by
      rw [digitsOf, digitsOnto]
      rfl
    simp only [Notation.write, hzero]
    split_ifs <;> rfl
  · obtain ⟨d, ds, hds, hd⟩ := exists_digitsOnto_eq_cons hdigits []
    simp only [Notation.write, digitsOf, hds]
    split_ifs
    · exact isPlainWhole_cons hd _
    · rw [List.splitAt_eq, List.take_succ_cons]
      exact isPlainWhole_cons hd _
    · rfl
    · rfl

open Binary (Format excessBits)

theorem Catchment.low_pos (f : Format) {n : Nat} (hn : n ≠ 0) : 0 < (Catchment.of f n).low := by
  have hstep : 1 <<< excessBits f.precision n ≤ n := by
    have hpos := f.precision_pos
    rw [Nat.one_shiftLeft]
    refine le_trans (Nat.pow_le_pow_right (by decide) ?_) (Nat.log2_self_le hn)
    rw [excessBits]
    omega
  simp only [Catchment.of]
  split_ifs <;> omega

theorem Catchment.gridPoint?_ne_zero {c : Catchment} (hlow : 0 < c.low) {num den d : Nat}
    (hden : 0 < den) (h : c.gridPoint? num den = some d) : d ≠ 0 := by
  have hcovers : ∀ k, c.covers (k * num) den → k ≠ 0 := by
    rintro k hk rfl
    have hpos : 0 < c.low * den := Nat.mul_pos hlow hden
    rw [Catchment.covers, Nat.zero_mul] at hk
    split_ifs at hk
    · exact Nat.not_le.mpr hpos (of_decide_eq_true (Bool.and_eq_true_iff.mp hk).1)
    · exact Nat.not_lt_zero _ (of_decide_eq_true (Bool.and_eq_true_iff.mp hk).1)
  simp only [Catchment.gridPoint?] at h
  split at h
  · cases h
  · rename_i hlower _
    cases h
    exact hcovers _ hlower
  · cases h
    exact Nat.succ_ne_zero _
  · rename_i hlower _
    have hd := hcovers _ hlower
    split_ifs at h <;> cases h
    · exact hd
    · exact Nat.succ_ne_zero _
    · exact fun hsum => hd (Nat.add_eq_zero_iff.mp hsum).1

theorem digits_shortestFrom_ne_zero (f : Format) {n : Nat} (hn : n ≠ 0) {c : Catchment}
    (hlow : 0 < c.low) (j : Nat) : (shortestFrom f n c j).digits ≠ 0 := by
  induction j with
  | zero => exact Nat.mul_ne_zero hn (Nat.pow_pos (by decide)).ne'
  | succ j ih =>
    simp only [shortestFrom]
    split
    · rename_i d hd
      split_ifs at hd
      · exact Catchment.gridPoint?_ne_zero hlow Nat.one_pos hd
      · exact Catchment.gridPoint?_ne_zero hlow (Nat.pow_pos (by decide)) hd
    · exact ih

theorem exponent_shortest_of_digits_eq_zero (f : Format) (n : Nat)
    (h : (shortest f n).digits = 0) : (shortest f n).exponent = 0 := by
  rcases eq_or_ne n 0 with rfl | hn
  · rfl
  · rw [shortest, if_neg hn] at h
    exact absurd h (digits_shortestFrom_ne_zero f hn (Catchment.low_pos f hn) _)

theorem isPlainWhole_of_written? {f : Format} {w : Notation} {x : Binary f} {n : Numeral}
    (h : written? w x = some n) : isPlainWhole n.whole := by
  cases x with
  | finite s m _ =>
    cases h
    exact isPlainWhole_write w s (exponent_shortest_of_digits_eq_zero f m)
  | _ => cases h

end WaveletRaster.Decimal
