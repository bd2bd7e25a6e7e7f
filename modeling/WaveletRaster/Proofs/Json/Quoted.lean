import Mathlib
import WaveletRaster.Json.Quoted

/-! Escaped texts read back. -/

namespace WaveletRaster.Json

theorem hexValue?_hexDigit {n : Nat} (h : n < 16) : hexValue? (hexDigit n) = some n := by
  have hall : ∀ m : Fin 16, hexValue? (hexDigit m) = some m.val := by decide
  exact hall ⟨n, h⟩

theorem codesOnto?_escapeChar (reversed : List Nat) (c : Char) (rest : List Char) :
    codesOnto? reversed (escapeChar c ++ rest) = codesOnto? (c.toNat :: reversed) rest := by
  unfold escapeChar
  split_ifs with h₁ h₂ h₃ h₄ h₅ h₆ h₇ h₈
  · subst h₁; rfl
  · subst h₂; rfl
  · subst h₃; rfl
  · subst h₄; rfl
  · subst h₅; rfl
  · subst h₆; rfl
  · subst h₇; rfl
  · have hc : c.toNat < 32 := h₈
    have hhigh := hexValue?_hexDigit (n := c.toNat / 16) (by omega)
    have hlow := hexValue?_hexDigit (n := c.toNat % 16) (by omega)
    have hzero : hexValue? '0' = some 0 := by decide
    simp only [List.cons_append, List.nil_append, codesOnto?, hzero, hhigh, hlow]
    congr 2
    omega
  · rw [List.singleton_append, codesOnto?, if_neg (not_or.mpr ⟨h₂, h₈⟩)]
    all_goals simp_all

theorem codesOnto?_flatMap_escapeChar (reversed : List Nat) (cs : List Char) :
    codesOnto? reversed (cs.flatMap escapeChar) =
      some (reversed.reverse ++ cs.map Char.toNat) := by
  induction cs generalizing reversed with
  | nil => simp [codesOnto?]
  | cons c cs ih => rw [List.flatMap_cons, codesOnto?_escapeChar, ih]; simp

theorem codes?_escape (s : String) : codes? (escape s) = some (s.toList.map Char.toNat) :=
  codesOnto?_flatMap_escapeChar [] s.toList

theorem isWellFormed_escape (s : String) : isWellFormed (escape s) := by
  rw [isWellFormed, codes?_escape]
  rfl

theorem joinOnto?_map_toNat (reversed cs : List Char) :
    joinOnto? reversed (cs.map Char.toNat) = some (reversed.reverse ++ cs) := by
  induction cs generalizing reversed with
  | nil => simp [joinOnto?]
  | cons c cs ih =>
    have hvalid : c.toNat < 0xD800 ∨ 0xDFFF < c.toNat ∧ c.toNat < 0x110000 := c.valid
    have hlow : isLowSurrogate c.toNat = false := by
      simp only [isLowSurrogate, Bool.and_eq_false_iff, decide_eq_false_iff_not]
      omega
    have hhigh : isHighSurrogate c.toNat = false := by
      simp only [isHighSurrogate, Bool.and_eq_false_iff, decide_eq_false_iff_not]
      omega
    rw [List.map_cons, joinOnto?.eq_def]
    simp only [hlow, hhigh, Bool.false_eq_true, if_false, Char.ofNat_toNat, ih, List.reverse_cons,
      List.append_assoc, List.singleton_append]

theorem textOf?_escape (s : String) : textOf? (escape s) = some s := by
  rw [textOf?, codes?_escape]
  simp [joinOnto?_map_toNat]

end WaveletRaster.Json
