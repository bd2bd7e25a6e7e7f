import Mathlib
import WaveletRaster.Proofs.Binary.Exact

/-! Rounding to nearest. Of all numbers with as many significant bits as the format has, the rounded
quotient is the one closest to the exact quotient, and half-way between two of them the one whose
significand is even. -/

namespace WaveletRaster.Binary

def Fits (p n : ℕ) : Prop := ∃ c s, c < 2 ^ p ∧ n = c * 2 ^ s

theorem exists_significand_of_dvd {p n : ℕ} (h : 1 <<< excessBits p n ∣ n) :
    ∃ c < 2 ^ p, n = c * 2 ^ excessBits p n := by
  obtain ⟨c, hc⟩ := h
  rw [Nat.one_shiftLeft] at hc
  have hlt := lt_shiftLeft_excessBits p n
  rw [Nat.one_shiftLeft, Nat.pow_add] at hlt
  have hn : n = c * 2 ^ excessBits p n := by rwa [mul_comm]
  refine ⟨c, ?_, hn⟩
  apply lt_of_mul_lt_mul_right _ (Nat.zero_le (2 ^ excessBits p n))
  rwa [← hn]

theorem fits_iff_dvd {p : ℕ} (hp : 0 < p) {n : ℕ} : Fits p n ↔ 1 <<< excessBits p n ∣ n := by
  constructor
  · rintro ⟨c, s, hc, rfl⟩
    rw [← Nat.shiftLeft_eq]
    exact shiftLeft_excessBits_dvd hp (Nat.one_shiftLeft p ▸ hc.le)
  · intro h
    obtain ⟨c, hc, hn⟩ := exists_significand_of_dvd h
    exact ⟨c, excessBits p n, hc, hn⟩

theorem Format.represents_iff {f : Format} {n : ℕ} :
    f.Represents n ↔ Fits f.precision n ∧ n < 2 ^ f.overflow := by
  rw [fits_iff_dvd f.precision_pos, ← Nat.one_shiftLeft]
  rfl

theorem fits_zero (p : ℕ) : Fits p 0 := ⟨0, 0, Nat.two_pow_pos p, rfl⟩

namespace Fits
variable {p q m n : ℕ}

theorem mono (h : Fits p n) (hpq : p ≤ q) : Fits q n := by
  obtain ⟨c, s, hc, rfl⟩ := h
  exact ⟨c, s, hc.trans_le (Nat.pow_le_pow_right (by decide) hpq), rfl⟩

theorem mul (hm : Fits p m) (hn : Fits q n) : Fits (p + q) (m * n) := by
  obtain ⟨c, s, hc, rfl⟩ := hm
  obtain ⟨d, t, hd, rfl⟩ := hn
  refine ⟨c * d, s + t, ?_, by ring⟩
  rw [Nat.pow_add]
  exact Nat.mul_lt_mul'' hc hd

theorem mul_two_pow (h : Fits p n) (k : ℕ) : Fits p (n * 2 ^ k) := by
  obtain ⟨c, s, hc, rfl⟩ := h
  exact ⟨c, s + k, hc, by ring⟩

end Fits

/-- `n` is the number with at most `p` significant bits that is nearest to `t`, ties to even. -/
structure IsNearest (p n : ℕ) (t : ℚ) : Prop where
  fits : Fits p n
  le : ∀ k, Fits p k → |(n : ℚ) - t| ≤ |(k : ℚ) - t|
  even : ∀ k, Fits p k → k ≠ n → |(k : ℚ) - t| = |(n : ℚ) - t| → Even (n >>> excessBits p n)

theorem IsNearest.eq_of_fits {p n m : ℕ} (h : IsNearest p n m) (hm : Fits p m) : n = m := by
  have hle := h.le m hm
  rw [sub_self, abs_zero, abs_nonpos_iff, sub_eq_zero] at hle
  exact_mod_cast hle

theorem IsNearest.eq_zero {p n : ℕ} (h : IsNearest p n 0) : n = 0 :=
  eq_of_fits (m := 0) (by exact_mod_cast h) (fits_zero p)

theorem IsNearest.eq_zero_of_abs_mul {p n : ℕ} {r c : ℚ} (h : IsNearest p n (|r| * c))
    (hr : r = 0) : n = 0 := by
  rw [hr, abs_zero, zero_mul] at h
  exact h.eq_zero

theorem IsNearest.pos {p n : ℕ} {t : ℚ} (h : IsNearest p n t) (hp : 0 < p) (ht : 1 ≤ t) :
    0 < n := by
  rw [Nat.pos_iff_ne_zero]
  rintro rfl
  have hle := h.le 1 ⟨1, 0, Nat.one_lt_two_pow hp.ne', rfl⟩
  rw [Nat.cast_zero, Nat.cast_one, zero_sub, abs_neg, abs_of_nonneg (by linarith),
    abs_of_nonpos (by linarith)] at hle
  linarith

section
variable {num den : ℕ}

theorem mul_le_or_add_le (num den k : ℕ) :
    k * den ≤ num / den * den ∨ num / den * den + den ≤ k * den := by
  rcases Nat.lt_or_ge (num / den) k with h | h
  · right
    rw [← Nat.succ_mul]
    exact Nat.mul_le_mul_right den h
  · exact .inl (Nat.mul_le_mul_right den h)

theorem nearestEven_mul_cases (num den : ℕ) :
    nearestEven num den * den = num / den * den ∧ 2 * (num % den) ≤ den ∨
      nearestEven num den * den = num / den * den + den ∧ den ≤ 2 * (num % den) := by
  unfold nearestEven
  rcases Nat.mod_two_eq_zero_or_one (num / den) with h | h
  · grind
  · grind

theorem nearestEven_dist_le (hden : 0 < den) (num k : ℕ) :
    (nearestEven num den * den - num : ℤ).natAbs ≤ (k * den - num : ℤ).natAbs := by
  have hsplit := Nat.div_add_mod' num den
  have hlt := Nat.mod_lt num hden
  have hk := mul_le_or_add_le num den k
  have hc := nearestEven_mul_cases num den
  rw [← Nat.cast_mul, ← Nat.cast_mul]
  omega

theorem even_nearestEven (hden : 0 < den) {k : ℕ} (hne : k ≠ nearestEven num den)
    (htie : (k * den - num : ℤ).natAbs = (nearestEven num den * den - num : ℤ).natAbs) :
    Even (nearestEven num den) := by
  have hsplit := Nat.div_add_mod' num den
  have hlt := Nat.mod_lt num hden
  have hk := mul_le_or_add_le num den k
  have hc := nearestEven_mul_cases num den
  have hmul : k * den ≠ nearestEven num den * den := fun h =>
    hne (Nat.eq_of_mul_eq_mul_right hden h)
  rw [← Nat.cast_mul, ← Nat.cast_mul] at htie
  have hhalf : 2 * (num % den) = den := by omega
  rw [nearestEven, if_neg (by omega), if_neg (by omega), Nat.even_iff]
  omega

theorem abs_sub_div (hden : 0 < den) (k num : ℕ) :
    |(k : ℚ) - num / den| = ((k * den - num : ℤ).natAbs : ℚ) / den := by
  have hpos : (0 : ℚ) < den := by exact_mod_cast hden
  have hsub : (k : ℚ) - num / den = (k * den - num) / den := by
    rw [sub_div, mul_div_cancel_right₀ _ hpos.ne']
  rw [hsub, abs_div, abs_of_pos hpos, Nat.cast_natAbs]
  push_cast
  rfl

theorem nearestEven_grid_le {g : ℕ} (hden : 0 < den) (hg : 0 < g) (num k : ℕ) :
    |((nearestEven num (den * g) * g : ℕ) : ℚ) - num / den| ≤ |((k * g : ℕ) : ℚ) - num / den| := by
  have hle := nearestEven_dist_le (Nat.mul_pos hden hg) num k
  rw [abs_sub_div hden, abs_sub_div hden]
  push_cast at hle ⊢
  rw [mul_assoc, mul_assoc, mul_comm (g : ℤ)]
  gcongr

theorem even_of_grid_tie {g k : ℕ} (hden : 0 < den) (hg : 0 < g)
    (hne : k ≠ nearestEven num (den * g)) (htie : |((k * g : ℕ) : ℚ) - num / den| =
      |((nearestEven num (den * g) * g : ℕ) : ℚ) - num / den|) :
    Even (nearestEven num (den * g)) := by
  have hpos : (den : ℚ) ≠ 0 := by exact_mod_cast hden.ne'
  apply even_nearestEven (Nat.mul_pos hden hg) hne
  rw [abs_sub_div hden, abs_sub_div hden, div_left_inj' hpos, Nat.cast_inj] at htie
  push_cast at htie ⊢
  rwa [mul_assoc, mul_assoc, mul_comm (g : ℤ)] at htie

theorem excessBits_mul_two_pow_le {p c : ℕ} (s : ℕ) (hp : 0 < p) (hc : c < 2 ^ p) :
    excessBits p (c * 2 ^ s) ≤ s := by
  rcases Nat.eq_zero_or_pos c with rfl | hpos
  · rw [Nat.zero_mul, excessBits, Nat.log2_zero]
    omega
  have hlog : (c * 2 ^ s).log2 < p + s := by
    rw [Nat.log2_lt (Nat.mul_pos hpos (Nat.two_pow_pos s)).ne', Nat.pow_add]
    exact Nat.mul_lt_mul_of_pos_right hc (Nat.two_pow_pos s)
  unfold excessBits
  omega

theorem even_significand {p c : ℕ} (s : ℕ) (hp : 1 < p) (hc : c ≤ 2 ^ p) (heven : Even c) :
    Even ((c * 2 ^ s) >>> excessBits p (c * 2 ^ s)) := by
  rw [Nat.shiftRight_eq_div_pow]
  rcases Nat.lt_or_eq_of_le hc with hlt | rfl
  · rw [Nat.mul_div_assoc c (Nat.pow_dvd_pow 2 (excessBits_mul_two_pow_le s (by omega) hlt))]
    exact heven.mul_right _
  -- the carry into the next power of two leaves a significand that is a power of two itself
  · have hs : excessBits p (2 ^ p * 2 ^ s) = s + 1 := by
      rw [← Nat.pow_add, excessBits, Nat.log2_two_pow]
      omega
    rw [hs, ← Nat.pow_add, Nat.pow_div (by omega) (by decide)]
    exact Nat.even_pow.mpr ⟨even_two, by omega⟩

theorem two_pow_le_of_excessBits_pos {p n : ℕ} (hp : 0 < p) (h : 0 < excessBits p n) :
    2 ^ (p - 1) * 2 ^ excessBits p n ≤ n := by
  unfold excessBits at h ⊢
  have hn : n ≠ 0 := by
    rintro rfl
    rw [Nat.log2_zero] at h
    omega
  rw [← Nat.pow_add, ← Nat.le_log2 hn]
  omega

/-- A number off the grid lies below a power of two that is on the grid and that the quotient
reaches, and so this one is nearer. -/
theorem exists_on_grid_or_lt {p k : ℕ} (hp : 0 < p) (hk : Fits p k) (num den : ℕ) :
    (∃ j, k = j * 2 ^ excessBits p (num / den)) ∨
      ∃ j, |((j * 2 ^ excessBits p (num / den) : ℕ) : ℚ) - num / den| < |(k : ℚ) - num / den| := by
  set s := excessBits p (num / den)
  obtain ⟨c, e, hc, rfl⟩ := hk
  rcases Nat.lt_or_ge e s with hes | hes
  · right
    refine ⟨2 ^ (p - 1), ?_⟩
    have hreach : 2 ^ (p - 1) * 2 ^ s ≤ num / den :=
      two_pow_le_of_excessBits_pos hp (pos_of_gt hes)
    have hbelow : c * 2 ^ e < 2 ^ (p - 1) * 2 ^ s := by
      calc c * 2 ^ e < 2 ^ p * 2 ^ e := Nat.mul_lt_mul_of_pos_right hc (Nat.two_pow_pos e)
        _ = 2 ^ (p + e) := (Nat.pow_add ..).symm
        _ ≤ 2 ^ (p - 1 + s) := Nat.pow_le_pow_right (by decide) (by omega)
        _ = 2 ^ (p - 1) * 2 ^ s := Nat.pow_add ..
    have hquotient : ((2 ^ (p - 1) * 2 ^ s : ℕ) : ℚ) ≤ num / den := by
      apply le_trans _ Nat.cast_div_le
      exact_mod_cast hreach
    have hlt : ((c * 2 ^ e : ℕ) : ℚ) < (2 ^ (p - 1) * 2 ^ s : ℕ) := by exact_mod_cast hbelow
    rw [abs_of_nonpos (by linarith), abs_of_nonpos (by linarith)]
    linarith
  · left
    refine ⟨c * 2 ^ (e - s), ?_⟩
    rw [mul_assoc, ← Nat.pow_add, Nat.sub_add_cancel hes]

theorem isNearest_roundQuotient {p : ℕ} (hp : 1 < p) (hden : 0 < den) (num : ℕ) :
    IsNearest p (roundQuotient p num den) (num / den) := by
  have hp' : 0 < p := by omega
  set s := excessBits p (num / den) with hs
  have hround : roundQuotient p num den = nearestEven num (den * 2 ^ s) * 2 ^ s := by
    rw [roundQuotient, Nat.shiftLeft_eq, Nat.shiftLeft_eq]
  have hgrid := Nat.two_pow_pos s
  rw [hround]
  refine ⟨?_, ?_, ?_⟩
  · rw [fits_iff_dvd hp', ← hround]
    exact excessBits_roundQuotient_dvd hp' num den
  · intro k hk
    rcases exists_on_grid_or_lt hp' hk num den with ⟨j, rfl⟩ | ⟨j, hlt⟩
    · exact nearestEven_grid_le hden hgrid num j
    · exact (nearestEven_grid_le hden hgrid num j).trans hlt.le
  · intro k hk hne htie
    rcases exists_on_grid_or_lt hp' hk num den with ⟨j, rfl⟩ | ⟨j, hlt⟩
    · apply even_significand s hp
      · have hle := nearestEven_le num (den * 2 ^ s)
        have hlt := div_shift_lt p num den
        rw [Nat.one_shiftLeft, Nat.shiftLeft_eq, ← hs] at hlt
        omega
      · apply even_of_grid_tie hden hgrid _ htie
        rintro rfl
        exact hne rfl
    · exact absurd htie ((nearestEven_grid_le hden hgrid num j).trans_lt hlt).ne'

end

section
variable {p m n : ℕ} {t : ℚ}

theorem Fits.exists_significand (hp : 0 < p) (h : Fits p n) :
    ∃ c < 2 ^ p, n = c * 2 ^ excessBits p n :=
  exists_significand_of_dvd ((fits_iff_dvd hp).mp h)

theorem Fits.add_step (hp : 0 < p) (h : Fits p n) : Fits p (n + 2 ^ excessBits p n) := by
  obtain ⟨c, hc, hn⟩ := h.exists_significand hp
  have hnext : n + 2 ^ excessBits p n = (c + 1) * 2 ^ excessBits p n := by rw [add_one_mul, ← hn]
  rw [hnext]
  rcases Nat.lt_or_eq_of_le (Nat.succ_le_of_lt hc) with hlt | heq
  · exact ⟨c + 1, _, hlt, rfl⟩
  · rw [show c + 1 = 2 ^ p from heq]
    exact ⟨1, p + excessBits p n, Nat.one_lt_two_pow hp.ne', by rw [one_mul, Nat.pow_add]⟩

theorem Fits.add_step_le (hp : 0 < p) (hn : Fits p n) (hm : Fits p m) (hlt : n < m) :
    n + 2 ^ excessBits p n ≤ m := by
  have hdvd : 2 ^ excessBits p n ∣ m - n := by
    rw [← Nat.one_shiftLeft]
    exact Nat.dvd_sub (excessBits_dvd_of_le hlt.le ((fits_iff_dvd hp).mp hm))
      ((fits_iff_dvd hp).mp hn)
  have hle := Nat.le_of_dvd (Nat.sub_pos_of_lt hlt) hdvd
  omega

theorem Fits.not_even_add_step (hp : 0 < p) (h : Fits p n) (heven : Even (n >>> excessBits p n)) :
    ¬ Even ((n + 2 ^ excessBits p n) >>> excessBits p (n + 2 ^ excessBits p n)) := by
  obtain ⟨c, hc, hn⟩ := h.exists_significand hp
  set s := excessBits p n with hs
  have hceven : Even c := by
    rwa [hn, Nat.shiftRight_eq_div_pow, Nat.mul_div_cancel _ (Nat.two_pow_pos s)] at heven
  have hodd : ¬ Even (c + 1) := Nat.not_even_iff_odd.mpr hceven.add_one
  have hlt : c + 1 < 2 ^ p := by
    apply lt_of_le_of_ne hc
    intro heq
    exact hodd (heq ▸ Nat.even_pow.mpr ⟨even_two, hp.ne'⟩)
  have hnext : n + 2 ^ s = (c + 1) * 2 ^ s := by rw [add_one_mul, ← hn]
  have hexcess : excessBits p (n + 2 ^ s) = s := by
    apply Nat.le_antisymm
    · rw [hnext]
      exact excessBits_mul_two_pow_le s hp hlt
    · exact excessBits_mono (Nat.le_add_right n (2 ^ s))
  rwa [hexcess, hnext, Nat.shiftRight_eq_div_pow, Nat.mul_div_cancel _ (Nat.two_pow_pos s)]

theorem IsNearest.not_lt (hp : 0 < p) (hn : IsNearest p n t) (hm : IsNearest p m t) : ¬ n < m := by
  intro hlt
  have hcast : (n : ℚ) < m := by exact_mod_cast hlt
  have htie : |(n : ℚ) - t| = |(m : ℚ) - t| := le_antisymm (hn.le m hm.fits) (hm.le n hn.fits)
  have hhalf : (m : ℚ) - t = t - n := by
    rcases abs_eq_abs.mp htie with h | h
    · linarith
    · linarith
  have hstep : n + 2 ^ excessBits p n = m := by
    apply (hn.fits.add_step_le hp hm.fits hlt).eq_of_not_lt
    intro hbetween
    have hle := hn.le _ (hn.fits.add_step hp)
    have hup : ((n + 2 ^ excessBits p n : ℕ) : ℚ) < m := by exact_mod_cast hbetween
    have hlow : (n : ℚ) < (n + 2 ^ excessBits p n : ℕ) := by
      exact_mod_cast Nat.lt_add_of_pos_right (Nat.two_pow_pos _)
    rw [abs_sub_comm (n : ℚ), abs_of_pos (by linarith)] at hle
    exact absurd (abs_lt.mpr ⟨by linarith, by linarith⟩) hle.not_gt
  have heven := hm.even n hn.fits hlt.ne htie
  rw [← hstep] at heven
  exact hn.fits.not_even_add_step hp (hn.even m hm.fits hlt.ne' htie.symm) heven

theorem IsNearest.unique (hp : 0 < p) (hn : IsNearest p n t) (hm : IsNearest p m t) : n = m :=
  Nat.le_antisymm (Nat.not_lt.mp (hm.not_lt hp hn)) (Nat.not_lt.mp (hn.not_lt hp hm))

end

end WaveletRaster.Binary
