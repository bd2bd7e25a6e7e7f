import Mathlib
import WaveletRaster.Proofs.Binary.Magnitude

/-! Exact results. A number that its format represents is rounded to itself. So whole numbers within
the precision are converted exactly, and a difference is exact between two numbers of which neither
is more than twice the other. -/

namespace WaveletRaster.Binary

theorem log2_mono {m n : Nat} (h : m ≤ n) : m.log2 ≤ n.log2 := by
  rcases Nat.eq_zero_or_pos m with rfl | hm
  · simp
  · exact (Nat.le_log2 (by omega)).mpr (le_trans (Nat.log2_self_le hm.ne') h)

theorem excessBits_mono {p m n : Nat} (h : m ≤ n) : excessBits p m ≤ excessBits p n := by
  have hlog := log2_mono h
  rw [excessBits, excessBits]
  omega

theorem excessBits_dvd_of_le {p m n k : Nat} (hmn : m ≤ n) (h : 1 <<< excessBits p n ∣ k) :
    1 <<< excessBits p m ∣ k := by
  rw [Nat.one_shiftLeft] at h ⊢
  exact dvd_trans (pow_dvd_pow 2 (excessBits_mono hmn)) h

theorem nearestEven_mul {q den : Nat} (hden : 0 < den) : nearestEven (q * den) den = q := by
  rw [nearestEven, Nat.mul_mod_left, Nat.mul_div_cancel _ hden, if_pos (by omega)]

theorem roundShift_eq_self {p n : Nat} (h : 1 <<< excessBits p n ∣ n) : roundShift p n 0 = n := by
  have hs : n.log2 + 1 - (p + 0) = excessBits p n := rfl
  have hpos : 0 < 1 <<< excessBits p n := by
    rw [Nat.one_shiftLeft]
    exact Nat.two_pow_pos _
  obtain ⟨q, hq⟩ := exists_eq_mul_left_of_dvd h
  rw [roundShift, hs, Nat.zero_add, nearestEvenShift_eq]
  nth_rewrite 1 [hq]
  rw [nearestEven_mul hpos, Nat.shiftLeft_eq, ← Nat.one_shiftLeft, ← hq]

variable {f : Format}

theorem Format.Represents.sub {m n : Nat} (hm : f.Represents m) (hn : f.Represents n)
    (hdouble : m ≤ 2 * n) : f.Represents (m - n) :=
  ⟨Nat.dvd_sub (excessBits_dvd_of_le (Nat.sub_le m n) hm.1)
    (excessBits_dvd_of_le (by omega) hn.1), lt_of_le_of_lt (Nat.sub_le m n) hm.2⟩

theorem Format.represents_ofNat {n : Nat} (hn : n ≤ 2 ^ f.precision)
    (hf : f.precision ≤ f.maxExponent) : f.Represents (n <<< f.scale) := by
  refine ⟨shiftLeft_excessBits_dvd f.precision_pos (Nat.one_shiftLeft _ ▸ hn), ?_⟩
  rw [Nat.shiftLeft_eq, Nat.one_shiftLeft, overflow, Nat.pow_add]
  refine Nat.mul_lt_mul_of_pos_right (lt_of_le_of_lt hn ?_) (Nat.two_pow_pos _)
  exact Nat.pow_lt_pow_right (by decide) (by omega)

theorem Format.Represents.log2_lt {n : Nat} (h : f.Represents n) : n.log2 < f.overflow := by
  rcases Nat.eq_zero_or_pos n with rfl | hn
  · rw [Nat.log2_zero, Format.overflow]
    omega
  · exact (Nat.log2_lt hn.ne').mpr (Nat.one_shiftLeft _ ▸ h.2)

theorem ofShift_of_represents (s : Bool) {n : Nat} (h : f.Represents n) :
    (ofShift s n 0 : Binary f) = .finite s n h := by
  have hround : roundShift f.precision n 0 = n := roundShift_eq_self h.1
  simp only [ofShift, ofMagnitude, hround, dif_pos h.log2_lt]

theorem ofNat_of_le {n : Nat} (hn : n ≤ 2 ^ f.precision) (hf : f.precision ≤ f.maxExponent) :
    (ofNat n : Binary f) = .finite false (n <<< f.scale) (Format.represents_ofNat hn hf) :=
  ofShift_of_represents false _

theorem add_neg_zero (x : Binary f) : x + -zero false = x := by
  cases x with
  | finite s m hm =>
    change Binary.add _ (finite true 0 _) = _
    simp only [Binary.add]
    split_ifs with hs hlt hpos
    · simp only [Nat.add_zero, ofShift_of_represents s hm]
    · omega
    · simp only [Nat.sub_zero, ofShift_of_represents s hm]
    · obtain rfl : m = 0 := by omega
      obtain rfl : s = false := Bool.eq_false_iff.mpr hs
      rfl
  | _ => rfl

theorem add_zero_eq_or (x : Binary f) :
    x + zero false = x ∨ x = zero true ∧ x + zero false = zero false := by
  cases x with
  | finite s m hm =>
    show Binary.add _ (finite false 0 _) = _ ∨ _ ∧ Binary.add _ (finite false 0 _) = _
    simp only [Binary.add]
    split_ifs with hs hlt hpos
    · left
      simp only [Nat.add_zero, ofShift_of_represents s hm]
    · omega
    · left
      simp only [Nat.sub_zero, ofShift_of_represents s hm]
    · obtain rfl : m = 0 := by omega
      obtain rfl : s = true := Bool.eq_true_of_not_eq_false hs
      exact .inr ⟨rfl, rfl⟩
  | _ => exact .inl rfl

theorem add_neg_ofNat_zero (x : Binary f) : x + -ofNat 0 = x := by
  rw [ofNat, Nat.zero_shiftLeft, ofShift_zero, add_neg_zero]

/-- How many least positive numbers of its format a finite number is. -/
def units? : Binary f → Option ℤ
  | .finite s m _ => some (signed s m)
  | _ => none

def toRat? (x : Binary f) : Option ℚ := x.units?.map fun i : ℤ => (i : ℚ) / 2 ^ f.scale

theorem represents_of_units? {x : Binary f} {i : ℤ} (hx : x.units? = some i) :
    f.Represents i.natAbs := by
  cases x with
  | finite s m hm =>
    obtain rfl := Option.some.inj hx
    rwa [natAbs_signed]
  | _ => cases hx

theorem units?_neg (x : Binary f) : (-x).units? = x.units?.map (-·) := by
  cases x with
  | finite s m hm => exact congrArg some (signed_not s m)
  | _ => rfl

theorem units?_ofNat {n : Nat} (hn : n ≤ 2 ^ f.precision) (hf : f.precision ≤ f.maxExponent) :
    (ofNat n : Binary f).units? = some (n * 2 ^ f.scale : ℕ) := by
  rw [ofNat_of_le hn hf, ← Nat.shiftLeft_eq]
  rfl

theorem units?_add {x y : Binary f} {i j : ℤ} (hx : x.units? = some i) (hy : y.units? = some j)
    (h : f.Represents (i + j).natAbs) : (x + y).units? = some (i + j) := by
  cases x with
  | finite s m hm =>
    cases y with
    | finite t n hn =>
      obtain rfl := Option.some.inj hx
      obtain rfl := Option.some.inj hy
      obtain ⟨u, k, hsum, hk, -⟩ := exists_add_eq_ofShift s t hm hn
      rw [← hk, natAbs_signed] at h
      rw [hsum, ofShift_of_represents u h, ← hk]
      rfl
    | _ => cases hy
  | _ => cases hx

/-- From `n` to `2 * n` the difference to `n` is not rounded. -/
theorem units?_add_neg_ofNat {x : Binary f} {i : ℤ} {n : Nat} (hn : n ≤ 2 ^ f.precision)
    (hf : f.precision ≤ f.maxExponent) (hx : x.units? = some i)
    (hle : (n * 2 ^ f.scale : ℕ) ≤ i) (hge : i ≤ (2 * (n * 2 ^ f.scale) : ℕ)) :
    (x + -ofNat n).units? = some (i - (n * 2 ^ f.scale : ℕ)) := by
  have hneg : (-ofNat n : Binary f).units? = some (-((n * 2 ^ f.scale : ℕ) : ℤ)) := by
    rw [units?_neg, units?_ofNat hn hf]
    rfl
  have hnat : (i + -((n * 2 ^ f.scale : ℕ) : ℤ)).natAbs = i.natAbs - n <<< f.scale := by
    rw [Nat.shiftLeft_eq]
    omega
  refine units?_add hx hneg ?_
  rw [hnat]
  refine (represents_of_units? hx).sub (Format.represents_ofNat hn hf) ?_
  rw [Nat.shiftLeft_eq]
  omega

theorem toRat?_add_neg_ofNat {x : Binary f} {v : ℚ} {n : Nat} (hn : n ≤ 2 ^ f.precision)
    (hf : f.precision ≤ f.maxExponent) (hx : x.toRat? = some v) (hle : n ≤ v) (hge : v ≤ 2 * n) :
    (x + -ofNat n).toRat? = some (v - n) := by
  obtain ⟨i, hi, rfl⟩ := Option.map_eq_some_iff.mp hx
  have hpos : (0 : ℚ) < 2 ^ f.scale := by positivity
  rw [le_div_iff₀ hpos] at hle
  rw [div_le_iff₀ hpos, mul_assoc] at hge
  rw [toRat?, units?_add_neg_ofNat hn hf hi (by exact_mod_cast hle) (by exact_mod_cast hge),
    Option.map_some, Int.cast_sub, sub_div]
  congr 2
  rw [div_eq_iff hpos.ne']
  exact_mod_cast rfl

end WaveletRaster.Binary
