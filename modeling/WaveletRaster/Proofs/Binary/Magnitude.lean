import Mathlib
import WaveletRaster.Arithmetic

/-! Bounds on sizes. Rounding does not pass a power of two, so bounds by powers of two go through
every operation, and a number stays finite as long as its bound does. -/

namespace WaveletRaster.Binary

theorem log2_le_of_le_two_pow {n k : Nat} (h : n ≤ 2 ^ k) : n.log2 ≤ k := by
  rcases Nat.eq_zero_or_pos n with rfl | hpos
  · simp
  · exact (Nat.pow_le_pow_iff_right (by decide)).mp (le_trans (Nat.log2_self_le hpos.ne') h)

theorem log2_eq_pred {n k : Nat} (hk : 0 < k) (hle : 2 ^ (k - 1) ≤ n) (hlt : n < 2 ^ k) :
    n.log2 = k - 1 := by
  have hn : n ≠ 0 := (lt_of_lt_of_le (Nat.two_pow_pos _) hle).ne'
  rw [Nat.log2_eq_iff hn, Nat.sub_add_cancel hk]
  exact ⟨hle, hlt⟩

theorem excessBits_le {p n k : Nat} (hp : 0 < p) (h : n ≤ 2 ^ k) : excessBits p n ≤ k := by
  have hlog := log2_le_of_le_two_pow h
  rw [excessBits]
  omega

theorem nearestEven_le_of_le_mul {num den k : Nat} (hden : 0 < den) (h : num ≤ k * den) :
    nearestEven num den ≤ k := by
  have hq : num / den ≤ k := Nat.div_le_of_le_mul (by rwa [Nat.mul_comm])
  rcases Nat.lt_or_eq_of_le hq with hlt | heq
  · have := nearestEven_le num den
    omega
  · have hmod := Nat.div_add_mod num den
    rw [heq, Nat.mul_comm] at hmod
    have hzero : num % den = 0 := by omega
    rw [nearestEven, heq, hzero, if_pos (by omega)]

theorem roundQuotient_le {p num den k : Nat} (hp : 0 < p) (hden : 0 < den) (h : num ≤ 2 ^ k * den) :
    roundQuotient p num den ≤ 2 ^ k := by
  have hs : excessBits p (num / den) ≤ k :=
    excessBits_le hp (Nat.div_le_of_le_mul (by rwa [Nat.mul_comm]))
  rw [roundQuotient]
  set s := excessBits p (num / den) with hsdef
  have hsplit : 2 ^ k = 2 ^ (k - s) * 2 ^ s := by
    rw [← Nat.pow_add, Nat.sub_add_cancel hs]
  have hnear : nearestEven num (den <<< s) ≤ 2 ^ (k - s) := by
    rw [Nat.shiftLeft_eq]
    refine nearestEven_le_of_le_mul (Nat.mul_pos hden (Nat.two_pow_pos s)) ?_
    calc num ≤ 2 ^ k * den := h
      _ = 2 ^ (k - s) * (den * 2 ^ s) := by rw [hsplit]; ring
  rw [Nat.shiftLeft_eq, hsplit]
  exact Nat.mul_le_mul_right _ hnear

theorem roundShift_le {p n j k : Nat} (hp : 0 < p) (h : n ≤ 2 ^ (j + k)) :
    roundShift p n j ≤ 2 ^ k := by
  rw [roundShift_eq hp, Nat.one_shiftLeft]
  exact roundQuotient_le hp (Nat.two_pow_pos j) (by rwa [← Nat.pow_add, Nat.add_comm k])

theorem le_roundShift {p n k : Nat} (hp : 0 < p) (h : 2 ^ k ≤ n) : 2 ^ k ≤ roundShift p n 0 := by
  have hn : n ≠ 0 := by
    rintro rfl
    exact absurd h (Nat.not_le.mpr (Nat.two_pow_pos k))
  have hk : k ≤ n.log2 := (Nat.le_log2 hn).mpr h
  have hs : excessBits p n ≤ n.log2 := by
    rw [excessBits]
    omega
  rw [roundShift_eq hp, Nat.one_shiftLeft, Nat.pow_zero, roundQuotient, Nat.div_one]
  set s := excessBits p n
  have hnear : 2 ^ (n.log2 - s) ≤ nearestEven n (1 <<< s) := by
    refine le_trans ?_ (le_nearestEven ..)
    rw [Nat.one_shiftLeft, Nat.le_div_iff_mul_le (Nat.two_pow_pos s), ← Nat.pow_add,
      Nat.sub_add_cancel hs]
    exact Nat.log2_self_le hn
  calc 2 ^ k ≤ 2 ^ n.log2 := Nat.pow_le_pow_right (by decide) hk
    _ = 2 ^ (n.log2 - s) * 2 ^ s := by rw [← Nat.pow_add, Nat.sub_add_cancel hs]
    _ ≤ nearestEven n (1 <<< s) <<< s := by
      rw [Nat.shiftLeft_eq]
      exact Nat.mul_le_mul_right _ hnear

/-- Up to half a step past the greatest number below a power of two, rounding stays below it. -/
theorem roundShift_lt {p n k : Nat} (hp : 0 < p) (hk : p < k) (h : n + 2 ^ (k - p - 1) < 2 ^ k) :
    roundShift p n 0 < 2 ^ k := by
  rcases Nat.lt_or_ge n (2 ^ (k - 1)) with hsmall | hlarge
  · refine lt_of_le_of_lt (roundShift_le hp (k := k - 1) (by simpa using hsmall.le)) ?_
    exact Nat.pow_lt_pow_right (by decide) (by omega)
  have hlog : n.log2 = k - 1 :=
    log2_eq_pred (by omega) hlarge (lt_of_le_of_lt (Nat.le_add_right _ _) h)
  have hs : excessBits p n = k - p := by
    rw [excessBits, hlog]
    omega
  have hstep : 2 ^ (k - p - 1) * 2 = 2 ^ (k - p) := Nat.two_pow_pred_mul_two (by omega)
  have htop : 2 ^ k = 2 ^ p * 2 ^ (k - p) := by
    rw [← Nat.pow_add, Nat.add_sub_cancel' (by omega)]
  have hnear : nearestEven n (2 ^ (k - p)) < 2 ^ p := by
    have hmod := Nat.div_add_mod n (2 ^ (k - p))
    have hlt := Nat.mod_lt n (Nat.two_pow_pos (k - p))
    have hq : n / 2 ^ (k - p) < 2 ^ p := by
      rw [Nat.div_lt_iff_lt_mul (Nat.two_pow_pos _), ← htop]
      omega
    rcases Nat.lt_or_ge (n / 2 ^ (k - p) + 1) (2 ^ p) with hbelow | hlast
    · exact lt_of_le_of_lt (nearestEven_le ..) hbelow
    · have hqeq : n / 2 ^ (k - p) + 1 = 2 ^ p := by omega
      have hsum : 2 ^ (k - p) * (n / 2 ^ (k - p)) + 2 ^ (k - p) = 2 ^ k := by
        rw [htop, ← hqeq]
        ring
      rw [nearestEven, if_pos (by omega)]
      exact hq
  rw [roundShift_eq hp, Nat.one_shiftLeft, Nat.pow_zero, roundQuotient, Nat.div_one, hs,
    Nat.one_shiftLeft, Nat.shiftLeft_eq, htop]
  exact Nat.mul_lt_mul_of_pos_right hnear (Nat.two_pow_pos _)

theorem roundShift_zero {p : Nat} (hp : 0 < p) (k : Nat) : roundShift p 0 k = 0 := by
  rw [roundShift_eq hp]
  simp [roundQuotient, nearestEven]

def signed (negative : Bool) (n : Nat) : ℤ := if negative then -n else n

theorem natAbs_signed (s : Bool) (n : Nat) : (signed s n).natAbs = n := by
  cases s <;> simp [signed]

theorem signed_not (s : Bool) (n : Nat) : signed (!s) n = -signed s n := by
  cases s <;> simp [signed]

variable {f g : Format}

theorem ofShift_zero (s : Bool) (k : Nat) : (ofShift s 0 k : Binary f) = zero s := by
  have hround := roundShift_zero f.precision_pos k
  have hlog : Nat.log2 0 < f.overflow := by
    rw [Nat.log2_zero, Format.overflow]
    omega
  simp only [ofShift, ofMagnitude, hround, dif_pos hlog]
  rfl

theorem exists_add_eq_ofShift (s t : Bool) {m n : Nat} (hm : f.Represents m) (hn : f.Represents n) :
    ∃ u k, (finite s m hm + finite t n hn : Binary f) = ofShift u k 0 ∧
      signed u k = signed s m + signed t n ∧ k ≤ m + n := by
  change ∃ u k, Binary.add _ _ = _ ∧ _
  simp only [Binary.add]
  split_ifs with hst hlt hgt
  · exact ⟨s, m + n, rfl, by subst hst; cases s <;> simp [signed]; omega, le_rfl⟩
  · exact ⟨t, n - m, rfl, by cases s <;> cases t <;> simp_all [signed] <;> omega, by omega⟩
  · exact ⟨s, m - n, rfl, by cases s <;> cases t <;> simp_all [signed] <;> omega, by omega⟩
  · obtain rfl : m = n := by omega
    refine ⟨false, 0, (ofShift_zero false 0).symm, ?_, Nat.zero_le _⟩
    cases s <;> cases t <;> simp_all [signed]

/-- The number is finite and its size at most `2 ^ k`. -/
inductive AtMost (k : Nat) : Binary f → Prop where
  | finite (negative : Bool) {m : Nat} {h : f.Represents m} (le : m ≤ 2 ^ (k + f.scale)) :
    AtMost k (.finite negative m h)

theorem AtMost.isFinite {x : Binary f} {k : Nat} (h : x.AtMost k) : x.isFinite := by
  cases h
  rfl

theorem AtMost.mono {x : Binary f} {j k : Nat} (h : x.AtMost j) (hk : j ≤ k) : x.AtMost k := by
  cases h with
  | finite s hm => exact .finite s (le_trans hm (Nat.pow_le_pow_right (by decide) (by omega)))

theorem AtMost.neg {x : Binary f} {k : Nat} (h : x.AtMost k) : (-x).AtMost k := by
  cases h with
  | finite s hm => exact .finite (!s) hm

theorem atMost_zero (s : Bool) (k : Nat) : (zero s : Binary f).AtMost k := .finite s (Nat.zero_le _)

theorem isFinite_ofMagnitude {s : Bool} {n : Nat} {h : 1 <<< excessBits f.precision n ∣ n}
    (hn : n < 2 ^ f.overflow) (hpos : 0 < f.overflow) : (ofMagnitude s n h).isFinite := by
  have hlog : n.log2 < f.overflow := by
    rcases Nat.eq_zero_or_pos n with rfl | hn'
    · simpa using hpos
    · exact (Nat.log2_lt hn'.ne').mpr hn
  rw [ofMagnitude, dif_pos hlog]
  rfl

theorem atMost_ofMagnitude {s : Bool} {n k : Nat} {h : 1 <<< excessBits f.precision n ∣ n}
    (hn : n ≤ 2 ^ (k + f.scale)) (hk : k ≤ f.maxExponent) : (ofMagnitude s n h).AtMost k := by
  have hlog : n.log2 < f.overflow := by
    have hle := log2_le_of_le_two_pow hn
    rw [Format.overflow]
    omega
  rw [ofMagnitude, dif_pos hlog]
  exact .finite s hn

theorem atMost_ofShift {s : Bool} {n j k : Nat} (hn : n ≤ 2 ^ (j + (k + f.scale)))
    (hk : k ≤ f.maxExponent) : (ofShift s n j : Binary f).AtMost k :=
  atMost_ofMagnitude (roundShift_le f.precision_pos hn) hk

theorem atMost_ofQuotient {s : Bool} {num den k : Nat} (hden : 0 < den)
    (h : num ≤ 2 ^ (k + f.scale) * den) (hk : k ≤ f.maxExponent) :
    (ofQuotient s num den : Binary f).AtMost k :=
  atMost_ofMagnitude (roundQuotient_le f.precision_pos hden h) hk

theorem atMost_ofNat {n k : Nat} (hn : n ≤ 2 ^ k) (hk : k ≤ f.maxExponent) :
    (ofNat n : Binary f).AtMost k := by
  refine atMost_ofShift ?_ hk
  rw [Nat.shiftLeft_eq, Nat.zero_add, Nat.pow_add]
  exact Nat.mul_le_mul_right _ hn

theorem AtMost.add {x y : Binary f} {k : Nat} (hx : x.AtMost k) (hy : y.AtMost k)
    (hk : k + 1 ≤ f.maxExponent) : (x + y).AtMost (k + 1) := by
  have hdouble : 2 ^ (0 + (k + 1 + f.scale)) = 2 * 2 ^ (k + f.scale) := by
    rw [← Nat.pow_succ']
    congr 1
    omega
  cases hx with
  | @finite s m hrm hm =>
    cases hy with
    | @finite t n hrn hn =>
      obtain ⟨u, j, hsum, -, hj⟩ := exists_add_eq_ofShift s t hrm hrn
      rw [hsum]
      exact atMost_ofShift (by omega) hk

theorem AtMost.sub {x y : Binary f} {k : Nat} (hx : x.AtMost k) (hy : y.AtMost k)
    (hk : k + 1 ≤ f.maxExponent) : (x - y).AtMost (k + 1) :=
  hx.add hy.neg hk

theorem AtMost.mul {x y : Binary f} {j k : Nat} (hx : x.AtMost j) (hy : y.AtMost k)
    (hk : j + k ≤ f.maxExponent) : (x * y).AtMost (j + k) := by
  cases hx with
  | @finite s m _ hm =>
    cases hy with
    | @finite t n _ hn =>
      refine atMost_ofShift ?_ hk
      calc m * n ≤ 2 ^ (j + f.scale) * 2 ^ (k + f.scale) := Nat.mul_le_mul hm hn
        _ = 2 ^ (f.scale + (j + k + f.scale)) := by
          rw [← Nat.pow_add]
          congr 1
          omega

theorem AtMost.div_ofNat {x : Binary f} {k n : Nat} (hx : x.AtMost k) (hn : 0 < n)
    (hk : k ≤ f.maxExponent) : (x / ofNat n).AtMost k := by
  have hsize : 2 ^ f.scale ≤ roundShift f.precision (n <<< f.scale) 0 := by
    refine le_roundShift f.precision_pos ?_
    rw [Nat.shiftLeft_eq]
    exact Nat.le_mul_of_pos_left _ hn
  cases hx with
  | finite s hm =>
    change (Binary.div _ _).AtMost k
    rw [ofNat, ofShift, ofMagnitude]
    split
    · have hpos : roundShift f.precision (n <<< f.scale) 0 ≠ 0 :=
        (lt_of_lt_of_le (Nat.two_pow_pos _) hsize).ne'
      simp only [Binary.div, if_neg hpos]
      refine atMost_ofQuotient (Nat.pos_of_ne_zero hpos) ?_ hk
      rw [Nat.shiftLeft_eq]
      exact Nat.mul_le_mul hm hsize
    · exact atMost_zero ..

theorem atMost_ratio {num den k : Nat} (hnum : num ≤ 2 ^ k) (hden : 0 < den)
    (hk : k ≤ f.maxExponent) : (Arithmetic.ratio num den : Binary f).AtMost k :=
  (atMost_ofNat hnum hk).div_ofNat hden hk

theorem atMost_convert {x : Binary f} (hx : x.isFinite) (hscale : f.scale ≤ g.scale)
    (hk : f.maxExponent + 1 ≤ g.maxExponent) :
    (x.convert : Binary g).AtMost (f.maxExponent + 1) := by
  cases x with
  | finite s m hm =>
    have hlt : m < 2 ^ (f.maxExponent + 1 + f.scale) := Nat.one_shiftLeft _ ▸ hm.2
    rw [convert, Nat.sub_eq_zero_of_le hscale]
    refine atMost_ofShift ?_ hk
    calc m <<< (g.scale - f.scale) = m * 2 ^ (g.scale - f.scale) := Nat.shiftLeft_eq ..
      _ ≤ 2 ^ (f.maxExponent + 1 + f.scale) * 2 ^ (g.scale - f.scale) :=
        Nat.mul_le_mul_right _ hlt.le
      _ = 2 ^ (0 + (f.maxExponent + 1 + g.scale)) := by
        rw [← Nat.pow_add]
        congr 1
        omega
  | _ => cases hx

theorem Format.Represents.add_le {m : Nat} (h : f.Represents m) (hp : f.precision < f.overflow) :
    m + 2 ^ (f.overflow - f.precision) ≤ 2 ^ f.overflow := by
  have hlt : m < 2 ^ f.overflow := Nat.one_shiftLeft _ ▸ h.2
  have hhalf : 2 ^ (f.overflow - 1) * 2 = 2 ^ f.overflow := Nat.two_pow_pred_mul_two (by omega)
  rcases Nat.lt_or_ge m (2 ^ (f.overflow - 1)) with hsmall | hlarge
  · have hpos := f.precision_pos
    have : 2 ^ (f.overflow - f.precision) ≤ 2 ^ (f.overflow - 1) :=
      Nat.pow_le_pow_right (by decide) (by omega)
    omega
  have hlog : m.log2 = f.overflow - 1 := log2_eq_pred (by omega) hlarge hlt
  have hs : excessBits f.precision m = f.overflow - f.precision := by
    rw [excessBits, hlog]
    omega
  -- a multiple of the step that is below the overflow, which is one too, is a whole step below it
  obtain ⟨c, rfl⟩ : 2 ^ (f.overflow - f.precision) ∣ m := by
    have := h.1
    rwa [hs, Nat.one_shiftLeft] at this
  have htop : 2 ^ f.overflow = 2 ^ (f.overflow - f.precision) * 2 ^ f.precision := by
    rw [← Nat.pow_add, Nat.sub_add_cancel hp.le]
  rw [htop] at hlt ⊢
  calc _ = 2 ^ (f.overflow - f.precision) * (c + 1) := by ring
    _ ≤ _ := Nat.mul_le_mul_left _ (Nat.lt_of_mul_lt_mul_left hlt)

/-- A number less than half a step at the overflow does not carry a finite number over it. -/
theorem isFinite_add {x y : Binary f} {k : Nat} (hx : x.isFinite) (hy : y.AtMost k)
    (hk : k + f.precision < f.maxExponent) : (x + y).isFinite := by
  have hp : f.precision < f.overflow := by
    rw [Format.overflow]
    omega
  have hstep : 2 ^ (f.overflow - f.precision - 1) * 2 = 2 ^ (f.overflow - f.precision) :=
    Nat.two_pow_pred_mul_two (by omega)
  cases x with
  | finite s m hm =>
    cases hy with
    | @finite t n hrn hn =>
      have hmle := hm.add_le hp
      have hnlt : n < 2 ^ (f.overflow - f.precision - 1) := by
        refine lt_of_le_of_lt hn (Nat.pow_lt_pow_right (by decide) ?_)
        rw [Format.overflow]
        omega
      obtain ⟨u, j, hsum, -, hj⟩ := exists_add_eq_ofShift s t hm hrn
      rw [hsum]
      exact isFinite_ofMagnitude (roundShift_lt f.precision_pos hp (by omega)) (by omega)
  | _ => cases hx

end WaveletRaster.Binary
