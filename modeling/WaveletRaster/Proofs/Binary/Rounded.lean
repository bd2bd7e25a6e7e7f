import WaveletRaster.Proofs.Binary.Nearest

/-! Results rounded once. Sums, differences, products and conversions are the number nearest to the
exact value. Of a product of two numbers of at most half the precision nothing is rounded away. -/

namespace WaveletRaster.Binary

variable {f g : Format}

/-- What the value `r` is rounded to: the number nearest to it, or an infinity where this number
reaches the overflow. Of an exact zero the sign is left open. -/
inductive Rounds (r : ℚ) : Binary f → Prop
  | finite {s : Bool} {n : ℕ} {h : f.Represents n}
    (near : IsNearest f.precision n (|r| * 2 ^ f.scale)) (sign : r ≠ 0 → s = decide (r < 0)) :
    Rounds r (.finite s n h)
  | infinity {s : Bool} {n : ℕ} (near : IsNearest f.precision n (|r| * 2 ^ f.scale))
    (large : 2 ^ f.overflow ≤ n) (sign : s = decide (r < 0)) : Rounds r (.infinity s)

theorem eq_decide_of_mul_eq_signed {r c : ℚ} {s : Bool} {n : ℕ} (hc : 0 < c)
    (hr : r * c = (signed s n : ℤ)) (hne : r ≠ 0) : s = decide (r < 0) := by
  cases s with
  | false =>
    have hnonneg : 0 ≤ r * c := by simp [hr, signed]
    exact (decide_eq_false ((mul_nonneg_iff_of_pos_right hc).mp hnonneg).not_gt).symm
  | true =>
    have hnonneg : 0 ≤ -r * c := by simp [neg_mul, hr, signed]
    have hle : r ≤ 0 := neg_nonneg.mp ((mul_nonneg_iff_of_pos_right hc).mp hnonneg)
    exact (decide_eq_true (lt_of_le_of_ne hle hne)).symm

theorem abs_mul_of_mul_eq_signed {r c : ℚ} {s : Bool} {n : ℕ} (hc : 0 < c)
    (hr : r * c = (signed s n : ℤ)) : |r| * c = n := by
  calc |r| * c = |r * c| := by rw [abs_mul, abs_of_pos hc]
    _ = ((signed s n).natAbs : ℚ) := by rw [hr, Nat.cast_natAbs, Int.cast_abs]
    _ = n := by rw [natAbs_signed]

theorem rounds_ofQuotient (hf : 1 < f.precision) {s : Bool} {num den : ℕ} (hden : 0 < den) {r : ℚ}
    (hr : r * (2 ^ f.scale * den) = (signed s num : ℤ)) :
    (ofQuotient s num den : Binary f).Rounds r := by
  have hpos : (0 : ℚ) < 2 ^ f.scale * den := by positivity
  have hsize : |r| * 2 ^ f.scale = num / den := by
    rw [eq_div_iff (by positivity), mul_assoc]
    exact abs_mul_of_mul_eq_signed hpos hr
  have hnear : IsNearest f.precision (roundQuotient f.precision num den) (|r| * 2 ^ f.scale) := by
    rw [hsize]
    exact isNearest_roundQuotient hf hden num
  unfold ofQuotient ofMagnitude
  split_ifs with hlog
  · exact .finite hnear (eq_decide_of_mul_eq_signed hpos hr)
  · have hn : roundQuotient f.precision num den ≠ 0 := by
      intro h
      rw [h, Nat.log2_zero, Format.overflow] at hlog
      omega
    refine .infinity hnear ((Nat.le_log2 hn).mp (not_lt.mp hlog))
      (eq_decide_of_mul_eq_signed hpos hr ?_)
    intro hr
    exact hn (hnear.eq_zero_of_abs_mul hr)

theorem ofShift_eq_ofQuotient (s : Bool) (n k : ℕ) :
    (ofShift s n k : Binary f) = ofQuotient s n (2 ^ k) := by
  simp only [ofShift, ofQuotient, roundShift_eq f.precision_pos, Nat.one_shiftLeft]

theorem rounds_ofShift (hf : 1 < f.precision) {s : Bool} {n k : ℕ} {r : ℚ}
    (hr : r * (2 ^ f.scale * 2 ^ k) = (signed s n : ℤ)) : (ofShift s n k : Binary f).Rounds r := by
  rw [ofShift_eq_ofQuotient]
  exact rounds_ofQuotient hf (Nat.two_pow_pos k) (by exact_mod_cast hr)

theorem toRat?_eq_some_iff {x : Binary f} {v : ℚ} :
    x.toRat? = some v ↔ ∃ s n h, x = .finite s n h ∧ v * 2 ^ f.scale = (signed s n : ℤ) := by
  have hpos : (2 : ℚ) ^ f.scale ≠ 0 := by positivity
  cases x with
  | finite s n h =>
    simp only [toRat?, units?, Option.map_some, Option.some.injEq]
    rw [div_eq_iff hpos]
    constructor
    · intro hv
      exact ⟨s, n, h, rfl, hv.symm⟩
    · rintro ⟨_, _, _, ⟨⟩, hv⟩
      exact hv.symm
  | _ => simp [toRat?, units?]

theorem isFinite_iff_toRat? {x : Binary f} : x.isFinite ↔ ∃ v, x.toRat? = some v := by
  cases x with
  | finite s m h => exact iff_of_true rfl ⟨_, rfl⟩
  | _ => simp [isFinite, toRat?, units?]

theorem toRat?_neg (x : Binary f) : (-x).toRat? = x.toRat?.map (-·) := by
  rw [toRat?, toRat?, units?_neg, Option.map_map, Option.map_map]
  congr 1
  funext i
  simp [neg_div]

theorem rounds_ofNat (hf : 1 < f.precision) (n : ℕ) : (ofNat n : Binary f).Rounds n := by
  apply rounds_ofShift hf
  rw [Nat.shiftLeft_eq]
  simp [signed]

section
variable {x y : Binary f} {v w : ℚ}

theorem rounds_add (hf : 1 < f.precision) (hx : x.toRat? = some v) (hy : y.toRat? = some w) :
    (x + y).Rounds (v + w) := by
  obtain ⟨s, m, hm, rfl, hv⟩ := toRat?_eq_some_iff.mp hx
  obtain ⟨t, n, hn, rfl, hw⟩ := toRat?_eq_some_iff.mp hy
  obtain ⟨u, k, hsum, hk, -⟩ := exists_add_eq_ofShift s t hm hn
  rw [hsum]
  apply rounds_ofShift hf
  rw [pow_zero, mul_one, add_mul, hv, hw, hk, Int.cast_add]

theorem rounds_sub (hf : 1 < f.precision) (hx : x.toRat? = some v) (hy : y.toRat? = some w) :
    (x - y).Rounds (v - w) := by
  have hneg : (-y).toRat? = some (-w) := by rw [toRat?_neg, hy, Option.map_some]
  show (x + -y).Rounds (v - w)
  rw [sub_eq_add_neg]
  exact rounds_add hf hx hneg

theorem rounds_mul (hf : 1 < f.precision) (hx : x.toRat? = some v) (hy : y.toRat? = some w) :
    (x * y).Rounds (v * w) := by
  obtain ⟨s, m, hm, rfl, hv⟩ := toRat?_eq_some_iff.mp hx
  obtain ⟨t, n, hn, rfl, hw⟩ := toRat?_eq_some_iff.mp hy
  show (ofShift (s != t) (m * n) f.scale).Rounds (v * w)
  apply rounds_ofShift hf
  rw [mul_mul_mul_comm, hv, hw, ← Int.cast_mul]
  cases s <;> cases t <;> simp [signed]

theorem rounds_convert (hg : 1 < g.precision) (hx : x.toRat? = some v) :
    (x.convert : Binary g).Rounds v := by
  obtain ⟨s, n, h, rfl, hv⟩ := toRat?_eq_some_iff.mp hx
  show (ofShift s (n <<< (g.scale - f.scale)) (f.scale - g.scale)).Rounds v
  apply rounds_ofShift hg
  have hsigned : signed s (n <<< (g.scale - f.scale)) = signed s n * 2 ^ (g.scale - f.scale) := by
    rw [Nat.shiftLeft_eq]
    cases s <;> simp [signed]
  rw [hsigned]
  push_cast
  rw [← hv, mul_assoc, ← pow_add, ← pow_add]
  congr 2
  omega

theorem Rounds.equals {r : ℚ} (hx : x.Rounds r) (hy : y.Rounds r) : x.equals y := by
  cases hx with
  | @finite s m hm near sign =>
    cases hy with
    | @finite t n hn near' sign' =>
      obtain rfl := near.unique f.precision_pos near'
      show (m == m && (s == t || m == 0)) = true
      rw [beq_self_eq_true, Bool.true_and, Bool.or_eq_true, beq_iff_eq, beq_iff_eq]
      by_cases hr : r = 0
      · exact .inr (near.eq_zero_of_abs_mul hr)
      · exact .inl ((sign hr).trans (sign' hr).symm)
    | infinity near' large =>
      rw [near'.unique f.precision_pos near] at large
      exact absurd (Format.represents_iff.mp hm).2 large.not_gt
  | infinity near large sign =>
    cases hy with
    | @finite _ _ hn near' =>
      rw [near.unique f.precision_pos near'] at large
      exact absurd (Format.represents_iff.mp hn).2 large.not_gt
    | infinity _ _ sign' =>
      rw [sign, sign']
      exact beq_self_eq_true _

theorem signed_eq_sign_mul {r : ℚ} {s : Bool} {n : ℕ} (sign : r ≠ 0 → s = decide (r < 0))
    (hzero : r = 0 → n = 0) : ((signed s n : ℤ) : ℚ) = SignType.sign r * n := by
  rcases lt_trichotomy r 0 with hneg | rfl | hpos
  · rw [sign hneg.ne, decide_eq_true hneg, sign_neg hneg]
    simp [signed]
  · rw [hzero rfl]
    simp [signed]
  · rw [sign hpos.ne', decide_eq_false hpos.not_gt, sign_pos hpos]
    simp [signed]

theorem Rounds.toRat?_eq {r : ℚ} (h : x.Rounds r) {m : ℕ} (hm : f.Represents m)
    (hr : |r| * 2 ^ f.scale = m) : x.toRat? = some r := by
  obtain ⟨hfits, hlt⟩ := Format.represents_iff.mp hm
  cases h with
  | @finite s n hn near sign =>
    have hzero : r = 0 → n = 0 := near.eq_zero_of_abs_mul
    rw [hr] at near
    obtain rfl := near.eq_of_fits hfits
    refine toRat?_eq_some_iff.mpr ⟨s, n, hn, rfl, ?_⟩
    rw [signed_eq_sign_mul sign hzero, ← hr, ← mul_assoc, sign_mul_abs]
  | infinity near large =>
    rw [hr] at near
    rw [near.eq_of_fits hfits] at large
    exact absurd hlt large.not_gt

theorem Rounds.exists_sign_eq {r : ℚ} (h : x.Rounds r) (hx : x.isFinite) {i : ℤ}
    (hi : r * 2 ^ f.scale = i) : ∃ d ∈ x.toRat?, SignType.sign d = SignType.sign r := by
  have hpos : (0 : ℚ) < 2 ^ f.scale := by positivity
  cases h with
  | @finite s n _ near sign =>
    refine ⟨(signed s n : ℤ) / 2 ^ f.scale, rfl, ?_⟩
    rw [signed_eq_sign_mul sign near.eq_zero_of_abs_mul]
    by_cases hr : r = 0
    · rw [hr, sign_zero, SignType.coe_zero, zero_mul, zero_div, sign_zero]
    have hne : i ≠ 0 := by
      rintro rfl
      exact mul_ne_zero hr hpos.ne' (hi.trans Int.cast_zero)
    have hsize : |r| * 2 ^ f.scale = |(i : ℚ)| := by rw [← hi, abs_mul, abs_of_pos hpos]
    have hone : (1 : ℚ) ≤ |r| * 2 ^ f.scale := by
      rw [hsize]
      exact_mod_cast Int.one_le_abs hne
    have hn : (0 : ℚ) < n := by exact_mod_cast near.pos f.precision_pos hone
    rw [mul_div_assoc, sign_mul, sign_pos (div_pos hn hpos), mul_one]
    cases SignType.sign r <;> simp
  | infinity => cases hx

end

theorem Format.Represents.widen {n : ℕ} (h : f.Represents n) (hp : f.precision ≤ g.precision)
    (hs : f.scale ≤ g.scale) (hk : f.maxExponent ≤ g.maxExponent) :
    g.Represents (n * 2 ^ (g.scale - f.scale)) := by
  obtain ⟨hfits, hlt⟩ := represents_iff.mp h
  refine represents_iff.mpr ⟨(hfits.mono hp).mul_two_pow _, ?_⟩
  calc n * 2 ^ (g.scale - f.scale) < 2 ^ f.overflow * 2 ^ (g.scale - f.scale) :=
        Nat.mul_lt_mul_of_pos_right hlt (Nat.two_pow_pos _)
    _ = 2 ^ (f.overflow + (g.scale - f.scale)) := (Nat.pow_add ..).symm
    _ ≤ 2 ^ g.overflow := by
      apply Nat.pow_le_pow_right (by decide)
      rw [overflow, overflow]
      omega

theorem Format.Represents.mul {m n : ℕ} (hm : f.Represents m) (hn : f.Represents n)
    (hp : f.precision + f.precision ≤ g.precision) (hs : f.scale + f.scale ≤ g.scale)
    (hk : f.maxExponent + f.maxExponent < g.maxExponent) :
    g.Represents (m * n * 2 ^ (g.scale - (f.scale + f.scale))) := by
  obtain ⟨hmfits, hmlt⟩ := represents_iff.mp hm
  obtain ⟨hnfits, hnlt⟩ := represents_iff.mp hn
  refine represents_iff.mpr ⟨((hmfits.mul hnfits).mono hp).mul_two_pow _, ?_⟩
  calc m * n * 2 ^ (g.scale - (f.scale + f.scale))
      < 2 ^ f.overflow * 2 ^ f.overflow * 2 ^ (g.scale - (f.scale + f.scale)) :=
        Nat.mul_lt_mul_of_pos_right (Nat.mul_lt_mul'' hmlt hnlt) (Nat.two_pow_pos _)
    _ = 2 ^ (f.overflow + f.overflow + (g.scale - (f.scale + f.scale))) := by
      rw [Nat.pow_add, Nat.pow_add]
    _ ≤ 2 ^ g.overflow := by
      apply Nat.pow_le_pow_right (by decide)
      rw [overflow, overflow]
      omega

section
variable {x y : Binary f} {v w : ℚ}

theorem toRat?_convert (hx : x.toRat? = some v) (hg : 1 < g.precision)
    (hp : f.precision ≤ g.precision) (hs : f.scale ≤ g.scale) (hk : f.maxExponent ≤ g.maxExponent) :
    (x.convert : Binary g).toRat? = some v := by
  obtain ⟨s, n, h, rfl, hv⟩ := toRat?_eq_some_iff.mp hx
  apply (rounds_convert hg hx).toRat?_eq (h.widen hp hs hk)
  have habs : |v| * 2 ^ f.scale = n := abs_mul_of_mul_eq_signed (by positivity) hv
  push_cast
  rw [← habs, mul_assoc, ← pow_add, Nat.add_sub_cancel' hs]

theorem toRat?_convert_mul_convert (hx : x.toRat? = some v) (hy : y.toRat? = some w)
    (hp : f.precision + f.precision ≤ g.precision) (hs : f.scale + f.scale ≤ g.scale)
    (hk : f.maxExponent + f.maxExponent < g.maxExponent) :
    (x.convert * y.convert : Binary g).toRat? = some (v * w) := by
  have hpos := f.precision_pos
  have hg : 1 < g.precision := by omega
  have hx' : (x.convert : Binary g).toRat? = some v :=
    toRat?_convert hx hg (by omega) (by omega) (by omega)
  have hy' : (y.convert : Binary g).toRat? = some w :=
    toRat?_convert hy hg (by omega) (by omega) (by omega)
  obtain ⟨s, m, hm, rfl, hv⟩ := toRat?_eq_some_iff.mp hx
  obtain ⟨t, n, hn, rfl, hw⟩ := toRat?_eq_some_iff.mp hy
  apply (rounds_mul hg hx' hy').toRat?_eq (hm.mul hn hp hs hk)
  have hm' : |v| * 2 ^ f.scale = m := abs_mul_of_mul_eq_signed (by positivity) hv
  have hn' : |w| * 2 ^ f.scale = n := abs_mul_of_mul_eq_signed (by positivity) hw
  have hsplit : g.scale = f.scale + f.scale + (g.scale - (f.scale + f.scale)) := by omega
  push_cast
  rw [← hm', ← hn', hsplit, pow_add, pow_add, abs_mul, ← hsplit]
  ring

theorem ofQuotient_of_represents (hf : 1 < f.precision) (s : Bool) {n num den : ℕ}
    (h : f.Represents n) (hden : 0 < den) (hnum : num = n * den) :
    (ofQuotient s num den : Binary f) = .finite s n h := by
  have hround : roundQuotient f.precision num den = n := by
    have hnear := isNearest_roundQuotient hf hden num
    have hquotient : (num : ℚ) / den = n := by
      rw [hnum, Nat.cast_mul, mul_div_cancel_right₀]
      exact_mod_cast hden.ne'
    rw [hquotient] at hnear
    exact hnear.eq_of_fits (Format.represents_iff.mp h).1
  simp only [ofQuotient, ofMagnitude, hround, dif_pos h.log2_lt]

theorem convert_convert (x : Binary f) (hf : 1 < f.precision) (hp : f.precision ≤ g.precision)
    (hs : f.scale ≤ g.scale) (hk : f.maxExponent ≤ g.maxExponent) :
    ((x.convert : Binary g).convert : Binary f) = x := by
  cases x with
  | finite s n h =>
    have hg : 1 < g.precision := by omega
    have hwide : n <<< (g.scale - f.scale) = n * 2 ^ (g.scale - f.scale) := Nat.shiftLeft_eq ..
    have hwiden : (finite s n h : Binary f).convert =
        (.finite s (n <<< (g.scale - f.scale)) (hwide ▸ h.widen hp hs hk) : Binary g) := by
      rw [convert, Nat.sub_eq_zero_of_le hs]
      exact ofShift_of_represents s _
    rw [hwiden, convert, Nat.sub_eq_zero_of_le hs, Nat.shiftLeft_zero, ofShift_eq_ofQuotient]
    exact ofQuotient_of_represents hf s h (Nat.two_pow_pos _) hwide
  | _ => rfl

theorem convert_zero (s : Bool) : ((zero s : Binary f).convert : Binary g) = zero s := by
  show ofShift s (0 <<< (g.scale - f.scale)) (f.scale - g.scale) = zero s
  rw [Nat.zero_shiftLeft, ofShift_zero]

theorem equals_self (h : x.isNaN = false) : x.equals x := by
  cases x with
  | nan => cases h
  | infinity s => exact beq_self_eq_true s
  | finite s m hm =>
    show (m == m && (s == s || m == 0)) = true
    simp

theorem equals_convert_add_zero (h : x.isNaN = false) (s : Bool) (hf : 1 < f.precision)
    (hp : f.precision ≤ g.precision) (hs : f.scale ≤ g.scale) (hk : f.maxExponent ≤ g.maxExponent) :
    ((x.convert + zero s : Binary g).convert : Binary f).equals x := by
  have hback : ((x.convert : Binary g).convert : Binary f) = x := convert_convert x hf hp hs hk
  cases s with
  | true =>
    have hadd : (x.convert + zero true : Binary g) = x.convert := add_neg_zero _
    rw [hadd, hback]
    exact equals_self h
  | false =>
    rcases add_zero_eq_or (x.convert : Binary g) with hadd | ⟨hx, hadd⟩
    · rw [hadd, hback]
      exact equals_self h
    · rw [hx, convert_zero] at hback
      rw [hadd, convert_zero, ← hback]
      rfl

end
end WaveletRaster.Binary
