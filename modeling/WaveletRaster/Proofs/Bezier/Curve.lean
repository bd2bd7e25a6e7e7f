import Mathlib
import WaveletRaster.Edge.Basic
import WaveletRaster.Proofs.Bezier.UnitIntegral

/-! Bézier polynomials and the curves that edges draw. The integral of one Bézier polynomial against
the derivative of another is a bilinear form in the control values, with binomial weights. -/

namespace WaveletRaster
open Polynomial Finset

/-- The Bézier polynomial of degree `n` with the control values `c 0`, …, `c n`. -/
noncomputable def bezier (n : ℕ) (c : ℕ → ℚ) : ℚ[X] :=
  ∑ i ∈ range (n + 1), C (c i) * bernsteinPolynomial ℚ n i

theorem eval_zero_bezier (n : ℕ) (c : ℕ → ℚ) : (bezier n c).eval 0 = c 0 := by
  simp [bezier, eval_finsetSum, bernsteinPolynomial.eval_at_0]

theorem eval_one_bezier (n : ℕ) (c : ℕ → ℚ) : (bezier n c).eval 1 = c n := by
  simp [bezier, eval_finsetSum, bernsteinPolynomial.eval_at_1]

theorem bezier_congr {n : ℕ} {a b : ℕ → ℚ} (h : ∀ i ≤ n, a i = b i) : bezier n a = bezier n b :=
  sum_congr rfl fun i hi => by rw [h i (by simpa [Nat.lt_succ_iff] using hi)]

theorem bezier_add_const (n : ℕ) (c : ℕ → ℚ) (v : ℚ) :
    bezier n (fun i => c i + v) = bezier n c + C v := by
  simp only [bezier, C_add, add_mul, sum_add_distrib, ← mul_sum, bernsteinPolynomial.sum, mul_one]

theorem bezier_const (n : ℕ) (v : ℚ) : bezier n (fun _ => v) = C v := by
  rw [bezier, ← mul_sum, bernsteinPolynomial.sum, mul_one]

theorem bezier_mix (n : ℕ) (s t : ℚ) (a b : ℕ → ℚ) :
    bezier n (fun i => s * a i + t * b i) = C s * bezier n a + C t * bezier n b := by
  simp only [bezier, C_add, C_mul, add_mul, mul_assoc, sum_add_distrib, mul_sum]

theorem bezier_mul (n : ℕ) (s : ℚ) (c : ℕ → ℚ) :
    bezier n (fun i => s * c i) = C s * bezier n c := by
  simpa using bezier_mix n s 0 c c

theorem bezier_zero (c : ℕ → ℚ) : bezier 0 c = C (c 0) := by simp [bezier, bernsteinPolynomial]

theorem bernsteinPolynomial_succ_succ (n i : ℕ) : bernsteinPolynomial ℚ (n + 1) (i + 1) =
    (1 - X) * bernsteinPolynomial ℚ n (i + 1) + X * bernsteinPolynomial ℚ n i := by
  rcases Nat.lt_or_ge i n with hi | hi
  · obtain ⟨k, rfl⟩ := Nat.exists_eq_add_of_lt hi
    have hk : i + k + 1 - i = k + 1 := by omega
    simp only [bernsteinPolynomial, Nat.choose_succ_succ' (i + k + 1) i, Nat.add_sub_add_right,
      Nat.add_sub_cancel_left, hk, Nat.cast_add]
    ring
  · have hlt : n < i + 1 := Nat.lt_succ_of_le hi
    rw [bernsteinPolynomial.eq_zero_of_lt ℚ hlt]
    simp only [bernsteinPolynomial, Nat.choose_succ_succ' n i, Nat.choose_eq_zero_of_lt hlt,
      Nat.add_sub_add_right, add_zero]
    ring

/-- De Casteljau's recursion: interpolation between the polynomials of the control values without
the last and without the first. -/
theorem bezier_succ (n : ℕ) (c : ℕ → ℚ) :
    bezier (n + 1) c = (1 - X) * bezier n c + X * bezier n fun i => c (i + 1) := by
  have hzero : bernsteinPolynomial ℚ (n + 1) 0 = (1 - X) * bernsteinPolynomial ℚ n 0 := by
    simp [bernsteinPolynomial, pow_succ']
  have hlast : bernsteinPolynomial ℚ n (n + 1) = 0 :=
    bernsteinPolynomial.eq_zero_of_lt ℚ (Nat.lt_succ_self n)
  have hshift : bezier n c =
      ∑ i ∈ range (n + 1), C (c (i + 1)) * bernsteinPolynomial ℚ n (i + 1) +
        C (c 0) * bernsteinPolynomial ℚ n 0 := by
    rw [← sum_range_succ' (fun i => C (c i) * bernsteinPolynomial ℚ n i), sum_range_succ, hlast,
      mul_zero, add_zero, bezier]
  rw [hshift, bezier, sum_range_succ', hzero, bezier, mul_add, mul_sum, mul_sum, add_right_comm,
    ← sum_add_distrib]
  refine congrArg₂ (· + ·) (sum_congr rfl fun i _ => ?_) ?_
  · rw [bernsteinPolynomial_succ_succ]
    ring
  · ring

theorem derivative_bezier (n : ℕ) (c : ℕ → ℚ) :
    derivative (bezier (n + 1) c) = C (n + 1 : ℚ) * bezier n fun i => c (i + 1) - c i := by
  induction n generalizing c with
  | zero =>
    simp [bezier_succ, bezier_zero]
    ring
  | succ n ih =>
    have hdiff : (bezier (n + 1) fun i => c (i + 1) - c i) =
        bezier (n + 1) (fun i => c (i + 1)) - bezier (n + 1) c := by
      simpa [neg_add_eq_sub] using bezier_mix (n + 1) (-1) 1 c fun i => c (i + 1)
    have hrec := bezier_succ n fun i => c (i + 1) - c i
    rw [hdiff] at hrec ⊢
    rw [bezier_succ (n + 1) c, derivative_add, derivative_mul, derivative_mul, ih, ih]
    simp only [derivative_sub, derivative_one, derivative_X, map_add, map_natCast, map_one,
      Nat.cast_add, Nat.cast_one]
    linear_combination (n + 1 : ℚ[X]) * hrec.symm

theorem unitIntegral_bezier_mul (m n : ℕ) (a b : ℕ → ℚ) :
    unitIntegral (bezier m a * bezier n b) = ∑ i ∈ range (m + 1), ∑ j ∈ range (n + 1),
      a i * b j * (m.choose i * n.choose j / ((m + n + 1) * (m + n).choose (i + j))) := by
  rw [bezier, bezier, sum_mul_sum, map_sum]
  refine sum_congr rfl fun i hi => ?_
  rw [map_sum]
  refine sum_congr rfl fun j hj => ?_
  rw [mul_mul_mul_comm, ← C_mul, unitIntegral_C_mul,
    unitIntegral_bernstein_mul (Nat.lt_succ_iff.mp (mem_range.mp hi))
      (Nat.lt_succ_iff.mp (mem_range.mp hj))]

theorem unitIntegral_bezier_mul_derivative (n : ℕ) (a b : ℕ → ℚ) :
    unitIntegral (bezier (n + 1) a * derivative (bezier (n + 1) b)) =
      ∑ i ∈ range (n + 2), ∑ j ∈ range (n + 1), a i * (b (j + 1) - b j) *
        ((n + 1).choose i * n.choose j / (2 * (n + 1 + n).choose (i + j))) := by
  have hn : (n + 1 : ℚ) ≠ 0 := by positivity
  rw [derivative_bezier, mul_left_comm, unitIntegral_C_mul, unitIntegral_bezier_mul, mul_sum]
  refine sum_congr rfl fun i _ => ?_
  rw [mul_sum]
  refine sum_congr rfl fun j _ => ?_
  push_cast
  field_simp
  ring

namespace Edge
variable {d : Degree}

def control (e : Edge ℚ d) (axis : Point ℚ → ℚ) (i : ℕ) : ℚ := (e.points.map axis).getD i 0

noncomputable def coordinate (e : Edge ℚ d) (axis : Point ℚ → ℚ) : ℚ[X] :=
  bezier d.value (e.control axis)

noncomputable def xAt (e : Edge ℚ d) (t : ℝ) : ℝ := aeval t (e.coordinate Point.x)

noncomputable def yAt (e : Edge ℚ d) (t : ℝ) : ℝ := aeval t (e.coordinate Point.y)

noncomputable def along (e : Edge ℚ d) (u v : Point ℚ → ℚ) : ℚ :=
  unitIntegral (e.coordinate u * derivative (e.coordinate v))

theorem eval_zero_coordinate (e : Edge ℚ d) (axis : Point ℚ → ℚ) :
    (e.coordinate axis).eval 0 = axis e.first := by
  rw [coordinate, eval_zero_bezier]
  cases e <;> rfl

theorem eval_one_coordinate (e : Edge ℚ d) (axis : Point ℚ → ℚ) :
    (e.coordinate axis).eval 1 = axis e.last := by
  rw [coordinate, eval_one_bezier]
  cases e <;> rfl

theorem along_swap (e : Edge ℚ d) (u v : Point ℚ → ℚ) :
    e.along v u = u e.last * v e.last - u e.first * v e.first - e.along u v := by
  have hproduct := unitIntegral_derivative (e.coordinate u * e.coordinate v)
  rw [derivative_mul, map_add, eval_mul, eval_mul, eval_zero_coordinate, eval_zero_coordinate,
    eval_one_coordinate, eval_one_coordinate, mul_comm (derivative _)] at hproduct
  rw [along, along]
  linarith

theorem coordinate_translate (e : Edge ℚ d) (w : Point ℚ) {axis : Point ℚ → ℚ}
    (haxis : ∀ p : Point ℚ, axis (p.translate w) = axis p + axis w) :
    (e.translate w).coordinate axis = e.coordinate axis + C (axis w) := by
  rw [coordinate, coordinate, ← bezier_add_const]
  refine bezier_congr fun i hi => ?_
  have hlength : i < e.points.length := by
    rw [length_points, Degree.pointCount]
    omega
  simp [control, translate, points_map, hlength, haxis]

theorem along_translate (e : Edge ℚ d) (w : Point ℚ) {u v : Point ℚ → ℚ}
    (hu : ∀ p : Point ℚ, u (p.translate w) = u p + u w)
    (hv : ∀ p : Point ℚ, v (p.translate w) = v p + v w) :
    (e.translate w).along u v = e.along u v + u w * (v e.last - v e.first) := by
  rw [along, along, coordinate_translate e w hu, coordinate_translate e w hv, derivative_add,
    derivative_C, add_zero, add_mul, map_add, unitIntegral_C_mul, unitIntegral_derivative,
    eval_zero_coordinate, eval_one_coordinate]

theorem coordinate_of_const {e : Edge ℚ d} {axis : Point ℚ → ℚ} {w : ℚ}
    (h : ∀ p ∈ e.points, axis p = w) : e.coordinate axis = C w := by
  rw [coordinate, ← bezier_const d.value]
  refine bezier_congr fun i hi => ?_
  have hlength : i < e.points.length := by
    rw [length_points, Degree.pointCount]
    omega
  simp [control, hlength, h]

theorem along_of_const_left {e : Edge ℚ d} {u v : Point ℚ → ℚ} {w : ℚ}
    (h : ∀ p ∈ e.points, u p = w) : e.along u v = w * (v e.last - v e.first) := by
  rw [along, coordinate_of_const h, unitIntegral_C_mul, unitIntegral_derivative,
    eval_one_coordinate, eval_zero_coordinate]

theorem along_of_const_right {e : Edge ℚ d} {u v : Point ℚ → ℚ} {w : ℚ}
    (h : ∀ p ∈ e.points, v p = w) : e.along u v = 0 := by
  rw [along, coordinate_of_const h, derivative_C, mul_zero, map_zero]

theorem integral_affine_xAt (e : Edge ℚ d) (a b : ℚ) :
    ∫ t in (0 : ℝ)..1, (a + b * e.xAt t) * deriv e.yAt t =
      (a * (e.last.y - e.first.y) + b * e.along Point.x Point.y : ℚ) := by
  rw [← eval_one_coordinate e Point.y, ← eval_zero_coordinate e Point.y]
  exact integral_affine_mul_deriv _ _ a b

theorem integral_affine_yAt (e : Edge ℚ d) (a b : ℚ) :
    ∫ t in (0 : ℝ)..1, (a + b * e.yAt t) * deriv e.xAt t =
      (a * (e.last.x - e.first.x) + b * e.along Point.y Point.x : ℚ) := by
  rw [← eval_one_coordinate e Point.x, ← eval_zero_coordinate e Point.x]
  exact integral_affine_mul_deriv _ _ a b

end Edge
end WaveletRaster
