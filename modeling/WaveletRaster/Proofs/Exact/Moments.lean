import Mathlib
import WaveletRaster.Edge.Moments
import WaveletRaster.Proofs.Bezier.Curve

/-! Moments in exact arithmetic. The closed forms are the boundary integrals of the curve: those of
first order see its ends alone, those of second order its control points through the integrals of
products of Bernstein polynomials. -/

namespace WaveletRaster
open Polynomial

@[simp] theorem ofNat_rat (n : ℕ) : (Arithmetic.ofNat n : ℚ) = n := rfl

@[simp] theorem ratio_rat (m n : ℕ) : (Arithmetic.ratio m n : ℚ) = m / n := rfl

@[simp] theorem widen_rat (x : ℚ) : (Precision.widen x : ℚ) = x := rfl

@[simp] theorem narrow_rat (x : ℚ) : (Precision.narrow x : ℚ) = x := rfl

namespace Edge
variable {d : Degree}

theorem moments_rat (e : Edge ℚ d) (r : ℚ) : e.moments r = Moments.ofEdge r e := by
  cases e <;> rfl

theorem kx_moments (e : Edge ℚ d) (r : ℚ) :
    (e.moments r).kx = r / 4 * (e.last.y - e.first.y) := by
  have hends : (e.moments r).kx = (Moments.firstOrder r e.first e.last).1 := by cases e <;> rfl
  rw [hends]
  simp only [Moments.firstOrder, ratio_rat]
  ring

theorem ky_moments (e : Edge ℚ d) (r : ℚ) :
    (e.moments r).ky = -(r / 4 * (e.last.x - e.first.x)) := by
  have hends : (e.moments r).ky = (Moments.firstOrder r e.first e.last).2 := by cases e <;> rfl
  rw [hends]
  simp only [Moments.firstOrder, ratio_rat]
  ring

/-- The six weights of a cubic, the three of a quadratic and the trapezoid rule are instances of
the binomial weights of `unitIntegral_bezier_mul_derivative`. -/
theorem lx_moments (e : Edge ℚ d) (r : ℚ) :
    (e.moments r).lx = r ^ 2 / 4 * e.along Point.x Point.y := by
  rw [moments_rat, along, coordinate, coordinate]
  cases e with
  | line a b =>
    rw [Degree.value, unitIntegral_bezier_mul_derivative]
    simp [Moments.ofEdge, Moments.ofLine, Moments.firstOrder, Finset.sum_range_succ, control,
      points]
    ring
  | quad a b c =>
    rw [Degree.value, unitIntegral_bezier_mul_derivative]
    simp [Moments.ofEdge, Moments.ofQuad, Finset.sum_range_succ, control, points, Point.cross,
      Point.corner, Nat.choose]
    ring
  | cubic a b c d =>
    rw [Degree.value, unitIntegral_bezier_mul_derivative]
    simp [Moments.ofEdge, Moments.ofCubic, Finset.sum_range_succ, control, points, Point.cross,
      Point.corner, Nat.choose]
    ring

theorem lx_sub_ly_moments (e : Edge ℚ d) (r : ℚ) :
    (e.moments r).lx - (e.moments r).ly = r ^ 2 / 4 * (e.last.corner - e.first.corner) := by
  rw [moments_rat]
  cases e <;> simp [Moments.ofEdge, Moments.ofLine, Moments.ofQuad, Moments.ofCubic,
    Moments.firstOrder, first, last, Point.corner] <;> ring

theorem ly_moments (e : Edge ℚ d) (r : ℚ) :
    (e.moments r).ly = -(r ^ 2 / 4 * e.along Point.y Point.x) := by
  have hlx := e.lx_moments r
  have hdiff := e.lx_sub_ly_moments r
  rw [Point.corner, Point.corner] at hdiff
  rw [along_swap e Point.x Point.y]
  linear_combination hlx - hdiff

theorem moments_eq (e : Edge ℚ d) (r : ℚ) :
    e.moments r = ⟨r / 4 * (e.last.y - e.first.y), -(r / 4 * (e.last.x - e.first.x)),
      r ^ 2 / 4 * e.along Point.x Point.y, -(r ^ 2 / 4 * e.along Point.y Point.x)⟩ := by
  rw [← kx_moments, ← ky_moments, ← lx_moments, ← ly_moments]

theorem moments_eq_boundary_integrals (e : Edge ℚ d) (r : ℚ) :
    ((e.moments r).kx : ℝ) = r / 4 * ∫ t in (0 : ℝ)..1, deriv e.yAt t ∧
    ((e.moments r).ky : ℝ) = -r / 4 * ∫ t in (0 : ℝ)..1, deriv e.xAt t ∧
    ((e.moments r).lx : ℝ) = r ^ 2 / 4 * ∫ t in (0 : ℝ)..1, e.xAt t * deriv e.yAt t ∧
    ((e.moments r).ly : ℝ) = -r ^ 2 / 4 * ∫ t in (0 : ℝ)..1, e.yAt t * deriv e.xAt t := by
  have hdy := e.integral_affine_xAt 1 0
  have hdx := e.integral_affine_yAt 1 0
  have hxdy := e.integral_affine_xAt 0 1
  have hydx := e.integral_affine_yAt 0 1
  simp only [Rat.cast_one, Rat.cast_zero, zero_mul, zero_add, add_zero, one_mul] at hdy hdx hxdy hydx
  rw [hdy, hdx, hxdy, hydx, kx_moments, ky_moments, lx_moments, ly_moments]
  refine ⟨?_, ?_, ?_, ?_⟩ <;> push_cast <;> ring

end Edge
end WaveletRaster
