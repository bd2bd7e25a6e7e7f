import Mathlib

/-! Integrals of rational polynomials over the unit interval. The product of two Bernstein
polynomials is again one up to a factor, and all Bernstein polynomials of one degree have the same
integral. -/

namespace WaveletRaster
open Polynomial

noncomputable def unitIntegral : ℚ[X] →ₗ[ℚ] ℚ :=
  lsum fun i => (i + 1 : ℚ)⁻¹ • LinearMap.id

theorem unitIntegral_monomial (n : ℕ) (a : ℚ) :
    unitIntegral (monomial n a) = a / (n + 1) := by
  simp [unitIntegral, div_eq_inv_mul]

theorem unitIntegral_C_mul (a : ℚ) (p : ℚ[X]) : unitIntegral (C a * p) = a * unitIntegral p := by
  rw [← smul_eq_C_mul, map_smul, smul_eq_mul]

theorem integral_aeval (p : ℚ[X]) : ∫ t in (0 : ℝ)..1, aeval t p = unitIntegral p := by
  induction p using Polynomial.induction_on' with
  | add p q hp hq =>
    have hint (p : ℚ[X]) : IntervalIntegrable (fun t : ℝ => aeval t p) MeasureTheory.volume 0 1 :=
      p.continuous_aeval.intervalIntegrable 0 1
    simp only [map_add, intervalIntegral.integral_add (hint p) (hint q), hp, hq, Rat.cast_add]
  | monomial n a =>
    rw [unitIntegral_monomial]
    simp [aeval_monomial, div_eq_mul_inv]

theorem unitIntegral_derivative (p : ℚ[X]) :
    unitIntegral (derivative p) = p.eval 1 - p.eval 0 := by
  induction p using Polynomial.induction_on' with
  | add p q hp hq =>
    simp only [map_add, hp, hq, eval_add]
    ring
  | monomial n a =>
    cases n with
    | zero => simp
    | succ n =>
      rw [derivative_monomial_succ, unitIntegral_monomial, eval_monomial, eval_monomial]
      field_simp
      simp

theorem integral_affine_mul_deriv (p q : ℚ[X]) (a b : ℚ) :
    ∫ t in (0 : ℝ)..1, (a + b * aeval t p) * deriv (fun t : ℝ => aeval t q) t =
      (a * (q.eval 1 - q.eval 0) + b * unitIntegral (p * derivative q) : ℚ) := by
  have hpoly (t : ℝ) : (a + b * aeval t p) * deriv (fun t : ℝ => aeval t q) t =
      aeval t (C a * derivative q + C b * (p * derivative q)) := by
    rw [Polynomial.deriv_aeval]
    simp only [map_add, map_mul, aeval_C, eq_ratCast]
    ring
  simp only [hpoly]
  rw [integral_aeval, map_add, unitIntegral_C_mul, unitIntegral_C_mul, unitIntegral_derivative]

/-- Neighbouring Bernstein polynomials of degree `n` have equal integrals, because their difference
is the derivative of one of degree `n + 1` that vanishes at both ends. -/
theorem unitIntegral_bernstein {n ν : ℕ} (hν : ν ≤ n) :
    unitIntegral (bernsteinPolynomial ℚ n ν) = 1 / (n + 1) := by
  have hn : (n + 1 : ℚ) ≠ 0 := by positivity
  have hC : (n + 1 : ℚ[X]) = C (n + 1 : ℚ) := by simp
  induction ν with
  | zero =>
    have key := unitIntegral_derivative (bernsteinPolynomial ℚ (n + 1) 0)
    rw [bernsteinPolynomial.derivative_zero, bernsteinPolynomial.eval_at_0,
      bernsteinPolynomial.eval_at_1, if_pos rfl, if_neg (by omega), Nat.cast_succ, hC, neg_mul,
      map_neg, unitIntegral_C_mul, Nat.add_sub_cancel] at key
    rw [eq_div_iff hn]
    linarith
  | succ ν ih =>
    have key := unitIntegral_derivative (bernsteinPolynomial ℚ (n + 1) (ν + 1))
    rw [bernsteinPolynomial.derivative_succ_aux, bernsteinPolynomial.eval_at_0,
      bernsteinPolynomial.eval_at_1, if_neg (by omega), if_neg (by omega), sub_zero, hC,
      unitIntegral_C_mul, map_sub, ih (by omega)] at key
    have hzero := (mul_eq_zero.mp key).resolve_left hn
    linarith

theorem bernstein_mul {m n i j : ℕ} (hi : i ≤ m) (hj : j ≤ n) :
    C ((m + n).choose (i + j) : ℚ) * (bernsteinPolynomial ℚ m i * bernsteinPolynomial ℚ n j) =
      C (m.choose i * n.choose j : ℚ) * bernsteinPolynomial ℚ (m + n) (i + j) := by
  have hsub : m + n - (i + j) = (m - i) + (n - j) := by omega
  simp only [bernsteinPolynomial, hsub, pow_add, map_mul, map_natCast]
  ring

theorem unitIntegral_bernstein_mul {m n i j : ℕ} (hi : i ≤ m) (hj : j ≤ n) :
    unitIntegral (bernsteinPolynomial ℚ m i * bernsteinPolynomial ℚ n j) =
      m.choose i * n.choose j / ((m + n + 1) * (m + n).choose (i + j)) := by
  have hchoose : ((m + n).choose (i + j) : ℚ) ≠ 0 := by
    exact_mod_cast (Nat.choose_pos (by omega)).ne'
  have hmn : (m + n + 1 : ℚ) ≠ 0 := by positivity
  have key := congrArg unitIntegral (bernstein_mul hi hj)
  rw [unitIntegral_C_mul, unitIntegral_C_mul, unitIntegral_bernstein (by omega),
    Nat.cast_add] at key
  rw [eq_div_iff (mul_ne_zero hmn hchoose)]
  field_simp at key
  linarith

end WaveletRaster
