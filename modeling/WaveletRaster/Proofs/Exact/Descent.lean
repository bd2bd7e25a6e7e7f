import Mathlib
import WaveletRaster.Descent
import WaveletRaster.Proofs.Exact.Moments

/-! Dispatch in exact arithmetic, seen from the frame of the node. What an edge adds to a
coefficient is the integral of the tent over the node along the edge, with the sign of
the quadrant. -/

namespace WaveletRaster
open Polynomial

def sideSign (behind : Bool) : ℚ := if behind then -1 else 1

/-- The tent over a node of half-extent `half`, on one side of the midline. It rises from zero at
one border to the midline and falls to zero at the other border. -/
noncomputable def tent (behind : Bool) (half x : ℝ) : ℝ := if behind then 2 * half - x else x

theorem sideSign_mul_self (behind : Bool) : sideSign behind * sideSign behind = 1 := by
  cases behind <;> norm_num [sideSign]

theorem tent_eq (behind : Bool) (half x : ℝ) :
    tent behind half x = half * (1 - sideSign behind) + sideSign behind * x := by
  cases behind with
  | false => norm_num [tent, sideSign]
  | true =>
    norm_num [tent, sideSign]
    ring

namespace Quadrant

def signX (q : Quadrant) : ℚ := sideSign q.isRight

def signY (q : Quadrant) : ℚ := sideSign q.isBottom

theorem shift_x (q : Quadrant) (half : UInt32) :
    (q.shift half : Point ℚ).x = -(half.toNat * (1 - q.signX) / 2) := by
  cases q <;> norm_num [shift, offset, isRight, signX, sideSign]

theorem shift_y (q : Quadrant) (half : UInt32) :
    (q.shift half : Point ℚ).y = -(half.toNat * (1 - q.signY) / 2) := by
  cases q <;> norm_num [shift, offset, isBottom, signY, sideSign]

end Quadrant

namespace Moments

theorem horizontal_project (m : Moments ℚ) (q : Quadrant) :
    (m.project q).horizontal = (1 - q.signX) / 2 * m.kx + q.signX * m.lx := by
  cases q <;> norm_num [project, Quadrant.signX, Quadrant.isRight, sideSign] <;> ring

theorem vertical_project (m : Moments ℚ) (q : Quadrant) :
    (m.project q).vertical = (1 - q.signY) / 2 * m.ky + q.signY * m.ly := by
  cases q <;> norm_num [project, Quadrant.signY, Quadrant.isBottom, sideSign] <;> ring

theorem diagonal_project (m : Moments ℚ) (q : Quadrant) :
    (m.project q).diagonal = q.signY * (m.project q).horizontal := by
  cases q <;> norm_num [project, Quadrant.signY, Quadrant.isBottom, sideSign]

theorem project_eq (m : Moments ℚ) (q : Quadrant) :
    m.project q = ⟨(1 - q.signX) / 2 * m.kx + q.signX * m.lx,
      (1 - q.signY) / 2 * m.ky + q.signY * m.ly,
      q.signY * ((1 - q.signX) / 2 * m.kx + q.signX * m.lx)⟩ := by
  rw [← horizontal_project, ← vertical_project, ← diagonal_project]

end Moments

theorem Coefficients.accumulate_rat (c delta : Coefficients ℚ) :
    c.accumulate delta = c.zipWith (· + ·) delta := rfl

theorem nodeScale_rat (half : UInt32) : (nodeScale half : ℚ) = 1 / half.toNat := by
  simp [nodeScale]

theorem nodeScale_sq_mul (half : UInt32) :
    (nodeScale half : ℚ) ^ 2 * half.toNat = nodeScale half := by
  rw [nodeScale_rat]
  rcases eq_or_ne (half.toNat : ℚ) 0 with h | h
  · rw [h]
    norm_num
  · field_simp

theorem tent_moments (half : UInt32) (behind : Bool) (difference integral : ℚ) :
    (1 - sideSign behind) / 2 * (nodeScale half / 4 * difference) + sideSign behind *
        (nodeScale half ^ 2 / 4 *
          (integral + -(half.toNat * (1 - sideSign behind) / 2) * difference)) =
      nodeScale half ^ 2 / 4 *
        (half.toNat * (1 - sideSign behind) * difference + sideSign behind * integral) := by
  have hscale := nodeScale_sq_mul half
  have hsign := sideSign_mul_self behind
  linear_combination (-(1 - sideSign behind) * difference / 8) * hscale +
    (nodeScale half ^ 2 * half.toNat * difference / 8) * hsign

namespace Edge
variable {d : Degree}

theorem first_enter (e : Edge ℚ d) (half : UInt32) (q : Quadrant) :
    (e.enter half q).first = e.first.translate (q.shift half) := by
  cases e <;> rfl

theorem last_enter (e : Edge ℚ d) (half : UInt32) (q : Quadrant) :
    (e.enter half q).last = e.last.translate (q.shift half) := by
  cases e <;> rfl

theorem kx_moments_enter (e : Edge ℚ d) (half : UInt32) (q : Quadrant) (r : ℚ) :
    ((e.enter half q).moments r).kx = r / 4 * (e.last.y - e.first.y) := by
  rw [kx_moments, first_enter, last_enter]
  exact congrArg (r / 4 * ·) (add_sub_add_right_eq_sub _ _ _)

theorem ky_moments_enter (e : Edge ℚ d) (half : UInt32) (q : Quadrant) (r : ℚ) :
    ((e.enter half q).moments r).ky = -(r / 4 * (e.last.x - e.first.x)) := by
  rw [ky_moments, first_enter, last_enter]
  exact congrArg (-(r / 4 * ·)) (add_sub_add_right_eq_sub _ _ _)

/-- What the edge adds to the node when it is sent into the quadrant. -/
def contribution (e : Edge ℚ d) (half : UInt32) (q : Quadrant) : Coefficients ℚ :=
  ((e.enter half q).moments (nodeScale half)).project q

theorem horizontal_contribution (e : Edge ℚ d) (half : UInt32) (q : Quadrant) :
    (e.contribution half q).horizontal = nodeScale half ^ 2 / 4 *
      (half.toNat * (1 - q.signX) * (e.last.y - e.first.y) +
        q.signX * e.along Point.x Point.y) := by
  rw [contribution, Moments.horizontal_project, kx_moments_enter, lx_moments, enter,
    along_translate e _ (fun _ => rfl) fun _ => rfl, Quadrant.shift_x]
  exact tent_moments half q.isRight _ _

theorem vertical_contribution (e : Edge ℚ d) (half : UInt32) (q : Quadrant) :
    (e.contribution half q).vertical = -(nodeScale half ^ 2 / 4 *
      (half.toNat * (1 - q.signY) * (e.last.x - e.first.x) +
        q.signY * e.along Point.y Point.x)) := by
  rw [contribution, Moments.vertical_project, ky_moments_enter, ly_moments, enter,
    along_translate e _ (fun _ => rfl) fun _ => rfl, Quadrant.shift_y, mul_neg, mul_neg, ← neg_add]
  exact congrArg (-·) (tent_moments half q.isBottom _ _)

theorem diagonal_contribution (e : Edge ℚ d) (half : UInt32) (q : Quadrant) :
    (e.contribution half q).diagonal = q.signY * (e.contribution half q).horizontal :=
  Moments.diagonal_project _ q

theorem contribution_eq (e : Edge ℚ d) (half : UInt32) (q : Quadrant) :
    e.contribution half q = ⟨(e.contribution half q).horizontal, (e.contribution half q).vertical,
      q.signY * (e.contribution half q).horizontal⟩ := by
  rw [← diagonal_contribution]

theorem integral_tent_xAt (e : Edge ℚ d) (half : UInt32) (behind : Bool) :
    ∫ t in (0 : ℝ)..1, tent behind half.toNat (e.xAt t) * deriv e.yAt t =
      (half.toNat * (1 - sideSign behind) * (e.last.y - e.first.y) +
        sideSign behind * e.along Point.x Point.y : ℚ) := by
  rw [← integral_affine_xAt]
  simp only [tent_eq]
  push_cast
  rfl

theorem integral_tent_yAt (e : Edge ℚ d) (half : UInt32) (behind : Bool) :
    ∫ t in (0 : ℝ)..1, tent behind half.toNat (e.yAt t) * deriv e.xAt t =
      (half.toNat * (1 - sideSign behind) * (e.last.x - e.first.x) +
        sideSign behind * e.along Point.y Point.x : ℚ) := by
  rw [← integral_affine_yAt]
  simp only [tent_eq]
  push_cast
  rfl

/-- The area between the edge and the origin of its frame, counted with its orientation. -/
noncomputable def area (e : Edge ℚ d) : ℝ :=
  1 / 2 * ∫ t in (0 : ℝ)..1, (e.xAt t * deriv e.yAt t - e.yAt t * deriv e.xAt t)

noncomputable def ratArea (e : Edge ℚ d) : ℚ :=
  e.along Point.x Point.y - (e.last.corner - e.first.corner) / 2

theorem area_eq (e : Edge ℚ d) : e.area = e.ratArea := by
  have hpoly (t : ℝ) : e.xAt t * deriv e.yAt t - e.yAt t * deriv e.xAt t =
      aeval t (e.coordinate Point.x * derivative (e.coordinate Point.y) -
        e.coordinate Point.y * derivative (e.coordinate Point.x)) := by
    rw [map_sub, map_mul, map_mul, ← Polynomial.deriv_aeval, ← Polynomial.deriv_aeval]
    rfl
  have hparts := e.along_swap Point.x Point.y
  rw [along, along] at hparts
  rw [area, ratArea, Point.corner, Point.corner, along]
  simp only [hpoly]
  rw [integral_aeval, map_sub, hparts]
  push_cast
  ring

def horizontalPotential (half : UInt32) (q : Quadrant) (p : Point ℚ) : ℚ :=
  nodeScale half ^ 2 / 4 * (half.toNat * (1 - q.signX) * p.y + q.signX * p.corner / 2)

def verticalPotential (half : UInt32) (q : Quadrant) (p : Point ℚ) : ℚ :=
  -(nodeScale half ^ 2 / 4 * (half.toNat * (1 - q.signY) * p.x + q.signY * p.corner / 2))

theorem horizontal_contribution_eq_area (e : Edge ℚ d) (half : UInt32) (q : Quadrant) :
    (e.contribution half q).horizontal = nodeScale half ^ 2 / 4 * q.signX * e.ratArea +
      (horizontalPotential half q e.last - horizontalPotential half q e.first) := by
  rw [horizontal_contribution, ratArea, horizontalPotential, horizontalPotential]
  ring

theorem vertical_contribution_eq_area (e : Edge ℚ d) (half : UInt32) (q : Quadrant) :
    (e.contribution half q).vertical = nodeScale half ^ 2 / 4 * q.signY * e.ratArea +
      (verticalPotential half q e.last - verticalPotential half q e.first) := by
  rw [vertical_contribution, ratArea, along_swap e Point.x Point.y,
    verticalPotential, verticalPotential, Point.corner, Point.corner]
  ring

end Edge

namespace Descent
variable {d : Degree}

theorem coefficients_dispatch (s : Descent ℚ d) (half : UInt32) (q : Quadrant) :
    (s.dispatch half q.index).coefficients =
      s.coefficients.accumulate (s.edge.contribution half q) := by
  rw [dispatch_index]
  rfl

theorem dispatch_adds_boundary_integrals (s : Descent ℚ d) (half : UInt32) (q : Quadrant) :
    let h : ℝ := half.toNat
    let H := 1 / (4 * h ^ 2) *
      ∫ t in (0 : ℝ)..1, tent q.isRight h (s.edge.xAt t) * deriv s.edge.yAt t
    let V := -1 / (4 * h ^ 2) *
      ∫ t in (0 : ℝ)..1, tent q.isBottom h (s.edge.yAt t) * deriv s.edge.xAt t
    let c := (s.dispatch half q.index).coefficients
    (c.horizontal : ℝ) = s.coefficients.horizontal + H ∧
    (c.vertical : ℝ) = s.coefficients.vertical + V ∧
    (c.diagonal : ℝ) = s.coefficients.diagonal + q.signY * H := by
  intro h H V c
  have hH : H = (s.edge.contribution half q).horizontal := by
    rw [Edge.horizontal_contribution, nodeScale_rat, Rat.cast_mul, Quadrant.signX,
      ← Edge.integral_tent_xAt]
    push_cast
    ring
  have hV : V = (s.edge.contribution half q).vertical := by
    rw [Edge.vertical_contribution, nodeScale_rat, Rat.cast_neg, Rat.cast_mul, Quadrant.signY,
      ← Edge.integral_tent_yAt]
    push_cast
    ring
  have hc : c = s.coefficients.accumulate (s.edge.contribution half q) :=
    s.coefficients_dispatch half q
  rw [hH, hV, ← Rat.cast_mul, ← Edge.diagonal_contribution, hc, Coefficients.accumulate_rat]
  exact ⟨Rat.cast_add _ _, Rat.cast_add _ _, Rat.cast_add _ _⟩

end Descent
end WaveletRaster
