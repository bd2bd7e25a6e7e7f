import Mathlib
import WaveletRaster.Proofs.Bezier.Curve

/-! Other control points for the same curve. De Casteljau's construction cuts an edge in two pieces
that trace the curve in front of the cut and behind it, the reversed edge traces it from the other
end, and an elevated edge traces it with one control point more. -/

namespace WaveletRaster
open Polynomial

namespace Point

def lerp (t : ℚ) (p q : Point ℚ) : Point ℚ :=
  ⟨(1 - t) * p.x + t * q.x, (1 - t) * p.y + t * q.y⟩

theorem translate_lerp (t : ℚ) (p q w : Point ℚ) :
    (lerp t p q).translate w = lerp t (p.translate w) (q.translate w) := by
  have hmove (a b c : ℚ) : (1 - t) * a + t * b + c = (1 - t) * (a + c) + t * (b + c) := by ring
  exact congrArg₂ Point.mk (hmove _ _ _) (hmove _ _ _)

def IsAffine (axis : Point ℚ → ℚ) : Prop :=
  ∀ t p q, axis (lerp t p q) = (1 - t) * axis p + t * axis q

theorem isAffine_x : IsAffine Point.x := fun _ _ _ => rfl

theorem isAffine_y : IsAffine Point.y := fun _ _ _ => rfl

end Point

noncomputable def stretch (s t : ℚ) : ℚ[X] := C s + C (t - s) * X

theorem exists_derivative_eq (p : ℚ[X]) : ∃ P : ℚ[X], derivative P = p := by
  induction p using Polynomial.induction_on' with
  | add p q hp hq =>
    obtain ⟨P, rfl⟩ := hp
    obtain ⟨Q, rfl⟩ := hq
    exact ⟨P + Q, derivative_add⟩
  | monomial n a =>
    refine ⟨monomial (n + 1) (a / (n + 1)), ?_⟩
    rw [derivative_monomial_succ]
    congr 1
    field_simp

theorem unitIntegral_comp_stretch {P p q : ℚ[X]} (hP : derivative P = p * derivative q) (s t : ℚ) :
    unitIntegral (p.comp (stretch s t) * derivative (q.comp (stretch s t))) =
      P.eval t - P.eval s := by
  have hchain : p.comp (stretch s t) * derivative (q.comp (stretch s t)) =
      derivative (P.comp (stretch s t)) := by
    rw [derivative_comp, derivative_comp, hP, mul_comp]
    ring
  rw [hchain, unitIntegral_derivative, eval_comp, eval_comp]
  simp [stretch]

theorem eval_bezier_succ (n : ℕ) (c : ℕ → ℚ) (t : ℚ) : (bezier (n + 1) c).eval t =
    (1 - t) * (bezier n c).eval t + t * (bezier n fun i => c (i + 1)).eval t := by
  simp [bezier_succ]

/-- In front of `t` the control values are the values at `t` of the curves that the first control
values draw. -/
theorem bezier_front (n : ℕ) (c : ℕ → ℚ) (t : ℚ) :
    bezier n (fun i => (bezier i c).eval t) = (bezier n c).comp (stretch 0 t) := by
  induction n generalizing c with
  | zero => simp [bezier_zero]
  | succ n ih =>
    have htail : (bezier n fun i => (bezier (i + 1) c).eval t) =
        C (1 - t) * (bezier n c).comp (stretch 0 t) +
          C t * (bezier n fun i => c (i + 1)).comp (stretch 0 t) := by
      simp only [eval_bezier_succ]
      rw [bezier_mix, ih, ih]
    rw [bezier_succ, htail, ih, bezier_succ n c]
    simp only [stretch, add_comp, mul_comp, sub_comp, one_comp, X_comp, C_sub, C_1, C_0]
    ring

theorem bezier_back (n : ℕ) (c : ℕ → ℚ) (t : ℚ) :
    bezier n (fun i => (bezier (n - i) fun j => c (j + i)).eval t) =
      (bezier n c).comp (stretch t 1) := by
  induction n generalizing c with
  | zero => simp [bezier_zero]
  | succ n ih =>
    have htail : (bezier n fun i => (bezier (n + 1 - (i + 1)) fun j => c (j + (i + 1))).eval t) =
        (bezier n fun i => c (i + 1)).comp (stretch t 1) := by
      rw [← ih]
      simp only [Nat.add_sub_add_right, add_assoc]
    have hinit : (bezier n fun i => (bezier (n + 1 - i) fun j => c (j + i)).eval t) =
        C (1 - t) * (bezier n c).comp (stretch t 1) +
          C t * (bezier n fun i => c (i + 1)).comp (stretch t 1) := by
      rw [← ih, ← ih, ← bezier_mix]
      refine bezier_congr fun i hi => ?_
      rw [Nat.succ_sub hi, eval_bezier_succ]
      simp only [add_right_comm]
    rw [bezier_succ, hinit, htail, bezier_succ n c]
    simp only [stretch, add_comp, mul_comp, sub_comp, one_comp, X_comp, C_sub, C_1]
    ring

theorem bezier_reverse (n : ℕ) (c : ℕ → ℚ) :
    bezier n (fun i => c (n - i)) = (bezier n c).comp (stretch 1 0) := by
  have hback : stretch 1 0 = 1 - X := by
    simp [stretch, sub_eq_add_neg]
  rw [hback, bezier, bezier, Polynomial.sum_comp, ← Finset.sum_range_reflect]
  refine Finset.sum_congr rfl fun i hi => ?_
  have hle : i ≤ n := Nat.lt_succ_iff.mp (Finset.mem_range.mp hi)
  rw [mul_comp, C_comp, bernsteinPolynomial.flip ℚ n i hle, Nat.add_sub_cancel,
    Nat.sub_sub_self hle]

namespace Edge
variable {d : Degree}

/-- The pieces in front of the parameter and behind it, by repeated interpolation. -/
def split (t : ℚ) : Edge ℚ d → Edge ℚ d × Edge ℚ d
  | line a b =>
    let m := Point.lerp t a b
    (line a m, line m b)
  | quad a b c =>
    let ab := Point.lerp t a b
    let bc := Point.lerp t b c
    let m := Point.lerp t ab bc
    (quad a ab m, quad m bc c)
  | cubic a b c d =>
    let ab := Point.lerp t a b
    let bc := Point.lerp t b c
    let cd := Point.lerp t c d
    let abc := Point.lerp t ab bc
    let bcd := Point.lerp t bc cd
    let m := Point.lerp t abc bcd
    (cubic a ab abc m, cubic m bcd cd d)

theorem control_split (e : Edge ℚ d) (t : ℚ) {axis : Point ℚ → ℚ} (haxis : Point.IsAffine axis)
    {i : ℕ} (hi : i ≤ d.value) :
    (e.split t).1.control axis i = (bezier i (e.control axis)).eval t ∧
      (e.split t).2.control axis i =
        (bezier (d.value - i) fun j => e.control axis (j + i)).eval t := by
  rw [Point.IsAffine] at haxis
  cases e <;> rw [Degree.value] at hi <;> interval_cases i <;>
    simp [split, control, points, Degree.value, haxis, eval_bezier_succ, bezier_zero]

theorem coordinate_split (e : Edge ℚ d) (t : ℚ) {axis : Point ℚ → ℚ} (haxis : Point.IsAffine axis) :
    (e.split t).1.coordinate axis = (e.coordinate axis).comp (stretch 0 t) ∧
      (e.split t).2.coordinate axis = (e.coordinate axis).comp (stretch t 1) := by
  rw [coordinate, coordinate, coordinate, ← bezier_front, ← bezier_back]
  exact ⟨bezier_congr fun i hi => (e.control_split t haxis hi).1,
    bezier_congr fun i hi => (e.control_split t haxis hi).2⟩

theorem along_split (e : Edge ℚ d) (t : ℚ) {u v : Point ℚ → ℚ} (hu : Point.IsAffine u)
    (hv : Point.IsAffine v) :
    (e.split t).1.along u v + (e.split t).2.along u v = e.along u v := by
  obtain ⟨P, hP⟩ := exists_derivative_eq (e.coordinate u * derivative (e.coordinate v))
  obtain ⟨hufront, huback⟩ := e.coordinate_split t hu
  obtain ⟨hvfront, hvback⟩ := e.coordinate_split t hv
  rw [along, along, along, hufront, huback, hvfront, hvback, unitIntegral_comp_stretch hP,
    unitIntegral_comp_stretch hP, ← hP, unitIntegral_derivative]
  ring

theorem split_translate (e : Edge ℚ d) (t : ℚ) (w : Point ℚ) :
    (e.translate w).split t = ((e.split t).1.translate w, (e.split t).2.translate w) := by
  cases e <;> simp [split, translate, map, Point.translate_lerp]

theorem control_reversed (e : Edge ℚ d) (axis : Point ℚ → ℚ) {i : ℕ} (hi : i ≤ d.value) :
    e.reversed.control axis i = e.control axis (d.value - i) := by
  have hlength : i < (e.points.map axis).length := by
    rw [List.length_map, length_points, Degree.pointCount]
    omega
  have hlast : (e.points.map axis).length - 1 - i = d.value - i := by
    rw [List.length_map, length_points, Degree.pointCount, Nat.add_sub_cancel]
  rw [control, points_reversed, List.map_reverse, List.getD_reverse i hlength, hlast, control]

theorem coordinate_reversed (e : Edge ℚ d) (axis : Point ℚ → ℚ) :
    e.reversed.coordinate axis = (e.coordinate axis).comp (stretch 1 0) := by
  rw [coordinate, coordinate, ← bezier_reverse]
  exact bezier_congr fun i hi => e.control_reversed axis hi

theorem along_reversed (e : Edge ℚ d) (u v : Point ℚ → ℚ) :
    e.reversed.along u v = -e.along u v := by
  obtain ⟨P, hP⟩ := exists_derivative_eq (e.coordinate u * derivative (e.coordinate v))
  rw [along, along, coordinate_reversed, coordinate_reversed, unitIntegral_comp_stretch hP, ← hP,
    unitIntegral_derivative, neg_sub]

end Edge

def Degree.elevate : Degree → Degree
  | linear => quadratic
  | quadratic | cubic => cubic

namespace Edge
variable {d : Degree}

def elevate : Edge ℚ d → Edge ℚ d.elevate
  | line a b => quad a (.lerp (1 / 2) a b) b
  | quad a b c => cubic a (.lerp (2 / 3) a b) (.lerp (1 / 3) b c) c
  | cubic a b c d => cubic a b c d

theorem elevate_elevate_line (a b : Point ℚ) :
    (line a b).elevate.elevate = cubic a (.lerp (1 / 3) a b) (.lerp (2 / 3) a b) b := by
  have hfront (x y : ℚ) : (1 - 2 / 3) * x + 2 / 3 * ((1 - 1 / 2) * x + 1 / 2 * y) =
      (1 - 1 / 3) * x + 1 / 3 * y := by ring
  have hback (x y : ℚ) : (1 - 1 / 3) * ((1 - 1 / 2) * x + 1 / 2 * y) + 1 / 3 * y =
      (1 - 2 / 3) * x + 2 / 3 * y := by ring
  simp only [elevate, Point.lerp, hfront, hback]
  rfl

theorem coordinate_elevate (e : Edge ℚ d) {axis : Point ℚ → ℚ} (haxis : Point.IsAffine axis) :
    e.elevate.coordinate axis = e.coordinate axis := by
  rw [Point.IsAffine] at haxis
  refine Polynomial.funext fun t => ?_
  cases e with
  | cubic a b c d => rfl
  | _ =>
    simp only [coordinate, elevate, Degree.elevate, Degree.value, eval_bezier_succ, bezier_zero]
    simp [control, points, haxis]
    ring

theorem along_elevate (e : Edge ℚ d) {u v : Point ℚ → ℚ} (hu : Point.IsAffine u)
    (hv : Point.IsAffine v) : e.elevate.along u v = e.along u v := by
  rw [along, along, coordinate_elevate e hu, coordinate_elevate e hv]

theorem elevate_translate (e : Edge ℚ d) (w : Point ℚ) :
    (e.translate w).elevate = e.elevate.translate w := by
  cases e <;> simp only [elevate, translate, map, Point.translate_lerp] <;> rfl

end Edge
end WaveletRaster
