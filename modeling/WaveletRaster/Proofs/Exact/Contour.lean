import Mathlib
import WaveletRaster.Proofs.Exact.Descent
import WaveletRaster.Segment

/-! Closed contours in exact arithmetic. Over a closed contour everything that depends on end points
alone cancels, and what is left in a coefficient is the area, with the sign of the quadrant. -/

namespace WaveletRaster

def Joins {α : Type} : Point α → Point α → List (Segment α) → Prop
  | a, b, [] => a = b
  | a, b, s :: rest => s.first = a ∧ Joins s.last b rest

/-- A chain of edges of any degrees that ends where it begins. -/
structure Contour (α : Type) where
  start : Point α
  edges : List (Segment α)
  closed : Joins start start edges

section
variable {S W : Type} [Arithmetic S] [Arithmetic W] [Precision S W]

def Contour.dispatch (k : Contour S) (half : UInt32) (origin : Origin) (q : Quadrant)
    (c : Coefficients S) : Coefficients S :=
  k.edges.foldl (fun c s => (Descent.dispatch ⟨origin, s.edge, c⟩ half q.index).coefficients) c

def coefficientsOf (half : UInt32) (origin : Origin) (contours : List (Quadrant × Contour S)) :
    Coefficients S :=
  contours.foldl (fun c (q, k) => k.dispatch half origin q c) Coefficients.zero

end

theorem Joins.sum_sub {a b : Point ℚ} {edges : List (Segment ℚ)} (h : Joins a b edges)
    (f : Point ℚ → ℚ) : (edges.map fun s => f s.last - f s.first).sum = f b - f a := by
  induction edges generalizing a with
  | nil =>
    rw [Joins] at h
    simp [h]
  | cons s rest ih =>
    obtain ⟨hfirst, hrest⟩ := h
    rw [List.map_cons, List.sum_cons, ih hrest, hfirst]
    ring

theorem foldl_accumulate {ι : Type} (f : ι → Coefficients ℚ) (l : List ι) (c : Coefficients ℚ) :
    l.foldl (fun c i => c.accumulate (f i)) c =
      c.accumulate ⟨(l.map fun i => (f i).horizontal).sum, (l.map fun i => (f i).vertical).sum,
        (l.map fun i => (f i).diagonal).sum⟩ := by
  induction l generalizing c with
  | nil => simp [Coefficients.accumulate_rat, Coefficients.zipWith]
  | cons i l ih =>
    rw [List.foldl_cons, ih]
    simp only [Coefficients.accumulate_rat, Coefficients.zipWith, List.map_cons, List.sum_cons,
      add_assoc]

namespace Contour

noncomputable def area (k : Contour ℚ) : ℝ := (k.edges.map fun s => s.edge.area).sum

noncomputable def ratArea (k : Contour ℚ) : ℚ := (k.edges.map fun s => s.edge.ratArea).sum

theorem area_eq (k : Contour ℚ) : k.area = k.ratArea := by
  rw [area, ratArea, Rat.cast_list_sum, List.map_map]
  exact congrArg List.sum (List.map_congr_left fun s _ => s.edge.area_eq)

theorem sum_eq_area (k : Contour ℚ) (w : ℚ) (potential : Point ℚ → ℚ) {f : Segment ℚ → ℚ}
    (hf : ∀ s, f s = w * s.edge.ratArea + (potential s.last - potential s.first)) :
    (k.edges.map f).sum = w * k.ratArea := by
  rw [funext hf, List.sum_map_add, k.closed.sum_sub, sub_self, add_zero, List.sum_map_mul_left,
    ratArea]

noncomputable def contribution (k : Contour ℚ) (half : UInt32) (q : Quadrant) : Coefficients ℚ :=
  ⟨nodeScale half ^ 2 / 4 * q.signX * k.ratArea, nodeScale half ^ 2 / 4 * q.signY * k.ratArea,
    nodeScale half ^ 2 / 4 * (q.signX * q.signY) * k.ratArea⟩

theorem dispatch_rat (k : Contour ℚ) (half : UInt32) (origin : Origin) (q : Quadrant)
    (c : Coefficients ℚ) :
    k.dispatch half origin q c = c.accumulate (k.contribution half q) := by
  have hhorizontal := k.sum_eq_area _ _ fun s => s.edge.horizontal_contribution_eq_area half q
  have hvertical := k.sum_eq_area _ _ fun s => s.edge.vertical_contribution_eq_area half q
  have hdiagonal : (k.edges.map fun s => (s.edge.contribution half q).diagonal).sum =
      q.signY * (k.edges.map fun s => (s.edge.contribution half q).horizontal).sum := by
    simp only [Edge.diagonal_contribution, List.sum_map_mul_left]
  rw [dispatch]
  simp only [Descent.coefficients_dispatch]
  rw [foldl_accumulate, hdiagonal, hhorizontal, hvertical, contribution]
  congr 2
  ring

end Contour

namespace Quadrant

theorem sum_signs (q r : Quadrant) :
    1 + q.signX * r.signX + q.signY * r.signY + q.signX * q.signY * (r.signX * r.signY) =
      4 * if r = q then 1 else 0 := by
  cases q <;> cases r <;> simp [signX, signY, isRight, isBottom, sideSign] <;> norm_num

end Quadrant

/-- The areas of the contours added up with weights that depend on their quadrants. -/
noncomputable def weightedArea (contours : List (Quadrant × Contour ℚ)) (w : Quadrant → ℚ) : ℝ :=
  (contours.map fun k => (w k.1 : ℝ) * k.2.area).sum

theorem weightedArea_add (contours : List (Quadrant × Contour ℚ)) (v w : Quadrant → ℚ) :
    weightedArea contours (fun q => v q + w q) =
      weightedArea contours v + weightedArea contours w := by
  rw [weightedArea, weightedArea, weightedArea, ← List.sum_map_add]
  simp only [Rat.cast_add, add_mul]

theorem weightedArea_mul (contours : List (Quadrant × Contour ℚ)) (a : ℚ) (w : Quadrant → ℚ) :
    weightedArea contours (fun q => a * w q) = a * weightedArea contours w := by
  rw [weightedArea, weightedArea, ← List.sum_map_mul_left]
  simp only [Rat.cast_mul, mul_assoc]

theorem weightedArea_indicator (contours : List (Quadrant × Contour ℚ)) (q : Quadrant) :
    weightedArea contours (fun r => if r = q then 1 else 0) =
      ((contours.filter (·.1 = q)).map (·.2.area)).sum := by
  induction contours with
  | nil => rfl
  | cons k contours ih =>
    rw [weightedArea] at ih
    rw [weightedArea, List.map_cons, List.sum_cons, ih]
    by_cases hk : k.1 = q <;> simp [hk]

theorem weightedArea_signs (contours : List (Quadrant × Contour ℚ)) (q : Quadrant) :
    weightedArea contours (fun _ => 1) + q.signX * weightedArea contours Quadrant.signX +
        q.signY * weightedArea contours Quadrant.signY +
        q.signX * q.signY * weightedArea contours (fun r => r.signX * r.signY) =
      4 * ((contours.filter (·.1 = q)).map (·.2.area)).sum := by
  have hsigns := congrArg (weightedArea contours) (funext q.sum_signs)
  rw [weightedArea_mul, weightedArea_indicator, Rat.cast_ofNat] at hsigns
  rw [← hsigns, weightedArea_add, weightedArea_add, weightedArea_add,
    weightedArea_mul, weightedArea_mul, weightedArea_mul, Rat.cast_mul]

theorem cast_sum_contribution (contours : List (Quadrant × Contour ℚ)) (half : UInt32)
    (w : Quadrant → ℚ) :
    ((contours.map fun k => nodeScale half ^ 2 / 4 * w k.1 * k.2.ratArea).sum : ℚ) =
      weightedArea contours w / (4 * half.toNat ^ 2) := by
  induction contours with
  | nil => simp [weightedArea]
  | cons k contours ih =>
    rw [List.map_cons, List.sum_cons, Rat.cast_add, ih, weightedArea, weightedArea, List.map_cons,
      List.sum_cons, Contour.area_eq, nodeScale_rat]
    push_cast
    ring

theorem coefficientsOf_rat (half : UInt32) (origin : Origin)
    (contours : List (Quadrant × Contour ℚ)) :
    coefficientsOf half origin contours =
      ⟨(contours.map fun k => (k.2.contribution half k.1).horizontal).sum,
        (contours.map fun k => (k.2.contribution half k.1).vertical).sum,
        (contours.map fun k => (k.2.contribution half k.1).diagonal).sum⟩ := by
  rw [coefficientsOf]
  simp only [Contour.dispatch_rat]
  rw [foldl_accumulate, Coefficients.accumulate_rat]
  exact congr (congr (congrArg Coefficients.mk (zero_add _)) (zero_add _)) (zero_add _)

theorem coefficients_of_closed_contours (half : UInt32) (origin : Origin)
    (contours : List (Quadrant × Contour ℚ)) :
    let h : ℝ := half.toNat
    let c := coefficientsOf half origin contours
    (c.horizontal : ℝ) = weightedArea contours Quadrant.signX / (4 * h ^ 2) ∧
    (c.vertical : ℝ) = weightedArea contours Quadrant.signY / (4 * h ^ 2) ∧
    (c.diagonal : ℝ) = weightedArea contours (fun q => q.signX * q.signY) / (4 * h ^ 2) ∧
    ∀ q : Quadrant, weightedArea contours (fun _ => 1) / (4 * h ^ 2) + q.signX * c.horizontal +
        q.signY * c.vertical + q.signX * q.signY * c.diagonal =
      ((contours.filter (·.1 = q)).map (·.2.area)).sum / h ^ 2 := by
  intro h c
  have hc := coefficientsOf_rat half origin contours
  have hhorizontal : (c.horizontal : ℝ) = weightedArea contours Quadrant.signX / (4 * h ^ 2) := by
    rw [← cast_sum_contribution]
    exact congrArg (fun c : Coefficients ℚ => (c.horizontal : ℝ)) hc
  have hvertical : (c.vertical : ℝ) = weightedArea contours Quadrant.signY / (4 * h ^ 2) := by
    rw [← cast_sum_contribution]
    exact congrArg (fun c : Coefficients ℚ => (c.vertical : ℝ)) hc
  have hdiagonal : (c.diagonal : ℝ) =
      weightedArea contours (fun q => q.signX * q.signY) / (4 * h ^ 2) := by
    rw [← cast_sum_contribution]
    exact congrArg (fun c : Coefficients ℚ => (c.diagonal : ℝ)) hc
  refine ⟨hhorizontal, hvertical, hdiagonal, fun q => ?_⟩
  rw [hhorizontal, hvertical, hdiagonal]
  have hsigns := weightedArea_signs contours q
  linear_combination hsigns / (4 * h ^ 2)

end WaveletRaster
