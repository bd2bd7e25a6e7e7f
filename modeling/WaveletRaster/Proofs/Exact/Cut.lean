import Mathlib
import WaveletRaster.Proofs.Bezier.Subdivision
import WaveletRaster.Proofs.Exact.Descent

/-! Edges cut into pieces, in exact arithmetic. The moments of the pieces add up to those of the
edge, and so do their contributions to a node, however often the pieces are cut again. -/

namespace WaveletRaster

/-- Where an edge is cut, and where its pieces are cut further. -/
inductive Cuts where
  | whole
  | cut (t : ℚ) (front back : Cuts)

namespace Edge
variable {d : Degree}

def pieces (e : Edge ℚ d) : Cuts → List (Edge ℚ d)
  | .whole => [e]
  | .cut t front back => (e.split t).1.pieces front ++ (e.split t).2.pieces back

def dispatchAll {S W : Type} [Arithmetic S] [Arithmetic W] [Precision S W]
    (edges : List (Edge S d)) (half : UInt32) (q : Quadrant) (origin : Origin)
    (c : Coefficients S) : Coefficients S :=
  edges.foldl (fun c e => (Descent.dispatch ⟨origin, e, c⟩ half q.index).coefficients) c

theorem dispatchAll_append {S W : Type} [Arithmetic S] [Arithmetic W] [Precision S W]
    (front back : List (Edge S d)) (half : UInt32) (q : Quadrant) (origin : Origin)
    (c : Coefficients S) : dispatchAll (front ++ back) half q origin c =
      dispatchAll back half q origin (dispatchAll front half q origin c) :=
  List.foldl_append

end Edge

namespace Moments

instance : Add (Moments ℚ) := ⟨fun m n => ⟨m.kx + n.kx, m.ky + n.ky, m.lx + n.lx, m.ly + n.ly⟩⟩

instance : Zero (Moments ℚ) := ⟨⟨0, 0, 0, 0⟩⟩

theorem add_eq (m n : Moments ℚ) :
    m + n = ⟨m.kx + n.kx, m.ky + n.ky, m.lx + n.lx, m.ly + n.ly⟩ := rfl

theorem zero_eq : (0 : Moments ℚ) = ⟨0, 0, 0, 0⟩ := rfl

instance : AddMonoid (Moments ℚ) where
  add_assoc m n k := by simp only [add_eq, add_assoc]
  zero_add m := by simp only [add_eq, zero_eq, zero_add]
  add_zero m := by simp only [add_eq, zero_eq, add_zero]
  nsmul := nsmulRec

theorem project_add (m n : Moments ℚ) (q : Quadrant) :
    (m + n).project q = (m.project q).zipWith (· + ·) (n.project q) := by
  rw [project_eq, project_eq, project_eq, add_eq, Coefficients.zipWith]
  congr 1 <;> ring

end Moments

theorem Coefficients.accumulate_accumulate (c delta delta' : Coefficients ℚ) :
    (c.accumulate delta).accumulate delta' = c.accumulate (delta.zipWith (· + ·) delta') := by
  simp only [accumulate_rat, zipWith, add_assoc]

namespace Edge
variable {d : Degree}

theorem moments_split (e : Edge ℚ d) (t r : ℚ) :
    (e.split t).1.moments r + (e.split t).2.moments r = e.moments r := by
  have hfirst : (e.split t).1.first = e.first := by cases e <;> rfl
  have hmeet : (e.split t).1.last = (e.split t).2.first := by cases e <;> rfl
  have hlast : (e.split t).2.last = e.last := by cases e <;> rfl
  have hxy := e.along_split t Point.isAffine_x Point.isAffine_y
  have hyx := e.along_split t Point.isAffine_y Point.isAffine_x
  rw [moments_eq, moments_eq, moments_eq, Moments.add_eq, hfirst, hmeet, hlast, ← hxy, ← hyx]
  congr 1 <;> ring

theorem contribution_split (e : Edge ℚ d) (t : ℚ) (half : UInt32) (q : Quadrant) :
    ((e.split t).1.contribution half q).zipWith (· + ·) ((e.split t).2.contribution half q) =
      e.contribution half q := by
  have henter : (e.enter half q).split t =
      ((e.split t).1.enter half q, (e.split t).2.enter half q) := e.split_translate t _
  have hsum := (e.enter half q).moments_split t (nodeScale half)
  rw [henter] at hsum
  rw [contribution, contribution, contribution, ← Moments.project_add, hsum]

theorem sum_moments_pieces (e : Edge ℚ d) (r : ℚ) (cuts : Cuts) :
    ((e.pieces cuts).map fun piece => piece.moments r).sum = e.moments r := by
  induction cuts generalizing e with
  | whole => simp [pieces]
  | cut t front back ihfront ihback =>
    rw [pieces, List.map_append, List.sum_append, ihfront, ihback, moments_split]

theorem dispatchAll_pieces (e : Edge ℚ d) (half : UInt32) (q : Quadrant) (origin : Origin)
    (c : Coefficients ℚ) (cuts : Cuts) :
    dispatchAll (e.pieces cuts) half q origin c = c.accumulate (e.contribution half q) := by
  induction cuts generalizing e c with
  | whole => exact Descent.coefficients_dispatch ⟨origin, e, c⟩ half q
  | cut t front back ihfront ihback =>
    rw [pieces, dispatchAll_append, ihfront, ihback, Coefficients.accumulate_accumulate,
      contribution_split]

theorem cutting_changes_nothing (e : Edge ℚ d) (half : UInt32) (q : Quadrant) (origin : Origin)
    (c : Coefficients ℚ) :
    let after := (Descent.dispatch ⟨origin, e, c⟩ half q.index).coefficients
    (∀ t r, (e.split t).1.moments r + (e.split t).2.moments r = e.moments r) ∧
    (∀ t, dispatchAll [(e.split t).1, (e.split t).2] half q origin c = after) ∧
    ∀ cuts, (∀ r, ((e.pieces cuts).map fun piece => piece.moments r).sum = e.moments r) ∧
      dispatchAll (e.pieces cuts) half q origin c = after := by
  intro after
  have hafter : after = c.accumulate (e.contribution half q) :=
    Descent.coefficients_dispatch ⟨origin, e, c⟩ half q
  have hpieces (cuts : Cuts) : dispatchAll (e.pieces cuts) half q origin c = after :=
    (e.dispatchAll_pieces half q origin c cuts).trans hafter.symm
  exact ⟨fun t r => e.moments_split t r, fun t => hpieces (.cut t .whole .whole),
    fun cuts => ⟨fun r => e.sum_moments_pieces r cuts, hpieces cuts⟩⟩

end Edge
end WaveletRaster
