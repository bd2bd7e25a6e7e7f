import Mathlib
import WaveletRaster.Descent

/-! Descent along a path, a half-extent and a quadrant at each level. The origin and the edge go
down the path each on its own, and what the edge adds to the coefficients depends on neither the
origin nor the coefficients. -/

namespace WaveletRaster

structure Step where
  half : UInt32
  quadrant : Quadrant
  deriving DecidableEq

def Step.distance (side : Quadrant → Bool) (t : Step) : UInt32 :=
  if side t.quadrant then t.half else 0

/-- How far the steps of a path lead along an axis, all together. -/
def travel (side : Quadrant → Bool) (path : List Step) : ℕ :=
  (path.map fun t => (t.distance side).toNat).sum

def Origin.step (o : Origin) (t : Step) : Origin := o.enter t.half t.quadrant

section
variable {S W : Type} {d : Degree} [Arithmetic S] [Arithmetic W] [Precision S W]

def Edge.step (e : Edge S d) (t : Step) : Edge S d := e.enter t.half t.quadrant

def Edge.share (e : Edge S d) (t : Step) : Coefficients W :=
  ((e.step t).moments (nodeScale t.half)).project t.quadrant

def Edge.shares (e : Edge S d) (path : List Step) : List (Coefficients W) :=
  List.zipWith share (path.scanl step e) path

def Descent.step (s : Descent S d) (t : Step) : Descent S d := s.dispatch t.half t.quadrant.index

theorem Descent.step_eq (s : Descent S d) (t : Step) :
    s.step t = ⟨s.origin.step t, s.edge.step t, s.coefficients.accumulate (s.edge.share t)⟩ := by
  rw [step, dispatch_index]
  rfl

theorem Descent.origin_foldl_step (s : Descent S d) (path : List Step) :
    (path.foldl step s).origin = path.foldl Origin.step s.origin :=
  (List.foldl_hom origin fun s t => by rw [s.step_eq]).symm

theorem Descent.edge_foldl_step (s : Descent S d) (path : List Step) :
    (path.foldl step s).edge = path.foldl Edge.step s.edge :=
  (List.foldl_hom edge fun s t => by rw [s.step_eq]).symm

theorem Descent.map_edge_scanl_step (s : Descent S d) (path : List Step) :
    (path.scanl step s).map edge = path.scanl Edge.step s.edge := by
  induction path generalizing s with
  | nil => rfl
  | cons t path ih => rw [List.scanl_cons, List.scanl_cons, List.map_cons, ih, s.step_eq]

theorem Descent.map_coefficients_scanl_step (s : Descent S d) (path : List Step) :
    (path.scanl step s).map coefficients =
      (s.edge.shares path).scanl Coefficients.accumulate s.coefficients := by
  induction path generalizing s with
  | nil => rfl
  | cons t path ih =>
    rw [List.scanl_cons, List.map_cons, ih, s.step_eq, Edge.shares, Edge.shares, List.scanl_cons,
      List.zipWith_cons_cons, List.scanl_cons]

end

namespace Origin

theorem toInt_sub_toInt32 (x : Int32) (n : UInt32) :
    (x - n.toInt32).toInt = (x.toInt - n.toNat).bmod (2 ^ 32) := by
  have hn : n.toInt32.toInt = (n.toNat : ℤ).bmod (2 ^ 32) := BitVec.toInt_eq_toNat_bmod n.toBitVec
  rw [Int32.toInt_sub, hn, Int.sub_bmod_bmod]

theorem toInt_foldl_sub (side : Quadrant → Bool) (x : Int32) (path : List Step) :
    (path.foldl (fun x t => x - (t.distance side).toInt32) x).toInt =
      (x.toInt - travel side path).bmod (2 ^ 32) := by
  induction path generalizing x with
  | nil => simp [travel, Int32.toInt_bmod]
  | cons t path ih =>
    rw [List.foldl_cons, ih, toInt_sub_toInt32, Int.bmod_sub_bmod, travel, travel, List.map_cons,
      List.sum_cons, Nat.cast_add, sub_sub]

theorem toInt_x_foldl_step (o : Origin) (path : List Step) :
    (path.foldl step o).x.toInt = (o.x.toInt - travel Quadrant.isRight path).bmod (2 ^ 32) := by
  have hx : (path.foldl step o).x =
      path.foldl (fun x t => x - (t.distance Quadrant.isRight).toInt32) o.x :=
    (List.foldl_hom x fun _ _ => rfl).symm
  rw [hx, toInt_foldl_sub]

theorem toInt_y_foldl_step (o : Origin) (path : List Step) :
    (path.foldl step o).y.toInt = (o.y.toInt - travel Quadrant.isBottom path).bmod (2 ^ 32) := by
  have hy : (path.foldl step o).y =
      path.foldl (fun y t => y - (t.distance Quadrant.isBottom).toInt32) o.y :=
    (List.foldl_hom y fun _ _ => rfl).symm
  rw [hy, toInt_foldl_sub]

end Origin

theorem Descent.parts_go_separately {d : Degree} (origin : Origin) (edge : Edge Binary32 d)
    (coefficients : Coefficients Binary32) (path : List Step) :
    let start : Descent Binary32 d := ⟨origin, edge, coefficients⟩
    let shares : List (Coefficients Binary64) := edge.shares path
    (path.foldl step start).origin.x.toInt =
      (origin.x.toInt - travel Quadrant.isRight path).bmod (2 ^ 32) ∧
    (path.foldl step start).origin.y.toInt =
      (origin.y.toInt - travel Quadrant.isBottom path).bmod (2 ^ 32) ∧
    (path.scanl step start).map Descent.edge = path.scanl Edge.step edge ∧
    (path.scanl step start).map Descent.coefficients =
      shares.scanl Coefficients.accumulate coefficients := by
  intro start shares
  have horigin := start.origin_foldl_step path
  refine ⟨?_, ?_, start.map_edge_scanl_step path, start.map_coefficients_scanl_step path⟩
  · rw [horigin, Origin.toInt_x_foldl_step]
  · rw [horigin, Origin.toInt_y_foldl_step]

end WaveletRaster
