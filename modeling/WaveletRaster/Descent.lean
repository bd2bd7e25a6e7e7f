import WaveletRaster.Edge.Basic
import WaveletRaster.Edge.Moments

/-! Sending one edge into one child of a node. The edge and the origin are re-expressed in the frame
of the child; then the moments of the moved edge, projected for that child, are added to the
coefficients of the node. -/

namespace WaveletRaster

/-- What an edge carries down the tree: the origin that moves with it, its control points in the
current frame, and the coefficients of the node. -/
structure Descent (S : Type) (d : Degree) where
  origin : Origin
  edge : Edge S d
  coefficients : Coefficients S
  deriving DecidableEq

section

variable {S W : Type} {d : Degree} [Arithmetic S] [Arithmetic W] [Precision S W]

def nodeScale (half : UInt32) : W := Arithmetic.ofNat 1 / Arithmetic.ofNat half.toNat

def Quadrant.shift (q : Quadrant) (half : UInt32) : Point S :=
  let (dx, dy) := q.offset half
  ⟨-Arithmetic.ofNat dx.toNat, -Arithmetic.ofNat dy.toNat⟩

def Origin.enter (o : Origin) (half : UInt32) (q : Quadrant) : Origin :=
  let (dx, dy) := q.offset half
  o.moveBack dx dy

/-- The edge in the frame of the quadrant. An axis along which the quadrant does not move is shifted
by a negative zero, which leaves every number as it is. -/
def Edge.enter (e : Edge S d) (half : UInt32) (q : Quadrant) : Edge S d :=
  e.translate (q.shift half)

theorem Edge.enter_reversed (e : Edge S d) (half : UInt32) (q : Quadrant) :
    e.reversed.enter half q = (e.enter half q).reversed :=
  e.map_reversed _

def Coefficients.update (c : Coefficients S) (half : UInt32) (q : Quadrant) (e : Edge S d) :
    Coefficients S :=
  c.accumulate ((e.moments (nodeScale half)).project q)

def descend (half : UInt32) (q : Quadrant) (origin : Origin) (edge : Edge S d)
    (coefficients : Coefficients S) : Descent S d :=
  let edge := edge.enter half q
  { origin := origin.enter half q, edge, coefficients := coefficients.update half q edge }

namespace Descent

def enter (s : Descent S d) (half : UInt32) (q : Quadrant) : Descent S d :=
  { s with origin := s.origin.enter half q, edge := s.edge.enter half q }

def update (s : Descent S d) (half : UInt32) (q : Quadrant) : Descent S d :=
  { s with coefficients := s.coefficients.update half q s.edge }

/-- Sends the edge into the child with this index. An index that names no child changes nothing, and
a half-extent of zero is computed like any other. -/
def dispatch (s : Descent S d) (half index : UInt32) : Descent S d :=
  match Quadrant.ofIndex? index with
  | none => s
  | some q => (s.enter half q).update half q

def tryDispatch (s : Descent S d) (half index : UInt32) : Except EdgeError (Descent S d) :=
  if half = 0 then .error (.invalidHalfExtent half)
  else do
    let q ← Quadrant.ofIndex index
    return (s.enter half q).update half q

theorem dispatch_index (s : Descent S d) (half : UInt32) (q : Quadrant) :
    s.dispatch half q.index = (s.enter half q).update half q := by
  rw [dispatch, Quadrant.ofIndex?_index]

theorem tryDispatch_eq (s : Descent S d) (half index : UInt32) :
    s.tryDispatch half index =
      if half = 0 then .error (.invalidHalfExtent half)
      else if 3 < index then .error (.invalidQuadrant index)
      else .ok (s.dispatch half index) := by
  rw [tryDispatch]
  by_cases hindex : 3 < index
  · have hnone := (Quadrant.ofIndex?_eq_none_iff index).mpr hindex
    rw [if_pos hindex, Quadrant.ofIndex, hnone]
    rfl
  · obtain ⟨q, rfl⟩ := Quadrant.exists_index_eq (UInt32.not_lt.mp hindex)
    rw [if_neg hindex, dispatch_index, Quadrant.ofIndex_eq_ok_iff.mpr rfl]
    rfl

def dispatchLine (s : Descent S .linear) (half index : UInt32) : Descent S .linear :=
  s.dispatch half index

def dispatchQuad (s : Descent S .quadratic) (half index : UInt32) : Descent S .quadratic :=
  s.dispatch half index

def dispatchCubic (s : Descent S .cubic) (half index : UInt32) : Descent S .cubic :=
  s.dispatch half index

end Descent
end
end WaveletRaster
