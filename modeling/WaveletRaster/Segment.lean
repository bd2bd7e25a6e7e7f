import WaveletRaster.Descent

/-! Edges whose degree is known only from their control points. -/

namespace WaveletRaster

structure Segment (α : Type) where
  degree : Degree
  edge : Edge α degree
  deriving DecidableEq

namespace Segment

variable {α β : Type}

def line (a b : Point α) : Segment α := ⟨.linear, .line a b⟩

def quad (a b c : Point α) : Segment α := ⟨.quadratic, .quad a b c⟩

def cubic (a b c d : Point α) : Segment α := ⟨.cubic, .cubic a b c d⟩

def points (s : Segment α) : List (Point α) := s.edge.points

def pointCount (s : Segment α) : Nat := s.degree.pointCount

def first (s : Segment α) : Point α := s.edge.first

def last (s : Segment α) : Point α := s.edge.last

def reversed (s : Segment α) : Segment α := ⟨s.degree, s.edge.reversed⟩

def ofControlPoints? : List (Point α) → Option (Segment α)
  | [a, b] => some (line a b)
  | [a, b, c] => some (quad a b c)
  | [a, b, c, d] => some (cubic a b c d)
  | _ => none

/-- Refuses a point with a coordinate that is not finite, the first one, then a number of points
that no degree has. -/
def ofPoints [Arithmetic α] (points : List (Point α)) : Except EdgeError (Segment α) :=
  match points.findIdx? (!·.isFinite) with
  | some index => .error (.nonFiniteCoordinate index)
  | none =>
    match ofControlPoints? points with
    | some s => .ok s
    | none => .error (.unsupportedDegree points.length)

theorem ofControlPoints?_eq_some_iff {points : List (Point α)} {s : Segment α} :
    ofControlPoints? points = some s ↔ s.points = points := by
  constructor
  · intro h
    unfold ofControlPoints? at h
    split at h <;> cases h <;> rfl
  · rintro rfl
    obtain ⟨d, e⟩ := s
    cases e <;> rfl

theorem ofPoints_eq_ok_iff [Arithmetic α] {points : List (Point α)} {s : Segment α} :
    ofPoints points = .ok s ↔ (∀ p ∈ points, p.isFinite) ∧ s.points = points := by
  rw [← ofControlPoints?_eq_some_iff]
  cases hfinite : points.findIdx? (!·.isFinite) with
  | some i =>
    have hbad : ¬ ∀ p ∈ points, p.isFinite := by
      intro h
      rw [List.findIdx?_eq_none_iff.mpr (by simpa using h)] at hfinite
      cases hfinite
    simp [ofPoints, hfinite, hbad]
  | none =>
    have hall : ∀ p ∈ points, p.isFinite := by simpa using List.findIdx?_eq_none_iff.mp hfinite
    rw [and_iff_right hall]
    cases hs : ofControlPoints? points <;> simp [ofPoints, hfinite, hs]

section

variable {S W : Type} [Arithmetic S] [Arithmetic W] [Precision S W]

def narrow (s : Segment W) : Segment S := ⟨s.degree, s.edge.narrow⟩

def moments (s : Segment S) (scale : W) : Moments W := s.edge.moments scale

def enter (s : Segment S) (half : UInt32) (q : Quadrant) : Segment S :=
  ⟨s.degree, s.edge.enter half q⟩

def dispatch (s : Segment S) (half index : UInt32) (origin : Origin) (c : Coefficients S) :
    Segment S × Origin × Coefficients S :=
  let after := Descent.dispatch ⟨origin, s.edge, c⟩ half index
  (⟨s.degree, after.edge⟩, after.origin, after.coefficients)

theorem dispatch_index (s : Segment S) (half : UInt32) (q : Quadrant) (origin : Origin)
    (c : Coefficients S) : s.dispatch half q.index origin c =
      (s.enter half q, origin.enter half q, c.update half q (s.enter half q).edge) := by
  rw [dispatch, Descent.dispatch_index]
  rfl

def tryDispatch (s : Segment S) (half index : UInt32) (origin : Origin) (c : Coefficients S) :
    Except EdgeError (Segment S × Origin × Coefficients S) := do
  let after ← Descent.tryDispatch ⟨origin, s.edge, c⟩ half index
  return (⟨s.degree, after.edge⟩, after.origin, after.coefficients)

def descend (s : Segment S) (half : UInt32) (q : Quadrant) (origin : Origin) (c : Coefficients S) :
    Segment S × Origin × Coefficients S :=
  let after := WaveletRaster.descend half q origin s.edge c
  (⟨s.degree, after.edge⟩, after.origin, after.coefficients)

end
end Segment
end WaveletRaster
