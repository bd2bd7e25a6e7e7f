import WaveletRaster.Point
import WaveletRaster.Quadrant

/-! Edges: straight lines, quadratic and cubic Bézier curves with their control points; and what can
be wrong with control points, a quadrant index or a half-extent. -/

namespace WaveletRaster

inductive Degree where
  | linear
  | quadratic
  | cubic
  deriving DecidableEq

namespace Degree

def value : Degree → Nat
  | linear => 1
  | quadratic => 2
  | cubic => 3

def pointCount (d : Degree) : Nat := d.value + 1

def name : Degree → String
  | linear => "Line"
  | quadratic => "Quad"
  | cubic => "Cubic"

end Degree

inductive Edge (α : Type) : Degree → Type where
  | line (a b : Point α) : Edge α .linear
  | quad (a b c : Point α) : Edge α .quadratic
  | cubic (a b c d : Point α) : Edge α .cubic
  deriving DecidableEq

namespace Edge

variable {α β : Type} {d : Degree}

def points : Edge α d → List (Point α)
  | line a b => [a, b]
  | quad a b c => [a, b, c]
  | cubic a b c d => [a, b, c, d]

def first : Edge α d → Point α
  | line a _ | quad a _ _ | cubic a _ _ _ => a

def last : Edge α d → Point α
  | line _ b => b
  | quad _ _ c => c
  | cubic _ _ _ d => d

def map (f : Point α → Point β) : Edge α d → Edge β d
  | line a b => line (f a) (f b)
  | quad a b c => quad (f a) (f b) (f c)
  | cubic a b c d => cubic (f a) (f b) (f c) (f d)

def reversed : Edge α d → Edge α d
  | line a b => line b a
  | quad a b c => quad c b a
  | cubic a b c d => cubic d c b a

def translate [Arithmetic α] (e : Edge α d) (offset : Point α) : Edge α d :=
  e.map (·.translate offset)

def isFinite [Arithmetic α] (e : Edge α d) : Bool := e.points.all Point.isFinite

def narrow {S W : Type} [Arithmetic S] [Arithmetic W] [Precision S W] (e : Edge W d) : Edge S d :=
  e.map Point.narrow

theorem length_points (e : Edge α d) : e.points.length = d.pointCount := by
  cases e <;> rfl

theorem first_mem_points (e : Edge α d) : e.first ∈ e.points := by
  cases e <;> simp [first, points]

theorem last_mem_points (e : Edge α d) : e.last ∈ e.points := by
  cases e <;> simp [last, points]

theorem points_map (f : Point α → Point β) (e : Edge α d) : (e.map f).points = e.points.map f := by
  cases e <;> rfl

theorem points_reversed (e : Edge α d) : e.reversed.points = e.points.reverse := by
  cases e <;> rfl

theorem first_reversed (e : Edge α d) : e.reversed.first = e.last := by
  cases e <;> rfl

theorem last_reversed (e : Edge α d) : e.reversed.last = e.first := by
  cases e <;> rfl

theorem reversed_reversed (e : Edge α d) : e.reversed.reversed = e := by
  cases e <;> rfl

theorem map_congr {f g : Point α → Point β} {e : Edge α d} (h : ∀ p ∈ e.points, f p = g p) :
    e.map f = e.map g := by
  cases e <;> simp_all [map, points]

theorem map_map {γ : Type} (f : Point α → Point β) (g : Point β → Point γ) (e : Edge α d) :
    (e.map f).map g = e.map (g ∘ f) := by
  cases e <;> rfl

theorem map_reversed (f : Point α → Point β) (e : Edge α d) :
    e.reversed.map f = (e.map f).reversed := by
  cases e <;> rfl

theorem points_injective {e e' : Edge α d} (h : e.points = e'.points) : e = e' := by
  cases e <;> cases e' <;> simp_all [points]

end Edge

inductive EdgeError where
  | invalidQuadrant (index : UInt32)
  | unsupportedDegree (points : Nat)
  | invalidHalfExtent (half : UInt32)
  | nonFiniteCoordinate (point : Nat)
  deriving DecidableEq

namespace EdgeError

def message : EdgeError → String
  | invalidQuadrant index => s!"Invalid quadrant index: {index} (must be 0-3)"
  | unsupportedDegree points =>
    s!"Unsupported edge degree: {points} control points (must be 2, 3 or 4)"
  | invalidHalfExtent half => s!"Invalid half-extent: {half} (must be positive)"
  | nonFiniteCoordinate point => s!"Non-finite coordinate in control point {point}"

end EdgeError

def Quadrant.ofIndex (index : UInt32) : Except EdgeError Quadrant :=
  match ofIndex? index with
  | some q => .ok q
  | none => .error (.invalidQuadrant index)

theorem Quadrant.ofIndex_eq_ok_iff {i : UInt32} {q : Quadrant} :
    Quadrant.ofIndex i = .ok q ↔ q.index = i := by
  constructor
  · intro h
    cases hq : ofIndex? i with
    | none => simp [Quadrant.ofIndex, hq] at h
    | some r =>
      have hr : r = q := by simpa [Quadrant.ofIndex, hq] using h
      exact hr ▸ index_of_ofIndex? hq
  · intro h
    rw [← h, Quadrant.ofIndex, ofIndex?_index]

end WaveletRaster
