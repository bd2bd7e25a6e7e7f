import Mathlib
import WaveletRaster.Buffers

/-! The ways into dispatch. They differ in how the edge, the origin and the coefficients are handed
over and handed back; what they make of them is one transformation. -/

namespace WaveletRaster
variable {S W : Type} [Arithmetic S] [Arithmetic W] [Precision S W]

/-- What is carried from call to call: an edge of any degree, the origin that moves with it, and the
coefficients of the node. -/
structure Carried (S : Type) where
  origin : Origin
  segment : Segment S
  coefficients : Coefficients S
  deriving DecidableEq

namespace Carried

def ofDescent {d : Degree} (s : Descent S d) : Carried S := ⟨s.origin, ⟨d, s.edge⟩, s.coefficients⟩

def descent (s : Carried S) : Descent S s.segment.degree :=
  ⟨s.origin, s.segment.edge, s.coefficients⟩

def ofParts (parts : Segment S × Origin × Coefficients S) : Carried S :=
  ⟨parts.2.1, parts.1, parts.2.2⟩

def buffers (s : Carried S) : Buffers S :=
  ⟨some s.origin, some s.segment.points, some s.coefficients⟩

def ofBuffers? : Buffers S → Option (Carried S)
  | ⟨some origin, some points, some coefficients⟩ =>
    (Segment.ofControlPoints? points).map (⟨origin, ·, coefficients⟩)
  | _ => none

def advance (s : Carried S) (half : UInt32) (q : Quadrant) : Carried S :=
  let moved := s.segment.enter half q
  ⟨s.origin.enter half q, moved, s.coefficients.update half q moved.edge⟩

end Carried

inductive EntryPoint where
  | dispatch
  | dispatchByDegree
  | enterThenUpdate
  | descend
  | segment
  | segmentDescend
  | buffers
  | checked
  | checkedSegment
  deriving DecidableEq

namespace EntryPoint

def isUnchecked : EntryPoint → Bool
  | dispatch | dispatchByDegree | segment | buffers => true
  | _ => false

def isChecked : EntryPoint → Bool
  | checked | checkedSegment => true
  | _ => false

def callByDegree (half index : UInt32) : {d : Degree} → Descent S d → Descent S d
  | .linear, s => s.dispatchLine half index
  | .quadratic, s => s.dispatchQuad half index
  | .cubic, s => s.dispatchCubic half index

/-- The state after a call, `none` for a call that is refused. A form that takes a quadrant is
called with the quadrant of the index. -/
def call (p : EntryPoint) (half index : UInt32) (s : Carried S) : Option (Carried S) :=
  let quadrant := Quadrant.ofIndex? index
  match p with
  | dispatch => some (.ofDescent (s.descent.dispatch half index))
  | dispatchByDegree => some (.ofDescent (callByDegree half index s.descent))
  | enterThenUpdate =>
    quadrant.map fun q =>
      let entered := s.descent.enter half q
      .ofDescent (entered.update half q)
  | descend =>
    quadrant.map fun q =>
      .ofDescent (WaveletRaster.descend half q s.origin s.segment.edge s.coefficients)
  | segment => some (.ofParts (s.segment.dispatch half index s.origin s.coefficients))
  | segmentDescend =>
    quadrant.map fun q => .ofParts (s.segment.descend half q s.origin s.coefficients)
  | buffers => Carried.ofBuffers? (s.buffers.dispatch s.segment.degree half index)
  | checked => (s.descent.tryDispatch half index).toOption.map .ofDescent
  | checkedSegment =>
    (s.segment.tryDispatch half index s.origin s.coefficients).toOption.map .ofParts

end EntryPoint

namespace Buffers

theorem split?_points_append {α : Type} {d : Degree} (e : Edge α d) (rest : List (Point α)) :
    split? d (e.points ++ rest) = some (e, rest) := by
  cases e <;> rfl

end Buffers

namespace Carried

omit [Arithmetic S] in
theorem ofBuffers?_buffers (s : Carried S) : ofBuffers? s.buffers = some s := by
  have hpoints : Segment.ofControlPoints? s.segment.points = some s.segment :=
    Segment.ofControlPoints?_eq_some_iff.mpr rfl
  simp only [buffers, ofBuffers?, hpoints, Option.map_some]

theorem dispatch_buffers (s : Carried S) (half index : UInt32) :
    s.buffers.dispatch s.segment.degree half index =
      (ofDescent (s.descent.dispatch half index)).buffers := by
  have hsplit := Buffers.split?_points_append s.segment.edge []
  rw [List.append_nil] at hsplit
  simp only [Buffers.dispatch, buffers, Segment.points, hsplit, List.append_nil]
  rfl

theorem ofDescent_enter_update (s : Carried S) (half : UInt32) (q : Quadrant) :
    ofDescent ((s.descent.enter half q).update half q) = s.advance half q := rfl

theorem ofDescent_dispatch (s : Carried S) (half : UInt32) (q : Quadrant) :
    ofDescent (s.descent.dispatch half q.index) = s.advance half q := by
  rw [Descent.dispatch_index, ofDescent_enter_update]

theorem ofDescent_dispatch_of_lt (s : Carried S) (half : UInt32) {index : UInt32} (h : 3 < index) :
    ofDescent (s.descent.dispatch half index) = s := by
  rw [Descent.dispatch, (Quadrant.ofIndex?_eq_none_iff index).mpr h]
  rfl

theorem tryDispatch_descent (s : Carried S) {half : UInt32} (hpos : 0 < half) (q : Quadrant) :
    s.descent.tryDispatch half q.index = .ok ((s.descent.enter half q).update half q) := by
  have hhalf : half ≠ 0 := UInt32.pos_iff_ne_zero.mp hpos
  have hindex : ¬ 3 < q.index := UInt32.not_lt.mpr q.index_le
  rw [Descent.tryDispatch_eq, if_neg hhalf, if_neg hindex, Descent.dispatch_index]

end Carried

namespace EntryPoint

theorem callByDegree_eq {d : Degree} (half index : UInt32) (s : Descent S d) :
    callByDegree half index s = s.dispatch half index := by
  cases d <;> rfl

theorem call_eq_of_isUnchecked {p : EntryPoint} (h : p.isUnchecked) (half index : UInt32)
    (s : Carried S) : p.call half index s = some (.ofDescent (s.descent.dispatch half index)) := by
  cases p with
  | dispatch => rfl
  | dispatchByDegree => rw [call, callByDegree_eq]
  | segment => rfl
  | buffers => rw [call, Carried.dispatch_buffers, Carried.ofBuffers?_buffers]
  | _ => cases h

theorem call_index (p : EntryPoint) (half : UInt32) (q : Quadrant) (s : Carried S)
    (h : p.isChecked → 0 < half) : p.call half q.index s = some (s.advance half q) := by
  by_cases hp : p.isUnchecked
  · rw [call_eq_of_isUnchecked hp, Carried.ofDescent_dispatch]
  cases p with
  | enterThenUpdate | descend | segmentDescend =>
    simp only [call, Quadrant.ofIndex?_index, Option.map_some]
    rfl
  | checked =>
    rw [call, Carried.tryDispatch_descent s (h rfl)]
    rfl
  | checkedSegment =>
    have hdispatch := Carried.tryDispatch_descent s (h rfl) q
    rw [Carried.descent] at hdispatch
    rw [call, Segment.tryDispatch, hdispatch]
    rfl
  | _ => exact absurd rfl hp

end EntryPoint

structure Call where
  half : UInt32
  index : UInt32
  deriving DecidableEq

def trace : List (EntryPoint × Call) → Carried S → Option (List (Carried S))
  | [], _ => some []
  | (p, c) :: rest, s => do
    let next ← p.call c.half c.index s
    return next :: (← trace rest next)

def visited : List Call → Carried S → List (Carried S)
  | [], _ => []
  | c :: rest, s =>
    let next := Carried.ofDescent (s.descent.dispatch c.half c.index)
    next :: visited rest next

theorem trace_eq_visited (plan : List (EntryPoint × Call)) (s : Carried S)
    (hindex : ∀ step ∈ plan, step.2.index ≤ 3)
    (hhalf : ∀ step ∈ plan, step.1.isChecked → 0 < step.2.half) :
    trace plan s = some (visited (plan.map Prod.snd) s) := by
  induction plan generalizing s with
  | nil => rfl
  | cons step plan ih =>
    obtain ⟨p, c⟩ := step
    obtain ⟨hc, hindex⟩ := List.forall_mem_cons.mp hindex
    obtain ⟨hp, hhalf⟩ := List.forall_mem_cons.mp hhalf
    obtain ⟨q, hq⟩ := Quadrant.exists_index_eq hc
    have hcall : p.call c.half c.index s =
        some (.ofDescent (s.descent.dispatch c.half c.index)) := by
      rw [← hq, EntryPoint.call_index p c.half q s hp, Carried.ofDescent_dispatch]
    rw [trace, hcall]
    simp only [Option.bind_eq_bind, Option.bind_some, ih _ hindex hhalf]
    rfl

theorem entry_points_agree (s : Carried Binary32) :
    (∀ plan : List (EntryPoint × Call), (∀ step ∈ plan, step.2.index ≤ 3) →
      (∀ step ∈ plan, step.1.isChecked → 0 < step.2.half) →
      trace plan s = some (visited (plan.map Prod.snd) s)) ∧
    ∀ (p : EntryPoint) (half index : UInt32), p.isUnchecked → 3 < index →
      p.call half index s = some s := by
  refine ⟨fun plan => trace_eq_visited plan s, fun p half index hp hindex => ?_⟩
  rw [EntryPoint.call_eq_of_isUnchecked hp, Carried.ofDescent_dispatch_of_lt s half hindex]

end WaveletRaster
