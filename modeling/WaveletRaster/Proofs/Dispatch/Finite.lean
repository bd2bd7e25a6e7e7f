import Mathlib
import WaveletRaster.Proofs.Dispatch.Checked
import WaveletRaster.Proofs.Edge.Finite
import WaveletRaster.Proofs.Job.Problem

/-! Finite control points stay finite, whatever is done with an edge and however often. Whichever
way it is called, an operation leaves the points alone, turns them around, or moves the first of
them into the frame of a quadrant; and no half-extent reaches half a step at the largest finite
number. -/

namespace WaveletRaster
variable {S W : Type} [Arithmetic S] [Arithmetic W] [Precision S W]

/-- What an operation can make of a list of control points: all of them stay, they come in the other
order, or those at the front enter a quadrant. -/
inductive Moves : List (Point S) → List (Point S) → Prop
  | kept (points : List (Point S)) : Moves points points
  | reversed (points : List (Point S)) : Moves points points.reverse
  | entered {d : Degree} (e : Edge S d) (rest : List (Point S)) (half : UInt32) (q : Quadrant) :
    Moves (e.points ++ rest) ((e.enter half q).points ++ rest)

namespace Moves

theorem enter (s : Segment S) (half : UInt32) (q : Quadrant) :
    Moves s.points (s.enter half q).points := by
  have h := Moves.entered s.edge [] half q
  rwa [List.append_nil, List.append_nil] at h

theorem reverse (s : Segment S) : Moves s.points s.reversed.points := by
  have hpoints : s.reversed.points = s.points.reverse := s.edge.points_reversed
  rw [hpoints]
  exact .reversed s.points

theorem dispatch {d : Degree} (s : Descent S d) (rest : List (Point S)) (half index : UInt32) :
    Moves (s.edge.points ++ rest) ((s.dispatch half index).edge.points ++ rest) := by
  cases hq : Quadrant.ofIndex? index with
  | none =>
    rw [Descent.dispatch, hq]
    exact .kept _
  | some q =>
    rw [Descent.dispatch, hq]
    exact .entered s.edge rest half q

theorem dispatch_edge {d : Degree} (s : Descent S d) (half index : UInt32) :
    Moves s.edge.points (s.dispatch half index).edge.points := by
  have h := dispatch s [] half index
  rwa [List.append_nil, List.append_nil] at h

theorem length_eq {before after : List (Point S)} (h : Moves before after) :
    after.length = before.length := by
  cases h with
  | kept => rfl
  | reversed => exact List.length_reverse
  | entered e rest half q => simp only [List.length_append, Edge.length_points]

theorem isFinite {before after : List (Point Binary32)} (h : Moves before after)
    (hbefore : ∀ p ∈ before, p.isFinite) : ∀ p ∈ after, p.isFinite := by
  cases h with
  | kept => exact hbefore
  | reversed => exact fun p hp => hbefore p (List.mem_reverse.mp hp)
  | entered e rest half q =>
    obtain ⟨he, hrest⟩ := List.forall_mem_append.mp hbefore
    have hmoved := Edge.isFinite_enter (Edge.isFinite_iff.mpr he) half q
    exact List.forall_mem_append.mpr ⟨Edge.isFinite_iff.mp hmoved, hrest⟩

end Moves

namespace Carried

def dispatchThrough (s : Carried S) (given : Pointers) (d : Degree) (half index : UInt32) :
    Carried S :=
  (ofBuffers? (s.buffers.dispatchThrough given d half index)).getD s

theorem dispatchThrough_buffers (s : Carried S) (given : Pointers) (d : Degree)
    (half index : UInt32) :
    s.buffers.dispatchThrough given d half index =
      if given = ⟨true, true, true⟩ then s.buffers.dispatch d half index else s.buffers :=
  s.buffers.dispatchThrough_eq given d half index

theorem exists_buffers_eq_dispatch (s : Carried S) (d : Degree) (half index : UInt32) :
    ∃ t : Carried S, t.buffers = s.buffers.dispatch d half index ∧
      Moves s.segment.points t.segment.points := by
  simp only [Buffers.dispatch, buffers]
  cases hsplit : Buffers.split? d s.segment.points with
  | none => exact ⟨s, rfl, .kept _⟩
  | some front =>
    obtain ⟨e, rest⟩ := front
    let after := Descent.dispatch ⟨s.origin, e, s.coefficients⟩ half index
    have hmoves : Moves s.segment.points (after.edge.points ++ rest) := by
      rw [Buffers.eq_of_split? hsplit]
      exact .dispatch ⟨s.origin, e, s.coefficients⟩ rest half index
    have hlength := Segment.exists_points_eq_iff.mp ⟨s.segment, rfl⟩
    rw [← hmoves.length_eq] at hlength
    obtain ⟨segment, hpoints⟩ := Segment.exists_points_eq_iff.mpr hlength
    refine ⟨⟨after.origin, segment, after.coefficients⟩, ?_, hpoints ▸ hmoves⟩
    rw [hpoints]

theorem exists_buffers_eq_dispatchThrough (s : Carried S) (given : Pointers) (d : Degree)
    (half index : UInt32) :
    ∃ t : Carried S, t.buffers = s.buffers.dispatchThrough given d half index ∧
      Moves s.segment.points t.segment.points := by
  rw [dispatchThrough_buffers]
  split
  · exact exists_buffers_eq_dispatch s d half index
  · exact ⟨s, rfl, .kept _⟩

theorem moves_dispatchThrough (s : Carried S) (given : Pointers) (d : Degree)
    (half index : UInt32) :
    Moves s.segment.points (s.dispatchThrough given d half index).segment.points := by
  obtain ⟨t, hbuffers, hmoves⟩ := s.exists_buffers_eq_dispatchThrough given d half index
  rw [dispatchThrough, ← hbuffers, ofBuffers?_buffers]
  exact hmoves

end Carried

theorem EntryPoint.moves_of_call {p : EntryPoint} {half index : UInt32} {s t : Carried S}
    (h : p.call half index s = some t) : Moves s.segment.points t.segment.points := by
  by_cases hp : p.isUnchecked
  · rw [call_eq_of_isUnchecked hp] at h
    cases h
    exact .dispatch_edge s.descent half index
  cases p with
  | enterThenUpdate | descend | segmentDescend =>
    obtain ⟨q, -, rfl⟩ := Option.map_eq_some_iff.mp h
    exact .enter s.segment half q
  | checked =>
    rw [call, Descent.tryDispatch_eq] at h
    split_ifs at h <;> cases h
    exact .dispatch_edge s.descent half index
  | checkedSegment =>
    rw [call, Segment.tryDispatch, Descent.tryDispatch_eq] at h
    split_ifs at h <;> cases h
    exact .dispatch_edge s.descent half index
  | _ => exact absurd rfl hp

inductive Operation where
  | call (entry : EntryPoint) (half index : UInt32)
  | callThrough (given : Pointers) (d : Degree) (half index : UInt32)
  | enter (half : UInt32) (q : Quadrant)
  | reverse
  deriving DecidableEq

namespace Operation

def perform : Operation → Carried S → Carried S
  | call entry half index, s => (entry.call half index s).getD s
  | callThrough given d half index, s => s.dispatchThrough given d half index
  | enter half q, s => .ofDescent (s.descent.enter half q)
  | reverse, s => { s with segment := s.segment.reversed }

def states : List Operation → Carried S → List (Carried S)
  | [], s => [s]
  | op :: ops, s => s :: states ops (op.perform s)

theorem foldl_perform_mem_states (ops : List Operation) (s : Carried S) :
    ops.foldl (fun s op => op.perform s) s ∈ states ops s := by
  induction ops generalizing s with
  | nil => exact List.mem_singleton_self s
  | cons op ops ih => exact List.mem_cons_of_mem s (ih (op.perform s))

theorem moves_perform (op : Operation) (s : Carried S) :
    Moves s.segment.points (op.perform s).segment.points := by
  cases op with
  | call entry half index =>
    rw [perform]
    cases hcall : entry.call half index s with
    | none => exact .kept _
    | some t => exact EntryPoint.moves_of_call hcall
  | callThrough given d half index => exact s.moves_dispatchThrough given d half index
  | enter half q => exact .enter s.segment half q
  | reverse => exact .reverse s.segment

theorem isFinite_of_mem_states {s t : Carried Binary32} {ops : List Operation}
    (h : ∀ p ∈ s.segment.points, p.isFinite) (ht : t ∈ states ops s) :
    ∀ p ∈ t.segment.points, p.isFinite := by
  induction ops generalizing s with
  | nil =>
    rw [List.mem_singleton.mp ht]
    exact h
  | cons op ops ih =>
    rcases List.mem_cons.mp ht with rfl | ht
    · exact h
    · exact ih ((op.moves_perform s).isFinite h) ht

end Operation

theorem finite_points_stay_finite :
    (∀ s : Carried Binary32, (∀ p ∈ s.segment.points, p.isFinite) →
      ∀ (ops : List Operation), ∀ t ∈ Operation.states ops s,
        (∀ p ∈ t.segment.points, p.isFinite) ∧
        Segment.ofPoints t.segment.points = .ok t.segment) ∧
    ∀ (points : List (Point Binary32)) (s : Segment Binary32), Segment.ofPoints points = .ok s →
      ∀ (half index : UInt32) (q : Quadrant) (origin : Origin) (c : Coefficients Binary32),
        ∀ t ∈ [s.reversed, (s.dispatch half index origin c).1, (s.descend half q origin c).1],
          (∀ p ∈ t.points, p.isFinite) ∧ Segment.ofPoints t.points = .ok t := by
  have haccepted {t : Segment Binary32} (ht : ∀ p ∈ t.points, p.isFinite) :
      (∀ p ∈ t.points, p.isFinite) ∧ Segment.ofPoints t.points = .ok t :=
    ⟨ht, Segment.ofPoints_eq_ok_iff.mpr ⟨ht, rfl⟩⟩
  constructor
  · intro s h ops t ht
    exact haccepted (Operation.isFinite_of_mem_states h ht)
  · intro points s hs half index q origin c t ht
    obtain ⟨hfinite, rfl⟩ := Segment.ofPoints_eq_ok_iff.mp hs
    have hmoves : Moves s.points t.points := by
      simp only [List.mem_cons, List.not_mem_nil, or_false] at ht
      rcases ht with rfl | rfl | rfl
      · exact .reverse s
      · exact .dispatch_edge ⟨origin, s.edge, c⟩ half index
      · exact .enter s half q
    exact haccepted (hmoves.isFinite hfinite)

theorem finite_points_stay_finite_at_the_limit :
    let largest : Binary32 := .ofNat (2 ^ 128 - 2 ^ 104)
    let s : Carried Binary32 := ⟨⟨0, 0⟩, .quad ⟨-largest, largest⟩ ⟨.ofNat 3, .ofNat 1⟩
      ⟨largest, -largest⟩, .zero⟩
    let ops : List Operation := [.call .dispatch 4294967295 3, .call .checkedSegment 0 7,
      .callThrough ⟨true, true, true⟩ .linear 0 3, .callThrough ⟨true, false, true⟩ .quadratic 9 3,
      .reverse, .enter 4294967295 .bottomRight]
    let last := ops.foldl (fun s op => op.perform s) s
    (∀ p ∈ last.segment.points, p.isFinite) ∧
    Segment.ofPoints last.segment.points = .ok last.segment ∧
    last.segment.points = [⟨largest, -largest⟩, ⟨-.ofNat (2 ^ 33), -.ofNat (2 ^ 33)⟩,
      ⟨-largest, largest⟩] ∧
    Segment.ofPoints s.segment.reversed.points = .ok s.segment.reversed := by
  intro largest s ops last
  have hlast : last ∈ Operation.states ops s := Operation.foldl_perform_mem_states ops s
  obtain ⟨hruns, hsegments⟩ := finite_points_stay_finite
  obtain ⟨hfinite, haccepted⟩ := hruns s (by decide +kernel) ops last hlast
  have hreversed := hsegments s.segment.points s.segment (by decide +kernel) 0 0 .topLeft ⟨0, 0⟩
    .zero s.segment.reversed (List.mem_cons_self ..)
  exact ⟨hfinite, haccepted, by decide +kernel, hreversed.2⟩

end WaveletRaster
