import Mathlib
import WaveletRaster.Proofs.Dispatch.Finite

/-! What a call through pointers leaves alone. It takes as many points from the front of the buffer
as its degree has and never looks at those behind them, so that over any number of calls the points
behind the longest edge stay where they are. -/

namespace WaveletRaster
variable {S W : Type} [Arithmetic S] [Arithmetic W] [Precision S W]

theorem Edge.exists_points_eq_iff {α : Type} {d : Degree} {points : List (Point α)} :
    (∃ e : Edge α d, e.points = points) ↔ points.length = d.pointCount := by
  constructor
  · rintro ⟨e, rfl⟩
    exact e.length_points
  · intro h
    cases d with
    | linear =>
      obtain ⟨a, b, rfl⟩ := List.length_eq_two.mp h
      exact ⟨line a b, rfl⟩
    | quadratic =>
      obtain ⟨a, b, c, rfl⟩ := List.length_eq_three.mp h
      exact ⟨quad a b c, rfl⟩
    | cubic =>
      obtain ⟨a, b, c, d, rfl⟩ := List.length_eq_four.mp h
      exact ⟨cubic a b c d, rfl⟩

namespace Buffers

theorem dispatch_points_append {d : Degree} (e : Edge S d) (rest : List (Point S))
    (origin : Origin) (c : Coefficients S) (half index : UInt32) :
    dispatch d ⟨some origin, some (e.points ++ rest), some c⟩ half index =
      let after := Descent.dispatch ⟨origin, e, c⟩ half index
      ⟨some after.origin, some (after.edge.points ++ rest), some after.coefficients⟩ := by
  simp only [dispatch, split?_points_append]

def behind (b : Buffers S) (k : Nat) : List (Point S) := (b.points.getD []).drop k

theorem behind_dispatch (b : Buffers S) {d : Degree} {k : Nat} (h : d.pointCount ≤ k)
    (half index : UInt32) : (b.dispatch d half index).behind k = b.behind k := by
  unfold dispatch
  split
  · split
    · rfl
    · rename_i points _ e rest hsplit
      have hdrop (e : Edge S d) : (e.points ++ rest).drop k = rest.drop (k - d.pointCount) := by
        rw [List.drop_append, List.drop_eq_nil_of_le (e.length_points ▸ h), e.length_points,
          List.nil_append]
      simp only [behind, eq_of_split? hsplit, Option.getD_some, hdrop]
  · rfl

theorem behind_dispatchThrough (b : Buffers S) (given : Pointers) {d : Degree} {k : Nat}
    (h : d.pointCount ≤ k) (half index : UInt32) :
    (b.dispatchThrough given d half index).behind k = b.behind k := by
  rw [dispatchThrough_eq]
  split_ifs
  · exact b.behind_dispatch h half index
  · rfl

end Buffers

inductive CallerStep (S : Type) where
  | call (given : Pointers) (d : Degree) (half index : UInt32)
  | putOrigin (origin : Origin)
  | putCoefficients (coefficients : Coefficients S)
  deriving DecidableEq

namespace CallerStep

def perform (b : Buffers S) : CallerStep S → Buffers S
  | call given d half index => b.dispatchThrough given d half index
  | putOrigin origin => { b with origin := some origin }
  | putCoefficients coefficients => { b with coefficients := some coefficients }

/-- How many points the step may touch. -/
def extent : CallerStep S → Nat
  | call _ d _ _ => d.pointCount
  | putOrigin _ | putCoefficients _ => 0

theorem behind_perform (b : Buffers S) {step : CallerStep S} {k : Nat} (h : step.extent ≤ k) :
    (step.perform b).behind k = b.behind k := by
  cases step with
  | call given d half index => exact b.behind_dispatchThrough given h half index
  | putOrigin => rfl
  | putCoefficients => rfl

theorem behind_of_mem_scanl {steps : List (CallerStep S)} {b t : Buffers S} {k : Nat}
    (h : ∀ step ∈ steps, step.extent ≤ k) (ht : t ∈ steps.scanl perform b) :
    t.behind k = b.behind k := by
  induction steps generalizing b with
  | nil => rw [List.mem_singleton.mp ht]
  | cons step steps ih =>
    obtain ⟨hstep, hsteps⟩ := List.forall_mem_cons.mp h
    rw [List.scanl_cons] at ht
    rcases List.mem_cons.mp ht with rfl | ht
    · rfl
    · rw [ih hsteps ht, behind_perform b hstep]

end CallerStep

theorem calls_touch_only_their_points :
    (∀ (d : Degree) (half index : UInt32) (origin : Origin) (points : List (Point Binary32))
      (c : Coefficients Binary32), d.pointCount ≤ points.length →
      ∃ e : Edge Binary32 d, e.points = points.take d.pointCount ∧
        let after := Descent.dispatch ⟨origin, e, c⟩ half index
        Buffers.dispatchThrough ⟨true, true, true⟩ d ⟨some origin, some points, some c⟩ half index =
          ⟨some after.origin, some (after.edge.points ++ points.drop d.pointCount),
            some after.coefficients⟩) ∧
    (∀ (given : Pointers) (d : Degree) (b : Buffers Binary32) (half index : UInt32),
      given ≠ ⟨true, true, true⟩ → b.dispatchThrough given d half index = b) ∧
    ∀ (steps : List (CallerStep Binary32)) (k : Nat), (∀ step ∈ steps, step.extent ≤ k) →
      ∀ b : Buffers Binary32, ∀ t ∈ steps.scanl CallerStep.perform b, t.behind k = b.behind k := by
  refine ⟨?_, ?_, ?_⟩
  · intro d half index origin points c hlength
    obtain ⟨e, he⟩ := Edge.exists_points_eq_iff.mpr (List.length_take_of_le hlength)
    refine ⟨e, he, ?_⟩
    have hdispatch :=
      Buffers.dispatch_points_append e (points.drop d.pointCount) origin c half index
    rw [he, List.take_append_drop] at hdispatch
    rw [Buffers.dispatchThrough_eq, if_pos rfl, hdispatch]
  · intro given d b half index hgiven
    rw [Buffers.dispatchThrough_eq, if_neg hgiven]
  · intro steps k hsteps b t ht
    exact CallerStep.behind_of_mem_scanl hsteps ht

theorem calls_touch_only_their_points_of_five :
    let p (n : Nat) : Point Binary32 := ⟨.ofNat n, .ofNat (n + 1)⟩
    let b : Buffers Binary32 := ⟨some ⟨0, 0⟩, some [p 5, p 6, p 7, p 8, p 9], some .zero⟩
    let all : Pointers := ⟨true, true, true⟩
    let steps : List (CallerStep Binary32) := [.call all .linear 4 3,
      .call ⟨true, true, false⟩ .cubic 4 3, .putOrigin ⟨9, -9⟩, .call all .quadratic 2 1]
    (b.dispatchThrough all .linear 4 3).points = some [p 1, p 2, p 7, p 8, p 9] ∧
    b.dispatchThrough ⟨true, true, false⟩ .cubic 4 3 = b ∧
    ∀ t ∈ steps.scanl CallerStep.perform b, t.behind 4 = [p 9] := by
  intro p b all steps
  obtain ⟨hcall, hnull, hrun⟩ := calls_touch_only_their_points
  obtain ⟨e, he, hafter⟩ := hcall .linear 4 3 ⟨0, 0⟩ [p 5, p 6, p 7, p 8, p 9] .zero (by decide)
  obtain rfl : e = .line (p 5) (p 6) := Edge.points_injective he
  refine ⟨?_, hnull ⟨true, true, false⟩ .cubic b 4 3 (by decide), hrun steps 4 (by decide) b⟩
  rw [hafter]
  decide +kernel

end WaveletRaster
