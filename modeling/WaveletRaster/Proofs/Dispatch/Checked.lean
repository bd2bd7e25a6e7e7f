import Mathlib
import WaveletRaster.Proofs.Dispatch.EntryPoint

/-! Checked dispatch on buffers that change in place. Both checks come before the first write, so a
refused call leaves every buffer as it was, and a run of calls comes to what its accepted calls do
unchecked. -/

namespace WaveletRaster

/-- Work in place on a state. A refusal does not take back what was written before it. -/
abbrev InPlace (σ : Type) := ExceptT EdgeError (StateM σ)

def InPlace.outcome {σ : Type} (work : InPlace σ Unit) (s : σ) : Except EdgeError Unit × σ :=
  (work.run.run s).run

def settle {σ : Type} (before : σ) : Except EdgeError σ → Except EdgeError Unit × σ
  | .ok after => (.ok (), after)
  | .error e => (.error e, before)

variable {S W : Type} [Arithmetic S] [Arithmetic W] [Precision S W]

namespace Descent
variable {d : Degree}

/-- The checked form in place: the checks, then the origin, the edge and the coefficients. -/
def tryDispatchInPlace (half index : UInt32) : InPlace (Descent S d) Unit := do
  if half = 0 then throw (.invalidHalfExtent half)
  let q ← MonadExcept.ofExcept (Quadrant.ofIndex index)
  modify fun s => { s with origin := s.origin.enter half q }
  modify fun s => { s with edge := s.edge.enter half q }
  modify fun s => { s with coefficients := s.coefficients.update half q s.edge }

theorem outcome_tryDispatchInPlace (s : Descent S d) (half index : UInt32) :
    (tryDispatchInPlace half index).outcome s = settle s (s.tryDispatch half index) := by
  rw [tryDispatch]
  by_cases hhalf : half = 0
  · subst hhalf
    rfl
  rw [if_neg hhalf]
  cases hq : Quadrant.ofIndex index with
  | error e =>
    simp only [tryDispatchInPlace, if_neg hhalf, hq]
    rfl
  | ok q =>
    simp only [tryDispatchInPlace, if_neg hhalf, hq]
    rfl

end Descent

def Carried.dispatch (s : Carried S) (c : Call) : Carried S :=
  .ofDescent (s.descent.dispatch c.half c.index)

inductive CheckedForm where
  | points
  | segment
  deriving DecidableEq

namespace CheckedForm

def perform (form : CheckedForm) (c : Call) (s : Carried S) : Except EdgeError Unit × Carried S :=
  settle s (match form with
    | points => (s.descent.tryDispatch c.half c.index).map .ofDescent
    | segment => (s.segment.tryDispatch c.half c.index s.origin s.coefficients).map .ofParts)

theorem perform_eq_settle (form : CheckedForm) (c : Call) (s : Carried S) :
    form.perform c s = settle s ((s.descent.tryDispatch c.half c.index).map .ofDescent) := by
  cases form with
  | points => rfl
  | segment =>
    rw [perform, Segment.tryDispatch, Carried.descent]
    cases Descent.tryDispatch ⟨s.origin, s.segment.edge, s.coefficients⟩ c.half c.index <;> rfl

theorem perform_eq (form : CheckedForm) (c : Call) (s : Carried S) :
    form.perform c s =
      if c.half = 0 then (.error (.invalidHalfExtent c.half), s)
      else if 3 < c.index then (.error (.invalidQuadrant c.index), s)
      else (.ok (), s.dispatch c) := by
  rw [perform_eq_settle, Descent.tryDispatch_eq]
  split_ifs <;> rfl

theorem perform_eq_inPlace (form : CheckedForm) (c : Call) (s : Carried S) :
    form.perform c s = Prod.map id Carried.ofDescent
      ((Descent.tryDispatchInPlace c.half c.index).outcome s.descent) := by
  rw [perform_eq_settle, Descent.outcome_tryDispatchInPlace]
  cases s.descent.tryDispatch c.half c.index <;> rfl

end CheckedForm

def performAll (plan : List (CheckedForm × Call)) (s : Carried S) : Carried S :=
  plan.foldl (fun s step => (step.1.perform step.2 s).2) s

theorem performAll_eq (plan : List (CheckedForm × Call)) (s : Carried S) :
    performAll plan s = ((plan.map Prod.snd).filter fun c => c.half ≠ 0 ∧ c.index ≤ 3).foldl
      Carried.dispatch s := by
  induction plan generalizing s with
  | nil => rfl
  | cons step plan ih =>
    obtain ⟨form, c⟩ := step
    have hafter : performAll ((form, c) :: plan) s = performAll plan (form.perform c s).2 := rfl
    rw [hafter, ih, List.map_cons, List.filter_cons, form.perform_eq]
    by_cases hhalf : c.half = 0
    · simp [hhalf]
    by_cases hindex : 3 < c.index
    · simp [hhalf, hindex, UInt32.not_le.mpr hindex]
    · simp [hhalf, hindex, UInt32.not_lt.mp hindex]

theorem checked_calls_are_atomic (s : Carried Binary32) :
    (∀ (form : CheckedForm) (c : Call),
      let outcome := form.perform c s
      outcome = Prod.map id Carried.ofDescent
        ((Descent.tryDispatchInPlace c.half c.index).outcome s.descent) ∧
      ((∃ e, outcome.1 = .error e) ↔ c.half = 0 ∨ 3 < c.index) ∧
      (c.half = 0 → outcome.1 = .error (.invalidHalfExtent c.half)) ∧
      (c.half ≠ 0 → 3 < c.index → outcome.1 = .error (.invalidQuadrant c.index)) ∧
      (∀ e, outcome.1 = .error e → outcome.2 = s) ∧
      (outcome.1 = .ok () → outcome.2 = s.dispatch c)) ∧
    ∀ plan : List (CheckedForm × Call),
      performAll plan s = ((plan.map Prod.snd).filter fun c => c.half ≠ 0 ∧ c.index ≤ 3).foldl
        Carried.dispatch s := by
  refine ⟨fun form c => ⟨form.perform_eq_inPlace c s, ?_⟩, fun plan => performAll_eq plan s⟩
  rw [form.perform_eq]
  by_cases hhalf : c.half = 0
  · simp [hhalf]
  by_cases hindex : 3 < c.index
  · simp [hhalf, hindex]
  · simp [hhalf, hindex]

theorem checked_calls_are_atomic_mixed :
    let p (x y : Nat) : Point Binary32 := ⟨.ofNat x, .ofNat y⟩
    let s : Carried Binary32 := ⟨⟨5, 7⟩, .quad (p 6 5) (p 7 6) (p 6 7), .zero⟩
    let plan : List (CheckedForm × Call) := [(.points, ⟨0, 9⟩), (.segment, ⟨4, 3⟩),
      (.segment, ⟨2, 4⟩), (.points, ⟨2, 1⟩), (.points, ⟨0, 0⟩)]
    (CheckedForm.points.perform ⟨0, 9⟩ s).1 = .error (.invalidHalfExtent 0) ∧
    (CheckedForm.segment.perform ⟨2, 4⟩ s).1 = .error (.invalidQuadrant 4) ∧
    (CheckedForm.segment.perform ⟨2, 4⟩ s).2 = s ∧
    performAll plan s = (s.dispatch ⟨4, 3⟩).dispatch ⟨2, 1⟩ := by
  intro p s plan
  obtain ⟨hcalls, hplans⟩ := checked_calls_are_atomic s
  obtain ⟨-, -, hhalf, -⟩ := hcalls .points ⟨0, 9⟩
  obtain ⟨-, -, -, hquadrant, hunchanged, -⟩ := hcalls .segment ⟨2, 4⟩
  have hrefused := hquadrant (by decide) (by decide)
  exact ⟨hhalf rfl, hrefused, hunchanged _ hrefused, hplans plan⟩

end WaveletRaster
