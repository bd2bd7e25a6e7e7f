import WaveletRaster.Proofs.Job.Run

/-! The calls that a job makes. The run is written once more with a dispatcher of any kind in the
place of the unchecked one: it may refuse a call, count it or record it. Every call has a positive
half-extent and names a quadrant, so that it does not matter what a dispatcher does with others. -/

namespace WaveletRaster

abbrev Dispatcher (S : Type) (m : Type → Type) :=
  Segment S → UInt32 → UInt32 → Origin → Coefficients S → m (Segment S × Origin × Coefficients S)

section
variable {S W : Type} [Arithmetic S] [Arithmetic W] [Precision S W] {m : Type → Type} [Monad m]

def Dispatcher.unchecked : Dispatcher S m :=
  fun s half index origin c => pure (s.dispatch half index origin c)

def Segment.visitThrough (dispatch : Dispatcher S m) (s : Segment S) (half : UInt32) (scale : W)
    (origin : Origin) (q : Quadrant) (c : Coefficients S) :
    m (EdgeReport S W × Coefficients S) := do
  let (moved, origin, c) ← dispatch s half q.index origin c
  return (
    { quadrant := q.index, origin, points := moved.points, moments := moved.moments scale }, c)

def visitAllThrough (dispatch : Dispatcher S m) (half : UInt32) (origin : Origin)
    (segments : List (Quadrant × Segment S)) (c : Coefficients S) :
    m (List (EdgeReport S W) × Coefficients S) := do
  let scale : W := nodeScale half
  let (reversed, c) ← segments.foldlM (fun (reports, c) (q, s) => do
    let (report, c) ← s.visitThrough dispatch half scale origin q c
    return (report :: reports, c)) ([], c)
  return (reversed.reverse, c)

def Job.runThrough (dispatch : Dispatcher S m) (job : Job S) : m (JobResult S W) :=
  match job.segments with
  | .error e => return .failure job.id s!"Validation failed: {e.message}"
  | .ok segments => do
    let (reports, c) ← visitAllThrough dispatch job.half job.origin segments job.coefficients
    return .success job.id c reports

end

/-- Called as they are meant to be, the dispatchers do the same. -/
def Dispatcher.AgreeInRange {S : Type} {m : Type → Type} (dispatch dispatch' : Dispatcher S m) :
    Prop :=
  ∀ (s : Segment S) (half index : UInt32) (origin : Origin) (c : Coefficients S),
    0 < half → index ≤ 3 → dispatch s half index origin c = dispatch' s half index origin c

section
variable {S W : Type} [Arithmetic S] [Arithmetic W] [Precision S W] {m : Type → Type} [Monad m]
  {dispatch dispatch' : Dispatcher S m}

theorem Segment.visitThrough_congr (h : dispatch.AgreeInRange dispatch') (s : Segment S)
    {half : UInt32} (hhalf : 0 < half) (scale : W) (origin : Origin) (q : Quadrant)
    (c : Coefficients S) :
    s.visitThrough dispatch half scale origin q c =
      s.visitThrough dispatch' half scale origin q c := by
  unfold visitThrough
  rw [h s half q.index origin c hhalf q.index_le]

theorem visitAllThrough_congr (h : dispatch.AgreeInRange dispatch') {half : UInt32}
    (hhalf : 0 < half) (origin : Origin) (segments : List (Quadrant × Segment S))
    (c : Coefficients S) :
    (visitAllThrough dispatch half origin segments c : m (List (EdgeReport S W) × _)) =
      visitAllThrough dispatch' half origin segments c := by
  unfold visitAllThrough
  simp only [Segment.visitThrough_congr h _ hhalf]

namespace Job

theorem runThrough_congr (h : dispatch.AgreeInRange dispatch') (job : Job S) :
    (job.runThrough dispatch : m (JobResult S W)) = job.runThrough dispatch' := by
  unfold runThrough
  cases hsegments : job.segments with
  | error e => rfl
  | ok segments =>
    show (visitAllThrough dispatch job.half job.origin segments job.coefficients >>= _) = _
    rw [visitAllThrough_congr h (half_pos_of_segments hsegments)]

theorem runThrough_unchecked [LawfulMonad m] (job : Job S) :
    (job.runThrough .unchecked : m (JobResult S W)) = pure job.run := by
  unfold runThrough run
  cases job.segments with
  | error e => rfl
  | ok segments =>
    show (visitAllThrough _ job.half job.origin segments job.coefficients >>= _) = _
    unfold visitAllThrough Segment.visitThrough Dispatcher.unchecked
    simp only [pure_bind]
    rw [List.foldlM_pure, pure_bind, pure_bind]
    rfl

end Job

theorem Segment.tryDispatch_eq_ok (s : Segment S) {half index : UInt32} (hhalf : 0 < half)
    (hindex : index ≤ 3) (origin : Origin) (c : Coefficients S) :
    s.tryDispatch half index origin c = .ok (s.dispatch half index origin c) := by
  have hzero : half ≠ 0 := UInt32.pos_iff_ne_zero.mp hhalf
  rw [tryDispatch, Descent.tryDispatch_eq, if_neg hzero, if_neg (UInt32.not_lt.mpr hindex)]
  rfl

theorem Job.runThrough_tryDispatch (job : Job S) :
    job.runThrough Segment.tryDispatch = .ok (job.run : JobResult S W) := by
  have hagree : Dispatcher.AgreeInRange (S := S) (m := Except EdgeError) Segment.tryDispatch
      .unchecked := by
    intro s half index origin c hhalf hindex
    exact s.tryDispatch_eq_ok hhalf hindex origin c
  exact (runThrough_congr hagree job).trans job.runThrough_unchecked

end
end WaveletRaster
