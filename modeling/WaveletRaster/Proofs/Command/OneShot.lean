import WaveletRaster.Command.Run
import WaveletRaster.Proofs.Dispatch.Translation
import WaveletRaster.Proofs.Job.Calls
import WaveletRaster.Proofs.Job.Json
import WaveletRaster.Proofs.Job.Spec

/-! One edge at a time. The command that dispatches an edge checks half-extent and quadrant in the
dispatch, a job checks them beforehand and dispatches unchecked. For the values that both accept
they differ in nothing. -/

namespace WaveletRaster

section
variable {half : UInt32} {q : Quadrant} {origin : Origin} {points : List (Point Binary32)}
  {c : Coefficients Binary32} {s : Segment Binary32} {e : EdgeError}

theorem measureEdge_of_ofPoints (scale : Binary64) (h : Segment.ofPoints points = .ok s) :
    measureEdge scale points = .ok (s.moments scale) := by
  rw [measureEdge, h]
  rfl

theorem dispatchEdge_of_ofPoints (hhalf : 0 < half) (h : Segment.ofPoints points = .ok s) :
    dispatchEdge half q.index origin points c = .ok (s.enter half q, origin.enter half q,
      c.update half q (s.enter half q).edge) := by
  rw [dispatchEdge, h, ← s.dispatch_index]
  show (s.tryDispatch half q.index origin c).mapError RunError.refusedDispatch = _
  rw [s.tryDispatch_eq_ok hhalf q.index_le]
  rfl

theorem runCoeffs_of_ofPoints (hhalf : 0 < half) (h : Segment.ofPoints points = .ok s) :
    runCoeffs half q.index origin points c = .ok [dispatchText q.index (s.enter half q)
      (origin.enter half q) (c.update half q (s.enter half q).edge)] := by
  rw [runCoeffs, dispatchEdge_of_ofPoints hhalf h]
  rfl

theorem runCoeffs_of_ofPoints_eq_error (h : Segment.ofPoints points = .error e) (index : UInt32) :
    runCoeffs half index origin points c = .error (.invalidEdge e) := by
  rw [runCoeffs, dispatchEdge, h]
  rfl

theorem exists_of_runCoeffs_eq_error (hhalf : 0 < half) {index : UInt32} (hindex : index ≤ 3)
    {e : RunError} (h : runCoeffs half index origin points c = .error e) :
    ∃ source, Segment.ofPoints points = .error source ∧ e = .invalidEdge source := by
  cases hs : Segment.ofPoints points with
  | error source =>
    rw [runCoeffs_of_ofPoints_eq_error hs] at h
    cases h
    exact ⟨source, rfl, rfl⟩
  | ok s =>
    obtain ⟨q, rfl⟩ := Quadrant.exists_index_eq hindex
    rw [runCoeffs_of_ofPoints hhalf hs] at h
    cases h

theorem runMoments_of_ofPoints (h : Segment.ofPoints points = .ok s) :
    runMoments half points = .ok [momentsText (nodeScale half) (s.moments (nodeScale half))] := by
  rw [runMoments, measureEdge_of_ofPoints _ h]
  rfl

theorem Segment.ofPoints_enter (h : ofPoints points = .ok s) :
    ofPoints (s.enter half q).points = .ok (s.enter half q) := by
  obtain ⟨hfinite, rfl⟩ := ofPoints_eq_ok_iff.mp h
  have hentered := Edge.isFinite_enter (Edge.isFinite_iff.mpr hfinite) half q
  exact ofPoints_eq_ok_iff.mpr ⟨Edge.isFinite_iff.mp hentered, rfl⟩

theorem Segment.enter_of_index_eq_zero (s : Segment Binary32) (half : UInt32) (h : q.index = 0) :
    s.enter half q = s := by
  have hq : q = .topLeft := by
    rw [← Option.some_inj, ← Quadrant.ofIndex?_index q, h]
    rfl
  rw [enter, s.edge.enter_eq_self (.inl hq)]

end

namespace Job

theorem segments_singleton {α : Type} [Arithmetic α] {job : Job α} {q : Quadrant}
    {points : List (Point α)} (hheader : job.validateHeader = .ok ())
    (hedges : job.edges = [⟨q.index, points⟩]) :
    job.segments =
      ((Segment.ofPoints points).map fun s => [(q, s)]).mapError (ValidationError.edge 0) := by
  have hquadrant : Quadrant.ofIndex q.index = .ok q := Quadrant.ofIndex_eq_ok_iff.mpr rfl
  rw [segments, hheader, hedges]
  show ((EdgePiece.segmentAt ⟨q.index, points⟩ 0 >>= fun s => pure [s]) : Except _ _) = _
  rw [EdgePiece.segmentAt, EdgePiece.segment, hquadrant]
  cases Segment.ofPoints points <;> rfl

section
variable {S W : Type} [Arithmetic S] [Arithmetic W] [Precision S W] {job : Job S} {q : Quadrant}
  {points : List (Point S)}

theorem run_singleton {s : Segment S} (hheader : job.validateHeader = .ok ())
    (hedges : job.edges = [⟨q.index, points⟩]) (hs : Segment.ofPoints points = .ok s) :
    job.run = .success job.id (job.coefficients.update job.half q (s.enter job.half q).edge)
      [s.report job.half job.origin q] := by
  have hsegments : job.segments = .ok [(q, s)] := by
    rw [segments_singleton hheader hedges, hs]
    rfl
  rw [run_of_segments hsegments, ← s.replay_report job.half job.origin q job.coefficients]
  rfl

theorem segments_singleton_eq_error {e : EdgeError} (hheader : job.validateHeader = .ok ())
    (hedges : job.edges = [⟨q.index, points⟩]) (hs : Segment.ofPoints points = .error e) :
    job.segments = .error (.edge 0 e) := by
  rw [segments_singleton hheader hedges, hs]
  rfl

end
end Job

/-- The line holds the quadrant and what a dispatch into it gives. -/
def TellsDispatch (line : String) (index : UInt32) (s : Segment Binary32) (origin : Origin)
    (c : Coefficients Binary32) : Prop :=
  let number (x : Binary32) : Json := .ofBinary .double (Precision.widen x)
  Json.HoldsFields line [
    ("coeffs", .array [number c.horizontal, number c.vertical, number c.diagonal]),
    ("origin", .array [.ofInt origin.x.toInt, .ofInt origin.y.toInt]),
    ("points", .array (s.points.map fun p => .array [number p.x, number p.y])),
    ("quadrant", .ofInt index.toNat)]

theorem tellsDispatch_dispatchText (index : UInt32) (s : Segment Binary32) (origin : Origin)
    (c : Coefficients Binary32) :
    TellsDispatch (dispatchText index s origin c) index s origin c := by
  have hpoint (p : Point Binary32) : (Json.array [.ofBinary .double (Precision.widen p.x),
      .ofBinary .double (Precision.widen p.y)]).Plain :=
    .array (by simp [Json.Plain.ofBinary])
  refine Json.holdsFields_text (by simp) ?_
  simp only [List.forall_mem_cons]
  exact ⟨.ofList (fun _ => .ofBinary _ _) c.toList, origin.plain_toJson, .ofList hpoint s.points,
    .ofInt _, List.forall_mem_nil _⟩

/-- The line holds the scale and the moments at that scale. -/
def TellsMoments (line : String) (scale : Binary64) (m : Moments Binary64) : Prop :=
  Json.HoldsFields line [("kx", .ofBinary .double m.kx), ("ky", .ofBinary .double m.ky),
    ("lx", .ofBinary .double m.lx), ("ly", .ofBinary .double m.ly),
    ("rscale", .ofBinary .double scale)]

theorem tellsMoments_momentsText (scale : Binary64) (m : Moments Binary64) :
    TellsMoments (momentsText scale m) scale m :=
  Json.holdsFields_text (by simp) (by simp [Json.Plain.ofBinary])

theorem one_shot_commands_agree_with_jobs (id : String) (half index : UInt32) (origin : Origin)
    (points : List (Point Binary32)) (c : Coefficients Binary32) (hid : id ≠ "")
    (hpos : 1 ≤ half.toNat) (hmax : half.toNat ≤ 2 ^ 24) (hindex : index ≤ 3)
    (hc : ∀ x ∈ c.toList, x.isFinite) :
    let job : Job32 := ⟨id, half, origin, c, [⟨index, points⟩]⟩
    let result : JobResult32 := job.run
    ((∃ lines, runCoeffs half index origin points c = .ok lines) ↔ result.isSuccess) ∧
    (∀ lines, runCoeffs half index origin points c = .ok lines →
      ∃ (s : Segment Binary32) (o : Origin) (c' : Coefficients Binary32) (m : Moments Binary64),
        dispatchEdge half index origin points c = .ok (s, o, c') ∧
        lines = [dispatchText index s o c'] ∧
        TellsDispatch (dispatchText index s o c') index s o c' ∧
        result = .success id c' [⟨index, o, s.points, m⟩] ∧
        measureEdge (nodeScale half) s.points = .ok m ∧
        runMoments half s.points = .ok [momentsText (nodeScale half) m] ∧
        TellsMoments (momentsText (nodeScale half) m) (nodeScale half) m ∧
        (index = 0 → measureEdge (nodeScale half) points = .ok m ∧
          runMoments half points = .ok [momentsText (nodeScale half) m])) ∧
    ∀ e, runCoeffs half index origin points c = .error e →
      ∃ source, e = .invalidEdge source ∧ job.segments = .error (.edge 0 source) ∧
        result = .failure id s!"Validation failed: {(ValidationError.edge 0 source).message}" := by
  intro job result
  obtain ⟨q, rfl⟩ := Quadrant.exists_index_eq hindex
  have hhalf : 0 < half := UInt32.lt_iff_toNat_lt.mpr hpos
  have hcount : job.edges.length ≤ Limits.maxEdges := show 1 ≤ Limits.maxEdges by decide
  have hheader : job.validateHeader = .ok () := Job.validateHeader_eq_ok_iff.mpr
    ⟨hid, UInt32.pos_iff_ne_zero.mp hhalf, hmax, List.all_eq_true.mpr hc, hcount⟩
  cases hs : Segment.ofPoints points with
  | error source =>
    have hsegments := Job.segments_singleton_eq_error (q := q) hheader rfl hs
    have hfailure : result = .failure id
        s!"Validation failed: {(ValidationError.edge 0 source).message}" :=
      Job.run_of_validate_eq_error (Job.validate_eq_error_iff.mpr hsegments)
    rw [runCoeffs_of_ofPoints_eq_error hs, hfailure]
    refine ⟨by simp [JobResult.isSuccess, JobResult.failure], ?_, ?_⟩
    · intro lines hlines
      cases hlines
    · intro e he
      cases he
      exact ⟨source, rfl, hsegments, rfl⟩
  | ok s =>
    have hsuccess : result = .success id (c.update half q (s.enter half q).edge)
        [s.report half origin q] := Job.run_singleton hheader rfl hs
    rw [runCoeffs_of_ofPoints hhalf hs, hsuccess]
    refine ⟨by simp [JobResult.isSuccess, JobResult.success], ?_, ?_⟩
    · intro lines hlines
      cases hlines
      have hentered : Segment.ofPoints (s.enter half q).points = .ok (s.enter half q) :=
        Segment.ofPoints_enter hs
      refine ⟨s.enter half q, origin.enter half q, _, (s.enter half q).moments (nodeScale half),
        dispatchEdge_of_ofPoints hhalf hs, rfl, tellsDispatch_dispatchText .., rfl,
        measureEdge_of_ofPoints _ hentered, runMoments_of_ofPoints hentered,
        tellsMoments_momentsText .., fun hzero => ?_⟩
      rw [s.enter_of_index_eq_zero half hzero]
      exact ⟨measureEdge_of_ofPoints _ hs, runMoments_of_ofPoints hs⟩
    · intro e he
      cases he

theorem one_shot_commands_agree_with_jobs_overlong :
    let p (n : Nat) : Point Binary32 := ⟨.ofNat n, .ofNat (n * n)⟩
    let points : List (Point Binary32) := [p 1, p 2, p 3, p 4, ⟨.ofNat 5, .infinity true⟩]
    let c : Coefficients Binary32 := ⟨.ofNat 1, .zero true, .ofNat 2⟩
    let job (points : List (Point Binary32)) : Job32 := ⟨"one", 3, ⟨7, -7⟩, c, [⟨2, points⟩]⟩
    (∃ (s : Segment Binary32) (o : Origin) (c' : Coefficients Binary32) (m : Moments Binary64),
      dispatchEdge 3 2 ⟨7, -7⟩ (points.take 3) c = .ok (s, o, c') ∧
      runCoeffs 3 2 ⟨7, -7⟩ (points.take 3) c = .ok [dispatchText 2 s o c'] ∧
      (job (points.take 3)).run = .success "one" c' [⟨2, o, s.points, m⟩] ∧
      measureEdge (nodeScale 3) s.points = .ok m ∧
      runMoments 3 s.points = .ok [momentsText (nodeScale 3) m]) ∧
    runCoeffs 3 2 ⟨7, -7⟩ points c = .error (.invalidEdge (.nonFiniteCoordinate 4)) ∧
    (job points).run = .failure "one"
      s!"Validation failed: {(ValidationError.edge 0 (.nonFiniteCoordinate 4)).message}" := by
  intro p points c job
  have hagree (points : List (Point Binary32)) :=
    one_shot_commands_agree_with_jobs "one" 3 2 ⟨7, -7⟩ points c (by decide) (by decide)
      (by decide) (by decide) (by decide +kernel)
  obtain ⟨hiff, hok, -⟩ := hagree (points.take 3)
  obtain ⟨-, -, herror⟩ := hagree points
  obtain ⟨lines, hlines⟩ := hiff.mpr (by decide +kernel)
  obtain ⟨s, o, c', m, hdispatch, rfl, -, hresult, hmeasure, hmoments, -⟩ := hok lines hlines
  have hrefused : runCoeffs 3 2 ⟨7, -7⟩ points c =
      .error (.invalidEdge (.nonFiniteCoordinate 4)) := by decide +kernel
  obtain ⟨source, hsource, -, hfailure⟩ := herror _ hrefused
  obtain rfl := RunError.invalidEdge.inj hsource
  exact ⟨⟨s, o, c', m, hdispatch, hlines, hresult, hmeasure, hmoments⟩, hrefused, hfailure⟩

end WaveletRaster
