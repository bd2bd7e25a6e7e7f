import Mathlib
import WaveletRaster.Job.Run
import WaveletRaster.Proofs.Edge.Finite
import WaveletRaster.Proofs.Job.Validation

/-! Running a job that passes validation. Every report stands for its edge piece alone and is finite;
the coefficients are those that the reports account for, and may overflow when they are narrowed. -/

namespace WaveletRaster

section
variable {S W : Type} [Arithmetic S] [Arithmetic W] [Precision S W]

def Segment.report (s : Segment S) (half : UInt32) (origin : Origin) (q : Quadrant) :
    EdgeReport S W :=
  { quadrant := q.index, origin := origin.enter half q, points := (s.enter half q).points
    moments := (s.enter half q).moments (nodeScale half) }

/-- Every slot is widened, gets its part of the reported moments in the reported quadrant, and is
narrowed once. -/
def EdgeReport.replay (c : Coefficients S) (r : EdgeReport S W) : Coefficients S :=
  match Quadrant.ofIndex? r.quadrant with
  | none => c
  | some q =>
    let delta : Coefficients W := r.moments.project q
    { horizontal := Precision.narrow (Precision.widen c.horizontal + delta.horizontal)
      vertical := Precision.narrow (Precision.widen c.vertical + delta.vertical)
      diagonal := Precision.narrow (Precision.widen c.diagonal + delta.diagonal) }

theorem EdgeReport.replay_eq (r : EdgeReport S W) (c : Coefficients S) :
    r.replay c = match Quadrant.ofIndex? r.quadrant with
      | none => c
      | some q => c.accumulate (r.moments.project q) := rfl

theorem Segment.replay_report (s : Segment S) (half : UInt32) (origin : Origin) (q : Quadrant)
    (c : Coefficients S) :
    (s.report half origin q).replay c = c.update half q (s.enter half q).edge := by
  rw [EdgeReport.replay_eq]
  simp only [report, Quadrant.ofIndex?_index]
  rfl

theorem Segment.visit_eq (s : Segment S) (half : UInt32) (origin : Origin) (q : Quadrant)
    (c : Coefficients S) :
    s.visit half (nodeScale half) origin q c =
      (s.report half origin q, (s.report half origin q).replay c) := by
  rw [visit, s.dispatch_index, s.replay_report half origin q c]
  rfl

theorem foldl_report (half : UInt32) (origin : Origin) (segments : List (Quadrant × Segment S))
    (reports : List (EdgeReport S W)) (c : Coefficients S) :
    segments.foldl (fun acc s => (s.2.report half origin s.1 :: acc.1,
        (s.2.report half origin s.1).replay acc.2)) (reports, c) =
      ((segments.map fun s => s.2.report half origin s.1).reverse ++ reports,
        (segments.map fun s => s.2.report half origin s.1).foldl EdgeReport.replay c) := by
  induction segments generalizing reports c with
  | nil => rfl
  | cons s segments ih =>
    rw [List.foldl_cons, ih, List.map_cons, List.foldl_cons, List.reverse_cons, List.append_assoc,
      List.singleton_append]

theorem visitAll_eq (half : UInt32) (origin : Origin) (segments : List (Quadrant × Segment S))
    (c : Coefficients S) :
    visitAll half origin segments c =
      (segments.map fun s => s.2.report half origin s.1,
        (segments.map fun s => s.2.report half origin s.1).foldl EdgeReport.replay c) := by
  rw [visitAll]
  simp only [Segment.visit_eq, foldl_report, List.append_nil, List.reverse_reverse]

namespace Job

theorem run_of_segments {job : Job S} {segments : List (Quadrant × Segment S)}
    (h : job.segments = .ok segments) :
    job.run = .success job.id
      ((segments.map fun s => s.2.report job.half job.origin s.1).foldl EdgeReport.replay
        job.coefficients)
      (segments.map fun s => s.2.report job.half job.origin s.1) := by
  rw [run, h]
  simp only [visitAll_eq]

/-- The report describes the edge piece after a descent from a fresh copy of the origin. -/
def Reports (job : Job S) (piece : EdgePiece S) (report : EdgeReport S W) : Prop :=
  ∃ (q : Quadrant) (s : Segment S), q.index = piece.quadrant ∧ s.points = piece.points ∧
    let moved := Descent.enter ⟨job.origin, s.edge, job.coefficients⟩ job.half q
    report.quadrant = piece.quadrant ∧ report.origin = moved.origin ∧
      report.points = moved.edge.points ∧ report.moments = moved.edge.moments (nodeScale job.half)

theorem reports_report {job : Job S} {piece : EdgePiece S} {s : Quadrant × Segment S}
    (h : piece.segment = .ok s) : job.Reports piece (s.2.report job.half job.origin s.1) := by
  obtain ⟨hindex, -, hpoints⟩ := EdgePiece.segment_eq_ok_iff.mp h
  exact ⟨s.1, s.2, hindex, hpoints, hindex, rfl, rfl, rfl⟩

end Job
end

def EdgeReport.IsFinite (r : EdgeReport Binary32 Binary64) : Prop :=
  (∀ p ∈ r.points, p.isFinite) ∧ ∀ x ∈ r.moments.toList, x.isFinite

theorem Segment.isFinite_report {s : Segment Binary32} (hs : s.edge.isFinite) {half : UInt32}
    (hhalf : 0 < half) (origin : Origin) (q : Quadrant) : (s.report half origin q).IsFinite := by
  have hentered := Edge.isFinite_enter hs half q
  exact ⟨Edge.isFinite_iff.mp hentered,
    (Edge.atMost_moments hentered (atMost_nodeScale hhalf)).isFinite⟩

namespace Job

theorem isFinite_segments {job : Job Binary32} {segments : List (Quadrant × Segment Binary32)}
    (h : job.segments = .ok segments) : ∀ s ∈ segments, s.2.edge.isFinite := by
  have hpieces := (segments_eq_ok_iff.mp h).2
  refine ((List.forall₂_and_left _ _).mp (hpieces.flip.imp fun s piece hs => ⟨?_, hs⟩)).1
  obtain ⟨-, hfinite, hpoints⟩ := EdgePiece.segment_eq_ok_iff.mp hs
  exact Edge.isFinite_iff.mpr fun p hp => hfinite p (hpoints ▸ hp)

theorem half_pos_of_segments {α : Type} [Arithmetic α] {job : Job α}
    {segments : List (Quadrant × Segment α)} (h : job.segments = .ok segments) : 0 < job.half := by
  have hheader := validateHeader_eq_ok_iff.mp (segments_eq_ok_iff.mp h).1
  exact UInt32.pos_iff_ne_zero.mpr hheader.2.1

theorem isFinite_reports (job : Job Binary32) {reports : List (EdgeReport Binary32 Binary64)}
    (h : job.run.edges = some reports) : ∀ r ∈ reports, r.IsFinite := by
  cases hsegments : job.segments with
  | error e =>
    rw [run, hsegments] at h
    cases h
  | ok segments =>
    rw [run_of_segments hsegments] at h
    cases h
    have hhalf := half_pos_of_segments hsegments
    exact List.forall_mem_map.mpr fun s hs =>
      Segment.isFinite_report (isFinite_segments hsegments s hs) hhalf job.origin s.1

end Job

theorem Job.run_eq_replay (job : Job Binary32) (h : job.validate = .ok ()) :
    ∃ reports : List (EdgeReport Binary32 Binary64),
      job.run = .success job.id (reports.foldl EdgeReport.replay job.coefficients) reports ∧
        List.Forall₂ job.Reports job.edges reports := by
  obtain ⟨segments, hsegments⟩ := validate_eq_ok_iff.mp h
  refine ⟨_, run_of_segments hsegments, ?_⟩
  rw [List.forall₂_map_right_iff]
  exact (segments_eq_ok_iff.mp hsegments).2.imp fun _ _ => reports_report

def mixedJob : Job Binary32 :=
  let p (x y : Nat) : Point Binary32 := ⟨.ofNat x, .ofNat y⟩
  { id := "mixed", half := 2, origin := ⟨10, 10⟩
    coefficients := ⟨.ofNat 1, .ofNat 0, .ofNat 3⟩
    edges := [⟨1, [p 4 0, p 4 2]⟩, ⟨3, [p 4 2, p 5 5, p 3 4]⟩, ⟨2, [p 2 4, p 1 3, p 1 4, p 0 2]⟩] }

theorem Job.run_eq_replay_mixed :
    mixedJob.validate = .ok () ∧ ∃ reports : List (EdgeReport Binary32 Binary64),
      mixedJob.run = .success "mixed" (reports.foldl EdgeReport.replay mixedJob.coefficients)
        reports ∧ List.Forall₂ mixedJob.Reports mixedJob.edges reports :=
  ⟨by decide, mixedJob.run_eq_replay (by decide)⟩

end WaveletRaster
