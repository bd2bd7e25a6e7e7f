import Mathlib
import WaveletRaster.Job.Run
import WaveletRaster.Proofs.Acceptance

/-! What a job that passes validation looks like: its typed segments correspond to its edge pieces
one by one. A job or a specification that does not pass is refused for its first problem. -/

namespace WaveletRaster
variable {α : Type} [Arithmetic α]

theorem EdgePiece.segment_eq_ok_iff {piece : EdgePiece α} {q : Quadrant} {s : Segment α} :
    piece.segment = .ok (q, s) ↔
      q.index = piece.quadrant ∧ (∀ p ∈ piece.points, p.isFinite) ∧ s.points = piece.points := by
  rw [← Quadrant.ofIndex_eq_ok_iff, ← Segment.ofPoints_eq_ok_iff, segment]
  cases Quadrant.ofIndex piece.quadrant <;> cases Segment.ofPoints piece.points <;>
    simp [bind, Except.bind, pure, Except.pure]

theorem EdgePiece.segmentAt_eq_ok_iff {piece : EdgePiece α} {index : Nat}
    {s : Quadrant × Segment α} : piece.segmentAt index = .ok s ↔ piece.segment = .ok s :=
  mapError_eq_ok_iff

theorem EdgePiece.segmentAt_eq_error_iff {piece : EdgePiece α} {index : Nat}
    {e : ValidationError} : piece.segmentAt index = .error e ↔
      ∃ source, piece.segment = .error source ∧ e = .edge index source := by
  rw [segmentAt, mapError_eq_error_iff]
  simp only [eq_comm]

theorem mapM_segmentAt_eq_ok_iff {pieces : List (EdgePiece α)}
    {segments : List (Quadrant × Segment α)} (start : Nat) :
    (pieces.zipIdx start).mapM (fun (piece, index) => piece.segmentAt index) = .ok segments ↔
      List.Forall₂ (fun piece s => EdgePiece.segment piece = .ok s) pieces segments := by
  induction pieces generalizing start segments with
  | nil => cases segments <;> simp [pure, Except.pure]
  | cons piece pieces ih =>
    rw [List.zipIdx_cons, List.mapM_cons]
    simp only [bind_eq_ok_iff, EdgePiece.segmentAt_eq_ok_iff, ih]
    cases segments with
    | nil => simp [pure, Except.pure]
    | cons s segments => simp [pure, Except.pure]

namespace Job

theorem validateHeader_eq_ok_iff {job : Job α} :
    job.validateHeader = .ok () ↔ job.id ≠ "" ∧ job.half ≠ 0 ∧ job.half.toNat ≤ Limits.maxHalf ∧
      job.coefficients.all Arithmetic.isFinite ∧ job.edges.length ≤ Limits.maxEdges := by
  simp only [validateHeader, ite_error_eq_ok_iff, String.isEmpty_iff, not_or, not_lt, and_true,
    Bool.not_eq_eq_eq_not, Bool.not_true, Bool.not_eq_false, and_assoc, ne_eq]

theorem segments_eq_ok_iff {job : Job α} {segments : List (Quadrant × Segment α)} :
    job.segments = .ok segments ↔ job.validateHeader = .ok () ∧
      List.Forall₂ (fun piece s => EdgePiece.segment piece = .ok s) job.edges segments := by
  rw [← mapM_segmentAt_eq_ok_iff 0, Job.segments, bind_eq_ok_iff]
  exact ⟨fun ⟨_, hheader, hedges⟩ => ⟨hheader, hedges⟩,
    fun ⟨hheader, hedges⟩ => ⟨(), hheader, hedges⟩⟩

theorem validate_eq_ok_iff {job : Job α} :
    job.validate = .ok () ↔ ∃ segments, job.segments = .ok segments := by
  rw [validate]
  cases job.segments <;> simp [discard, Functor.discard, Functor.mapConst, Except.map]

theorem validate_eq_error_iff {job : Job α} {e : ValidationError} :
    job.validate = .error e ↔ job.segments = .error e := by
  rw [validate]
  cases job.segments <;> simp [discard, Functor.discard, Functor.mapConst, Except.map]

end Job
end WaveletRaster
