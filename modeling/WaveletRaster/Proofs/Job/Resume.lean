import Mathlib
import WaveletRaster.Proofs.Job.Run

/-! Resuming a node. The coefficients are all that passes from one edge to the next, so a job may be
cut between any two of its edges and its second part started from the coefficients of the first. -/

namespace WaveletRaster

theorem forall₂_append_left {β γ : Type} {R : β → γ → Prop} {xs ys : List β} {zs : List γ}
    (h : List.Forall₂ R (xs ++ ys) zs) :
    ∃ us vs, zs = us ++ vs ∧ List.Forall₂ R xs us ∧ List.Forall₂ R ys vs :=
  ⟨zs.take xs.length, zs.drop xs.length, (List.take_append_drop ..).symm,
    (List.forall₂_take_append zs xs ys h.flip).flip,
    (List.forall₂_drop_append zs xs ys h.flip).flip⟩

namespace Job

theorem segments_of_edges_append {α : Type} [Arithmetic α] {job : Job α}
    {front back : List (EdgePiece α)} (hedges : job.edges = front ++ back)
    {segments : List (Quadrant × Segment α)} (h : job.segments = .ok segments) :
    ∃ first second, segments = first ++ second ∧
      { job with edges := front }.segments = .ok first ∧
      ∀ c : Coefficients α, c.all Arithmetic.isFinite →
        { job with coefficients := c, edges := back }.segments = .ok second := by
  obtain ⟨hheader, hpieces⟩ := segments_eq_ok_iff.mp h
  obtain ⟨hid, hpos, hhalf, hfinite, hcount⟩ := validateHeader_eq_ok_iff.mp hheader
  rw [hedges] at hpieces hcount
  rw [List.length_append] at hcount
  obtain ⟨first, second, rfl, hfirst, hsecond⟩ := forall₂_append_left hpieces
  have hfront : front.length ≤ Limits.maxEdges := le_trans (Nat.le_add_right _ _) hcount
  have hback : back.length ≤ Limits.maxEdges := le_trans (Nat.le_add_left _ _) hcount
  refine ⟨first, second, rfl, segments_eq_ok_iff.mpr ⟨?_, hfirst⟩, fun c hc =>
    segments_eq_ok_iff.mpr ⟨?_, hsecond⟩⟩
  · exact validateHeader_eq_ok_iff.mpr ⟨hid, hpos, hhalf, hfinite, hfront⟩
  · exact validateHeader_eq_ok_iff.mpr ⟨hid, hpos, hhalf, hc, hback⟩

theorem run_append (job : Job Binary32) (front back : List (EdgePiece Binary32))
    (hvalid : job.validate = .ok ()) (hedges : job.edges = front ++ back) :
    ∃ (c₁ : Coefficients Binary32) (reports₁ : List (EdgeReport Binary32 Binary64)),
      { job with edges := front }.run = .success job.id c₁ reports₁ ∧
      (c₁.all Arithmetic.isFinite → ∃ c₂ reports₂,
        { job with coefficients := c₁, edges := back }.run = .success job.id c₂ reports₂ ∧
        job.run = .success job.id c₂ (reports₁ ++ reports₂)) := by
  obtain ⟨segments, hsegments⟩ := validate_eq_ok_iff.mp hvalid
  obtain ⟨first, second, rfl, hfirst, hsecond⟩ := segments_of_edges_append hedges hsegments
  refine ⟨_, _, run_of_segments hfirst, fun hfinite =>
    ⟨_, _, run_of_segments (hsecond _ hfinite), ?_⟩⟩
  rw [run_of_segments hsegments, List.map_append, List.foldl_append]

theorem run_append_mixed :
    mixedJob.validate = .ok () ∧ ∃ (c₁ c₂ : Coefficients Binary32)
      (reports₁ reports₂ : List (EdgeReport Binary32 Binary64)),
      { mixedJob with edges := mixedJob.edges.take 2 }.run = .success "mixed" c₁ reports₁ ∧
      { mixedJob with coefficients := c₁, edges := mixedJob.edges.drop 2 }.run =
        .success "mixed" c₂ reports₂ ∧
      mixedJob.run = .success "mixed" c₂ (reports₁ ++ reports₂) := by
  have hvalid : mixedJob.validate = .ok () := by decide
  obtain ⟨c₁, reports₁, hfirst, hrest⟩ := mixedJob.run_append _ _ hvalid
    (List.take_append_drop 2 mixedJob.edges).symm
  have hfinite : c₁.all Arithmetic.isFinite := by
    have hall : ({ mixedJob with edges := mixedJob.edges.take 2 }.run :
        JobResult Binary32 Binary64).coefficients.all (Coefficients.all Arithmetic.isFinite) := by
      decide +kernel
    rw [hfirst] at hall
    exact hall
  obtain ⟨c₂, reports₂, hsecond, hwhole⟩ := hrest hfinite
  exact ⟨hvalid, c₁, c₂, reports₁, reports₂, hfirst, hsecond, hwhole⟩

end Job
end WaveletRaster
