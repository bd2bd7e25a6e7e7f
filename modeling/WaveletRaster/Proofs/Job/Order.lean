import Mathlib
import WaveletRaster.Proofs.Exact.Descent
import WaveletRaster.Proofs.Job.Run

/-! The order of edges. The report of an edge is a function of the edge and its node, so that
reports come in the order of their edges. Exact sums of contributions do not depend on an order
either. -/

namespace WaveletRaster

theorem forall₂_ofFn_iff {β γ : Type} {R : β → γ → Prop} {n : ℕ} {f : Fin n → β} {g : Fin n → γ} :
    List.Forall₂ R (List.ofFn f) (List.ofFn g) ↔ ∀ i, R (f i) (g i) := by
  rw [List.forall₂_iff_get]
  constructor
  · rintro ⟨-, h⟩ i
    simpa using h i (by simp) (by simp)
  · intro h
    exact ⟨by simp, fun i hi _ => by simpa using h ⟨i, by simpa using hi⟩⟩

def EdgePiece.report {S W : Type} [Arithmetic S] [Arithmetic W] [Precision S W] (half : UInt32)
    (origin : Origin) (piece : EdgePiece S) : Except EdgeError (EdgeReport S W) := do
  let (q, s) ← piece.segment
  return s.report half origin q

namespace Job

def permute {α : Type} (job : Job α) (σ : Equiv.Perm (Fin job.edges.length)) : Job α :=
  { job with edges := List.ofFn (job.edges.get ∘ σ) }

theorem permute_one {α : Type} (job : Job α) : job.permute 1 = job :=
  congrArg (Job.mk job.id job.half job.origin job.coefficients) (List.ofFn_get job.edges)

theorem exists_segments_permute {α : Type} [Arithmetic α] {job : Job α}
    (h : job.validate = .ok ()) : ∃ segment : Fin job.edges.length → Quadrant × Segment α,
      (∀ i, (job.edges.get i).segment = .ok (segment i)) ∧
      ∀ σ, (job.permute σ).segments = .ok (List.ofFn (segment ∘ σ)) := by
  obtain ⟨segments, hsegments⟩ := validate_eq_ok_iff.mp h
  obtain ⟨hheader, hpieces⟩ := segments_eq_ok_iff.mp hsegments
  obtain ⟨hlength, hget⟩ := List.forall₂_iff_get.mp hpieces
  have hsegment (i : Fin job.edges.length) := hget i i.2 (hlength ▸ i.2)
  refine ⟨_, hsegment, fun σ => segments_eq_ok_iff.mpr ⟨?_, ?_⟩⟩
  · rw [validateHeader_eq_ok_iff] at hheader ⊢
    simpa only [permute, List.length_ofFn] using hheader
  · exact forall₂_ofFn_iff.mpr fun i => hsegment (σ i)

section
variable {S W : Type} [Arithmetic S] [Arithmetic W] [Precision S W]

theorem run_permute {job : Job S} (h : job.validate = .ok ()) :
    ∃ report : Fin job.edges.length → EdgeReport S W,
      (∀ i, (job.edges.get i).report job.half job.origin = .ok (report i)) ∧
      ∀ σ, (job.permute σ).run = .success job.id
        ((List.ofFn (report ∘ σ)).foldl EdgeReport.replay job.coefficients)
        (List.ofFn (report ∘ σ)) := by
  obtain ⟨segment, hsegment, hpermute⟩ := exists_segments_permute h
  refine ⟨fun i => (segment i).2.report job.half job.origin (segment i).1, fun i => ?_, fun σ => ?_⟩
  · rw [EdgePiece.report, hsegment i]
    rfl
  · rw [run_of_segments (hpermute σ), List.map_ofFn]
    rfl

end
end Job

theorem Coefficients.accumulate_right_comm (c delta delta' : Coefficients ℚ) :
    (c.accumulate delta).accumulate delta' = (c.accumulate delta').accumulate delta := by
  simp only [accumulate_rat, zipWith, add_right_comm]

instance : RightCommutative (EdgeReport.replay : Coefficients ℚ → EdgeReport ℚ ℚ → _) where
  right_comm c r r' := by
    cases hr : Quadrant.ofIndex? r.quadrant <;> cases hr' : Quadrant.ofIndex? r'.quadrant <;>
      simp only [EdgeReport.replay_eq, hr, hr', Coefficients.accumulate_right_comm]

namespace Job

theorem coefficients_run_permute {job : Job ℚ} (h : job.validate = .ok ()) :
    ∃ c, ∀ σ, (job.permute σ).run.coefficients = some c := by
  obtain ⟨report, -, hrun⟩ := run_permute h
  refine ⟨(List.ofFn report).foldl EdgeReport.replay job.coefficients, fun σ => ?_⟩
  rw [hrun σ, JobResult.success, (σ.ofFn_comp_perm report).foldl_eq]

theorem order_matters_only_for_rounding :
    (∀ job : Job Binary32, job.validate = .ok () →
      ∃ (c : Coefficients Binary32)
        (report : Fin job.edges.length → EdgeReport Binary32 Binary64),
        job.run = .success job.id c (List.ofFn report) ∧
        (∀ i, (job.edges.get i).report job.half job.origin = .ok (report i)) ∧
        ∀ σ, ∃ c', (job.permute σ).run = .success job.id c' (List.ofFn (report ∘ σ))) ∧
    ∀ job : Job ℚ, job.validate = .ok () →
      ∃ c, job.run.coefficients = some c ∧ ∀ σ, (job.permute σ).run.coefficients = some c := by
  refine ⟨fun job h => ?_, fun job h => ?_⟩
  · obtain ⟨report, hreport, hrun⟩ := run_permute h
    have hself := hrun 1
    rw [permute_one] at hself
    exact ⟨_, report, hself, hreport, fun σ => ⟨_, hrun σ⟩⟩
  · obtain ⟨c, hc⟩ := coefficients_run_permute h
    have hself := hc 1
    rw [permute_one] at hself
    exact ⟨c, hself, hc⟩

def cancellingJob {S : Type} [Arithmetic S] : Job S :=
  let p (y : Nat) : Point S := ⟨Arithmetic.ofNat 4, Arithmetic.ofNat y⟩
  { id := "cancelling", half := 1, origin := ⟨0, 0⟩, coefficients := .zero
    edges := [⟨0, [p 0, p (2 ^ 26)]⟩, ⟨0, [p 0, p 1]⟩, ⟨0, [p (2 ^ 26), p 0]⟩] }

theorem order_matters_only_for_rounding_cancelling :
    let job : Job Binary32 := cancellingJob
    let exact : Job ℚ := cancellingJob
    let late : Equiv.Perm (Fin 3) := Equiv.swap 1 2
    job.validate = .ok () ∧ exact.validate = .ok () ∧
    (∃ (c c' : Coefficients Binary32) (report : Fin 3 → EdgeReport Binary32 Binary64),
      job.run = .success "cancelling" c (List.ofFn report) ∧
      (job.permute late).run = .success "cancelling" c' (List.ofFn (report ∘ late)) ∧
      c.horizontal = .ofNat 0 ∧ c'.horizontal = .ofNat 1) ∧
    exact.run.coefficients = some ⟨1, 0, 1⟩ ∧
    (exact.permute late).run.coefficients = some ⟨1, 0, 1⟩ := by
  intro job exact late
  have hjob : job.validate = .ok () := by decide +kernel
  have hexact : exact.validate = .ok () := by decide +kernel
  obtain ⟨c, report, hrun, -, hpermuted⟩ := order_matters_only_for_rounding.1 job hjob
  obtain ⟨c', hlate⟩ := hpermuted late
  obtain ⟨k, hk, hsame⟩ := order_matters_only_for_rounding.2 exact hexact
  have hc : job.run.coefficients = some ⟨.ofNat 0, .ofNat 0, .ofNat 0⟩ := by decide +kernel
  have hc' : (job.permute late).run.coefficients = some ⟨.ofNat 1, .ofNat 0, .ofNat 1⟩ := by
    decide +kernel
  have hone : exact.run.coefficients = some ⟨1, 0, 1⟩ := by decide +kernel
  rw [hrun] at hc
  rw [hlate] at hc'
  refine ⟨hjob, hexact, ⟨c, c', report, hrun, hlate, ?_, ?_⟩, hone, ?_⟩
  · exact congrArg Coefficients.horizontal (Option.some.inj hc)
  · exact congrArg Coefficients.horizontal (Option.some.inj hc')
  · rw [hsame late, ← hk, hone]

end Job
end WaveletRaster
