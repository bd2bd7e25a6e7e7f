import Mathlib
import WaveletRaster.Proofs.Job.Run

/-! Running a whole specification. The verdict of validation and the statuses of the results are two
views of one thing: the first problem that validation meets is the first failure among the
results. -/

namespace WaveletRaster

namespace Job
variable {S W : Type} [Arithmetic S] [Arithmetic W] [Precision S W]

theorem id_run (job : Job S) : (job.run : JobResult S W).id = job.id := by
  unfold run
  split <;> rfl

theorem run_of_validate_eq_error {job : Job S} {e : ValidationError}
    (h : job.validate = .error e) :
    job.run = .failure job.id s!"Validation failed: {e.message}" := by
  rw [run, validate_eq_error_iff.mp h]

theorem isSuccess_run_iff {job : Job S} :
    (job.run : JobResult S W).isSuccess ↔ job.validate = .ok () := by
  cases h : job.validate with
  | error e => simp [run_of_validate_eq_error h, JobResult.failure, JobResult.isSuccess]
  | ok _ =>
    obtain ⟨segments, hsegments⟩ := validate_eq_ok_iff.mp h
    simp [run_of_segments hsegments, JobResult.success, JobResult.isSuccess]

end Job

namespace JobSpec

section
variable {S W : Type} [Arithmetic S] [Arithmetic W] [Precision S W] {spec : JobSpec S}

theorem run_eq_error_iff {e : ValidationError} :
    (spec.run : Except ValidationError (List (JobResult S W))) = .error e ↔
      spec.validateHeader = .error e := by
  rw [run]
  cases spec.validateHeader <;> simp [bind, Except.bind, pure, Except.pure]

theorem run_eq_ok_iff {results : List (JobResult S W)} :
    spec.run = .ok results ↔ spec.validateHeader = .ok () ∧ spec.jobs.map Job.run = results := by
  rw [run]
  cases spec.validateHeader <;> simp [bind, Except.bind, pure, Except.pure]

theorem validate_eq_ok_iff :
    spec.validate = .ok () ↔
      spec.validateHeader = .ok () ∧ ∀ job ∈ spec.jobs, job.validate = .ok () := by
  rw [validate, bind_eq_ok_iff, ← forM_eq_ok_iff]
  exact ⟨fun ⟨_, hheader, hjobs⟩ => ⟨hheader, hjobs⟩, fun ⟨hheader, hjobs⟩ => ⟨(), hheader, hjobs⟩⟩

theorem validate_of_validateHeader (h : spec.validateHeader = .ok ()) :
    spec.validate = spec.jobs.forM Job.validate := by
  rw [validate, h]
  rfl

end

theorem run_agrees_with_validation (spec : JobSpec Binary32) :
    let outcome : Except ValidationError (List (JobResult Binary32 Binary64)) := spec.run
    (∀ e, outcome = .error e ↔ spec.validateHeader = .error e) ∧
    (spec.validateHeader = .ok () → ∃ results, outcome = .ok results ∧
      List.Forall₂ (fun job result => result = job.run ∧ result.id = job.id) spec.jobs results) ∧
    (spec.validate = .ok () ↔ ∃ results, outcome = .ok results ∧ ∀ r ∈ results, r.isSuccess) ∧
    (∀ e, spec.validateHeader = .ok () → spec.validate = .error e →
      ∃ before job after, spec.jobs = before ++ job :: after ∧ job.validate = .error e ∧
        ∃ earlier failed later, outcome = .ok (earlier ++ failed :: later) ∧
          earlier.length = before.length ∧ (∀ r ∈ earlier, r.isSuccess) ∧ ¬failed.isSuccess ∧
          failed.id = job.id ∧ failed.error = some s!"Validation failed: {e.message}") := by
  intro outcome
  refine ⟨fun e => run_eq_error_iff, fun hheader => ?_, ?_, fun e hheader hfault => ?_⟩
  · refine ⟨_, run_eq_ok_iff.mpr ⟨hheader, rfl⟩, ?_⟩
    rw [List.forall₂_map_right_iff]
    exact List.forall₂_same.mpr fun job _ => ⟨rfl, job.id_run⟩
  · rw [validate_eq_ok_iff]
    constructor
    · rintro ⟨hheader, hjobs⟩
      exact ⟨_, run_eq_ok_iff.mpr ⟨hheader, rfl⟩,
        List.forall_mem_map.mpr fun job hjob => Job.isSuccess_run_iff.mpr (hjobs job hjob)⟩
    · rintro ⟨_, hrun, hsuccess⟩
      obtain ⟨hheader, rfl⟩ := run_eq_ok_iff.mp hrun
      exact ⟨hheader, fun job hjob =>
        Job.isSuccess_run_iff.mp (List.forall_mem_map.mp hsuccess job hjob)⟩
  · rw [validate_of_validateHeader hheader] at hfault
    obtain ⟨before, job, after, hjobs, hbefore, hjob⟩ := forM_eq_error_iff.mp hfault
    have hfailed := Job.run_of_validate_eq_error (W := Binary64) hjob
    refine ⟨before, job, after, hjobs, hjob, before.map Job.run, job.run, after.map Job.run, ?_,
      List.length_map _, ?_, ?_, job.id_run, by rw [hfailed]; rfl⟩
    · rw [← List.map_cons, ← List.map_append, ← hjobs]
      exact run_eq_ok_iff.mpr ⟨hheader, rfl⟩
    · exact List.forall_mem_map.mpr fun j hj => Job.isSuccess_run_iff.mpr (hbefore j hj)
    · rw [Job.isSuccess_run_iff, hjob]
      exact nofun

end JobSpec
end WaveletRaster
