import Mathlib
import WaveletRaster.Proofs.Job.Run

/-! Overflow of coefficients. What an edge adds to a slot is finite, so no slot ever becomes
not-a-number, and a slot that has overflowed to an infinity stays at that infinity. -/

namespace WaveletRaster

open Binary (Format)

namespace Binary
variable {f g : Format}

theorem isNaN_ofShift (s : Bool) (n k : Nat) : (ofShift s n k : Binary f).isNaN = false := by
  unfold ofShift ofMagnitude
  split_ifs <;> rfl

theorem isNaN_of_isFinite {x : Binary f} (h : x.isFinite) : x.isNaN = false := by
  cases x with
  | finite => rfl
  | _ => cases h

theorem isNaN_convert (x : Binary f) : (x.convert : Binary g).isNaN = x.isNaN := by
  cases x with
  | finite => exact isNaN_ofShift ..
  | _ => rfl

theorem isNaN_add {x y : Binary f} (hy : y.isFinite) : (x + y).isNaN = x.isNaN := by
  cases y with
  | finite t n hn =>
    cases x with
    | finite s m hm =>
      obtain ⟨u, k, hsum, -⟩ := exists_add_eq_ofShift s t hm hn
      rw [hsum]
      exact isNaN_ofShift ..
    | _ => rfl
  | _ => cases hy

theorem infinity_add {y : Binary f} (hy : y.isFinite) (s : Bool) : infinity s + y = infinity s := by
  cases y with
  | finite => rfl
  | _ => cases hy

end Binary

namespace Coefficients
variable {c : Coefficients Binary32} {delta : Coefficients Binary64}

theorem isNaN_accumulate (hc : ∀ x ∈ c.toList, x.isNaN = false)
    (hdelta : ∀ x ∈ delta.toList, x.isFinite) :
    ∀ x ∈ (c.accumulate delta).toList, x.isNaN = false := by
  have hslot {x : Binary32} {y : Binary64} (hx : x.isNaN = false) (hy : y.isFinite) :
      (Precision.narrow (Precision.widen x + y) : Binary32).isNaN = false := by
    change Binary.isNaN (Binary.convert (Binary.convert x + y)) = false
    rw [Binary.isNaN_convert, Binary.isNaN_add hy, Binary.isNaN_convert, hx]
  simp only [toList, List.forall_mem_cons] at hc hdelta
  obtain ⟨hh, hv, hd, -⟩ := hc
  obtain ⟨hh', hv', hd', -⟩ := hdelta
  simp [accumulate, zipWith, toList, hslot hh hh', hslot hv hv', hslot hd hd']

theorem get_accumulate_of_infinity (hdelta : ∀ x ∈ delta.toList, x.isFinite) {slot : Nat}
    {s : Bool} (hc : c.get slot = .ok (.infinity s)) :
    (c.accumulate delta).get slot = .ok (.infinity s) := by
  have hslot {y : Binary64} (hy : y.isFinite) :
      (Precision.narrow (Precision.widen (.infinity s : Binary32) + y) : Binary32) =
        .infinity s := by
    change Binary.convert (.infinity s + y) = _
    rw [Binary.infinity_add hy]
    rfl
  simp only [toList, List.forall_mem_cons] at hdelta
  obtain ⟨hh, hv, hd, -⟩ := hdelta
  match slot, hc with
  | 0, hc => exact congrArg Except.ok (Except.ok.inj hc ▸ hslot hh)
  | 1, hc => exact congrArg Except.ok (Except.ok.inj hc ▸ hslot hv)
  | 2, hc => exact congrArg Except.ok (Except.ok.inj hc ▸ hslot hd)

end Coefficients

theorem Moments.AtMost.isFinite_project {m : Moments Binary64} {k : Nat} (h : m.AtMost k)
    (hk : k + 1 ≤ Format.double.maxExponent) (q : Quadrant) :
    ∀ x ∈ (m.project q).toList, x.isFinite := by
  have hx := h.kx.sub h.lx hk
  have hy := h.ky.sub h.ly hk
  cases q <;>
    simp [project, Coefficients.toList, h.lx.isFinite, h.ly.isFinite, h.lx.neg.isFinite,
      hx.isFinite, hy.isFinite, hx.neg.isFinite]

namespace EdgeReport

def IsBounded (r : EdgeReport Binary32 Binary64) : Prop := r.moments.AtMost 270

variable {r : EdgeReport Binary32 Binary64} {reports : List (EdgeReport Binary32 Binary64)}
  {c : Coefficients Binary32}

theorem isNaN_replay (hr : r.IsBounded) (hc : ∀ x ∈ c.toList, x.isNaN = false) :
    ∀ x ∈ (r.replay c).toList, x.isNaN = false := by
  rw [replay_eq]
  split
  · exact hc
  · exact Coefficients.isNaN_accumulate hc (hr.isFinite_project (by decide) _)

theorem get_replay_of_infinity (hr : r.IsBounded) {slot : Nat} {s : Bool}
    (hc : c.get slot = .ok (.infinity s)) : (r.replay c).get slot = .ok (.infinity s) := by
  rw [replay_eq]
  split
  · exact hc
  · exact Coefficients.get_accumulate_of_infinity (hr.isFinite_project (by decide) _) hc

theorem isNaN_foldl_replay (hreports : ∀ r ∈ reports, r.IsBounded)
    (hc : ∀ x ∈ c.toList, x.isNaN = false) :
    ∀ x ∈ (reports.foldl replay c).toList, x.isNaN = false := by
  refine List.foldlRecOn (motive := fun c => ∀ x ∈ c.toList, x.isNaN = false) reports replay hc ?_
  intro c hc r hr
  exact isNaN_replay (hreports r hr) hc

theorem get_foldl_replay_of_infinity (hreports : ∀ r ∈ reports, r.IsBounded) {slot : Nat} {s : Bool}
    (hc : c.get slot = .ok (.infinity s)) :
    (reports.foldl replay c).get slot = .ok (.infinity s) := by
  refine List.foldlRecOn (motive := fun c => c.get slot = .ok (.infinity s)) reports replay hc ?_
  intro c hc r hr
  exact get_replay_of_infinity (hreports r hr) hc

theorem get_foldl_take_of_infinity (hreports : ∀ r ∈ reports, r.IsBounded) {j k : Nat} (hjk : j ≤ k)
    {slot : Nat} {s : Bool} (hc : ((reports.take j).foldl replay c).get slot = .ok (.infinity s)) :
    ((reports.take k).foldl replay c).get slot = .ok (.infinity s) := by
  have hsplit : reports.take k = reports.take j ++ (reports.drop j).take (k - j) := by
    rw [← List.take_add, Nat.add_sub_cancel' hjk]
  rw [hsplit, List.foldl_append]
  exact get_foldl_replay_of_infinity
    (fun r hr => hreports r (List.mem_of_mem_drop (List.mem_of_mem_take hr))) hc

end EdgeReport

theorem Segment.isBounded_report {s : Segment Binary32} (hs : s.edge.isFinite) {half : UInt32}
    (hhalf : 0 < half) (origin : Origin) (q : Quadrant) : (s.report half origin q).IsBounded :=
  Edge.atMost_moments (Edge.isFinite_enter hs half q) (atMost_nodeScale hhalf)

namespace Job

theorem isBounded_reports {job : Job Binary32} {segments : List (Quadrant × Segment Binary32)}
    (h : job.segments = .ok segments) :
    ∀ r ∈ segments.map fun s => s.2.report job.half job.origin s.1, r.IsBounded := by
  refine List.forall_mem_map.mpr fun s hs => ?_
  exact Segment.isBounded_report (isFinite_segments h s hs) (half_pos_of_segments h) job.origin s.1

theorem slots_stay_numbers (job : Job Binary32) (h : job.validate = .ok ()) :
    ∃ segments, job.segments = .ok segments ∧
      let after (k : Nat) : List (EdgeReport Binary32 Binary64) × Coefficients Binary32 :=
        visitAll job.half job.origin (segments.take k) job.coefficients
      let last := after job.edges.length
      job.run = .success job.id last.2 last.1 ∧ last.1.length = job.edges.length ∧
      (∀ r ∈ last.1, r.IsFinite) ∧
      (∀ k, ∀ x ∈ (after k).2.toList, x.isNaN = false) ∧
      ∀ j k slot s, j ≤ k → (after j).2.get slot = .ok (.infinity s) →
        (after k).2.get slot = .ok (.infinity s) := by
  obtain ⟨segments, hsegments⟩ := validate_eq_ok_iff.mp h
  have hlength : job.edges.length = segments.length := (segments_eq_ok_iff.mp hsegments).2.length_eq
  have hrun := run_of_segments (W := Binary64) hsegments
  have hbounded := isBounded_reports hsegments
  have hstart : ∀ x ∈ job.coefficients.toList, x.isNaN = false := by
    have hall := (validateHeader_eq_ok_iff.mp (segments_eq_ok_iff.mp hsegments).1).2.2.2.1
    exact fun x hx => Binary.isNaN_of_isFinite (List.all_eq_true.mp hall x hx)
  refine ⟨segments, hsegments, ?_⟩
  simp only [hlength, List.take_length, visitAll_eq, List.length_map, List.map_take]
  refine ⟨hrun, trivial, isFinite_reports job (congrArg JobResult.edges hrun), fun k => ?_,
    fun j k slot s hjk => ?_⟩
  · exact EdgeReport.isNaN_foldl_replay (fun r hr => hbounded r (List.mem_of_mem_take hr)) hstart
  · exact EdgeReport.get_foldl_take_of_infinity hbounded hjk

/-- A steep edge and its reversal. The first one overflows the horizontal coefficient, and the
second one, with the opposite contribution, does not bring it back. -/
def roundTripJob : Job Binary32 :=
  let p (x y : Nat) : Point Binary32 := ⟨.ofNat x, .ofNat y⟩
  { id := "round trip", half := 1, origin := ⟨0, 0⟩, coefficients := .zero
    edges := [⟨0, [p (2 ^ 64) 0, p (2 ^ 64) (2 ^ 67)]⟩, ⟨0, [p (2 ^ 64) (2 ^ 67), p (2 ^ 64) 0]⟩] }

theorem slots_stay_numbers_round_trip :
    roundTripJob.validate = .ok () ∧ ∃ segments, roundTripJob.segments = .ok segments ∧
      let after (k : Nat) : List (EdgeReport Binary32 Binary64) × Coefficients Binary32 :=
        visitAll 1 ⟨0, 0⟩ (segments.take k) .zero
      roundTripJob.run = .success "round trip" (after 2).2 (after 2).1 ∧
      (∀ r ∈ (after 2).1, r.IsFinite) ∧ (∀ x ∈ (after 2).2.toList, x.isNaN = false) ∧
      (after 0).2.get 0 = .ok (.ofNat 0) ∧ (after 1).2.get 0 = .ok (.infinity false) ∧
      (after 2).2.get 0 = .ok (.infinity false) := by
  have hvalid : roundTripJob.validate = .ok () := by decide
  obtain ⟨segments, hsegments, hrun, -, hfinite, hnumbers, hstays⟩ :=
    roundTripJob.slots_stay_numbers hvalid
  have hfirst : roundTripJob.segments.map (fun segments =>
      (visitAll (W := Binary64) 1 ⟨0, 0⟩ (segments.take 1) .zero).2.get 0) =
        .ok (.ok (.infinity false)) := by
    decide +kernel
  rw [hsegments] at hfirst
  have hoverflow := Except.ok.inj hfirst
  exact ⟨hvalid, segments, hsegments, hrun, hfinite, hnumbers 2, rfl, hoverflow,
    hstays 1 2 0 false (by decide) hoverflow⟩

end Job
end WaveletRaster
