import Mathlib
import WaveletRaster.Job.Json
import WaveletRaster.Proofs.Job.Run
import WaveletRaster.Proofs.Json.Record

/-! Result lines read back. A number that is not finite is written as null, which is no number for
the reader; of all the numbers of a result only the coefficients can come to that. -/

namespace WaveletRaster

open Json

theorem Origin.ofJson?_toJson (o : Origin) : ofJson? o.toJson = some o := by
  simp [toJson, ofJson?, toInt32?_ofInt]

theorem Point.ofJson?_toJson {p : Point Binary32} (hx : ReadsBack .single p.x)
    (hy : ReadsBack .single p.y) : ofJson? p.toJson = some p := by
  rw [ReadsBack] at hx hy
  simp [toJson, ofJson?, hx, hy]

theorem Coefficients.ofJson?_toJson {c : Coefficients Binary32}
    (h : ∀ x ∈ c.toList, ReadsBack .single x) : ofJson? c.toJson = some c := by
  simp only [toList, List.forall_mem_cons, ReadsBack] at h
  simp [toJson, toList, ofList, ofJson?, h]

theorem Coefficients.ofJson?_toJson_of_not_isFinite {c : Coefficients Binary32}
    (h : ¬c.all Arithmetic.isFinite) : ofJson? c.toJson = none := by
  have hnone {x : Binary32} (hx : ¬x.isFinite) :
      (ofBinary .single x).toBinary? = (none : Option Binary32) :=
    toBinary?_ofBinary_of_not_isFinite .single hx
  rw [all, List.all_eq_true, toList] at h
  simp only [List.forall_mem_cons, List.not_mem_nil, false_imp_iff, implies_true, and_true,
    not_and_or] at h
  rcases h with h | h | h <;> simp [toJson, toList, ofList, ofJson?, hnone h]

theorem Moments.ofJson?_toJson {m : Moments Binary64}
    (h : ∀ x ∈ m.toList, ReadsBack .double x) : ofJson? m.toJson = some m := by
  simp only [toList, List.forall_mem_cons, ReadsBack] at h
  simp [toJson, toList, ofList, ofJson?, h]

theorem EdgeReport.ofJson?_toJson {e : EdgeReport32}
    (hpoints : ∀ p ∈ e.points, ReadsBack .single p.x ∧ ReadsBack .single p.y)
    (hmoments : ∀ x ∈ e.moments.toList, ReadsBack .double x) : ofJson? e.toJson = some e := by
  have hfields : e.toJson.fields? ["quadrant", "origin", "points", "moments"] =
      some [some (.ofInt e.quadrant.toNat), some e.origin.toJson,
        some (.ofList Point.toJson e.points), some e.moments.toJson] :=
    fields?_eq_of_present rfl (by decide) rfl
  have hlist : (ofList Point.toJson e.points).toList? Point.ofJson? = some e.points :=
    toList?_ofList fun p hp => Point.ofJson?_toJson (hpoints p hp).1 (hpoints p hp).2
  simp [ofJson?, hfields, required, toUInt32?_ofInt, Origin.ofJson?_toJson, hlist,
    Moments.ofJson?_toJson hmoments]

theorem timingOfJson?_ofFields {x : Binary64} (h : ReadsBack .double x) :
    timingOfJson? (.ofFields [("total_ms", .ofBinary .double x)]) = some x := by
  have hfields : (ofFields [("total_ms", .ofBinary .double x)]).fields? ["total_ms"] =
      some [some (.ofBinary .double x)] :=
    fields?_eq_of_present rfl (by decide) rfl
  rw [ReadsBack] at h
  simp [timingOfJson?, hfields, required, h]

namespace JobResult

/-- What is asked of the numbers of a result, one precision at a time. -/
structure ForallNumbers (single : Binary32 → Prop) (double : Binary64 → Prop) (r : JobResult32) :
    Prop where
  coefficients : ∀ c ∈ r.coefficients, ∀ x ∈ c.toList, single x
  points : ∀ es ∈ r.edges, ∀ e ∈ es, ∀ p ∈ e.points, single p.x ∧ single p.y
  moments : ∀ es ∈ r.edges, ∀ e ∈ es, ∀ x ∈ e.moments.toList, double x
  timing : double r.totalMilliseconds

def fieldNames : List String := ["id", "status", "coeffs", "edges", "error", "timing"]

def fieldValues (r : JobResult32) : List (Option Json) :=
  [some (.ofString r.id), some (.ofString r.status), r.coefficients.map Coefficients.toJson,
    r.edges.map (.ofList EdgeReport.toJson), r.error.map .ofString,
    some (.ofFields [("total_ms", .ofBinary .double r.totalMilliseconds)])]

/-- Every finite number of the result reads back from its written form. -/
def FiniteNumbersReadBack : JobResult32 → Prop :=
  ForallNumbers (fun x => x.isFinite → ReadsBack .single x)
    (fun x => x.isFinite → ReadsBack .double x)

theorem toJson_eq_present (r : JobResult32) :
    r.toJson = .ofFields (present fieldNames r.fieldValues) := by
  obtain ⟨id, status, coefficients, edges, error, ms⟩ := r
  cases coefficients <;> cases edges <;> cases error <;>
    simp [toJson, fieldNames, fieldValues, present]

theorem fields?_toJson (r : JobResult32) :
    r.toJson.fields? ["id", "status", "coeffs", "edges", "error", "timing"] = some r.fieldValues :=
  fields?_eq_of_present r.toJson_eq_present (by simp) rfl

theorem ofJson?_toJson {r : JobResult32}
    (h : r.ForallNumbers (ReadsBack .single) (ReadsBack .double)) : ofJson? r.toJson = some r := by
  have hcoefficients : withDefault none (toOption? Coefficients.ofJson?)
      (r.coefficients.map Coefficients.toJson) = some r.coefficients :=
    withDefault_toOption?_map (fun c hc => Coefficients.ofJson?_toJson (h.coefficients c hc))
      fun c => ofList_ne_null _ c.toList
  have hedges : withDefault none (toOption? (toList? EdgeReport.ofJson?))
      (r.edges.map (.ofList EdgeReport.toJson)) = some r.edges :=
    withDefault_toOption?_map (fun es hes => toList?_ofList fun e he =>
      EdgeReport.ofJson?_toJson (h.points es hes e he) (h.moments es hes e he))
      fun es => ofList_ne_null _ es
  have herror : withDefault none (toOption? toString?) (r.error.map .ofString) = some r.error :=
    withDefault_toOption?_map (fun s _ => toString?_ofString s) ofString_ne_null
  simp [ofJson?, fields?_toJson, fieldValues, required, toString?_ofString, hcoefficients, hedges,
    herror, timingOfJson?_ofFields h.timing]

theorem ofJson?_toJson_of_not_isFinite {r : JobResult32}
    (h : ¬r.coefficients.all (Coefficients.all Arithmetic.isFinite)) :
    ofJson? r.toJson = none := by
  obtain ⟨c, hc, h⟩ : ∃ c, r.coefficients = some c ∧ ¬c.all Arithmetic.isFinite := by
    simpa [Option.all_eq_true] using h
  have hcoefficients : withDefault none (toOption? Coefficients.ofJson?)
      (some c.toJson) = (none : Option (Option (Coefficients Binary32))) := by
    rw [withDefault, toOption?, Coefficients.ofJson?_toJson_of_not_isFinite h]
    · rfl
    · exact ofList_ne_null _ c.toList
  simp [ofJson?, fields?_toJson, fieldValues, required, toString?_ofString, hc, hcoefficients]

theorem ForallNumbers.mp {p p' : Binary32 → Prop} {q q' : Binary64 → Prop} {r : JobResult32}
    (h : r.ForallNumbers (fun x => p x → p' x) (fun x => q x → q' x)) (hr : r.ForallNumbers p q) :
    r.ForallNumbers p' q' where
  coefficients c hc x hx := h.coefficients c hc x hx (hr.coefficients c hc x hx)
  points es hes e he p hp :=
    ⟨(h.points es hes e he p hp).1 (hr.points es hes e he p hp).1,
      (h.points es hes e he p hp).2 (hr.points es hes e he p hp).2⟩
  moments es hes e he x hx := h.moments es hes e he x hx (hr.moments es hes e he x hx)
  timing := h.timing hr.timing

end JobResult

theorem Point.plain_toJson (p : Point Binary32) : p.toJson.Plain :=
  .array (by simp [Plain.ofBinary])

theorem Origin.plain_toJson (o : Origin) : o.toJson.Plain :=
  .array (by simp [Plain.ofInt])

theorem EdgeReport.plain_toJson (e : EdgeReport32) : e.toJson.Plain := by
  refine .ofFields ?_
  simp [Plain.ofInt, Origin.plain_toJson, Plain.ofList Point.plain_toJson, Moments.toJson,
    Plain.ofList (Plain.ofBinary .double)]

theorem JobResult.plain_toJson (r : JobResult32) : r.toJson.Plain := by
  rw [toJson_eq_present]
  refine .ofFields_present _ fun v hv => ?_
  simp only [fieldValues, List.mem_cons, List.not_mem_nil, or_false, Option.some.injEq] at hv
  rcases hv with rfl | rfl | hv | hv | hv | rfl
  · exact .ofString r.id
  · exact .ofString r.status
  · obtain ⟨c, -, rfl⟩ := Option.map_eq_some_iff.mp hv.symm
    exact .ofList (.ofBinary .single) c.toList
  · obtain ⟨es, -, rfl⟩ := Option.map_eq_some_iff.mp hv.symm
    exact .ofList EdgeReport.plain_toJson es
  · obtain ⟨s, -, rfl⟩ := Option.map_eq_some_iff.mp hv.symm
    exact .ofString s
  · exact .ofFields (by simp [Plain.ofBinary])

theorem JobResult.parse?_text (r : JobResult32) : parse? r.text = ofJson? r.toJson := by
  rw [parse?, text, r.plain_toJson.parse?_text, Option.bind_eq_bind, Option.bind_some]

namespace Job

theorem forallNumbers_isFinite (job : Job32) {ms : Binary64} (hms : ms.isFinite)
    (hcoefficients :
      (job.run : JobResult32).coefficients.all (Coefficients.all Arithmetic.isFinite)) :
    JobResult.ForallNumbers (·.isFinite) (·.isFinite) { job.run with totalMilliseconds := ms } where
  coefficients c hc := List.all_eq_true.mp ((Option.all_eq_true _ _).mp hcoefficients c hc)
  points _ hes e he p hp :=
    Bool.and_eq_true_iff.mp ((job.isFinite_reports hes e he).1 p hp)
  moments _ hes e he := (job.isFinite_reports hes e he).2
  timing := hms

theorem result_line_reads_back (job : Job32) (ms : Binary64) (hms : ms.isFinite)
    (hreads : JobResult.FiniteNumbersReadBack { job.run with totalMilliseconds := ms }) :
    let r : JobResult32 := { job.run with totalMilliseconds := ms }
    (∀ reports ∈ r.edges, ∀ e ∈ reports, e.IsFinite) ∧
    JobResult.parse? r.text =
      if r.coefficients.all (Coefficients.all Arithmetic.isFinite) then some r else none := by
  intro r
  refine ⟨fun reports hreports => job.isFinite_reports hreports, ?_⟩
  rw [JobResult.parse?_text]
  split_ifs with h
  · exact JobResult.ofJson?_toJson (hreads.mp (job.forallNumbers_isFinite hms h))
  · exact JobResult.ofJson?_toJson_of_not_isFinite h

theorem result_line_reads_back_mixed :
    let r : JobResult32 :=
      { Job.run { mixedJob with edges := mixedJob.edges.take 1 } with
        totalMilliseconds := .ofNat 1 }
    r.FiniteNumbersReadBack ∧ JobResult.parse? r.text = some r := by
  have hreads : JobResult.FiniteNumbersReadBack
      { Job.run { mixedJob with edges := mixedJob.edges.take 1 } with
        totalMilliseconds := .ofNat 1 } :=
    ⟨by decide +kernel, by decide +kernel, by decide +kernel, by decide +kernel⟩
  obtain ⟨-, hparse⟩ := result_line_reads_back _ _ (by decide +kernel) hreads
  exact ⟨hreads, hparse.trans (if_pos (by decide +kernel))⟩

end Job

def steepJob : Job32 :=
  let p (x y : Nat) : Point Binary32 := ⟨.ofNat x, .ofNat y⟩
  { id := "steep", half := 1, origin := ⟨0, 0⟩, coefficients := .zero
    edges := [⟨0, [p (2 ^ 64) 0, p (2 ^ 64) (2 ^ 67)]⟩] }

theorem Job.result_line_steep :
    steepJob.validate = .ok () ∧ (steepJob.run : JobResult32).FiniteNumbersReadBack ∧
      JobResult.parse? (steepJob.run : JobResult32).text = none := by
  have hreads : (steepJob.run : JobResult32).FiniteNumbersReadBack :=
    ⟨by decide +kernel, by decide +kernel, by decide +kernel, by decide +kernel⟩
  have hoverflow : ¬(steepJob.run : JobResult32).coefficients.all
      (Coefficients.all Arithmetic.isFinite) := by
    decide +kernel
  refine ⟨by decide, hreads, ?_⟩
  rw [JobResult.parse?_text, JobResult.ofJson?_toJson_of_not_isFinite hoverflow]

end WaveletRaster
