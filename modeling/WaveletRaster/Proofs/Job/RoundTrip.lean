import Mathlib
import WaveletRaster.Proofs.Job.Json
import WaveletRaster.Proofs.Json.Legible

/-! Jobs, specifications and results read back from their JSON form. A field that may be missing is
read as its default, and an absent field of a result is left out when it is written. -/

namespace WaveletRaster

open Json

namespace Json

def Lacks (v : Json) (name : String) : Prop :=
  ∃ entries, v = .object entries ∧ ∀ e ∈ entries, textOf? e.1 ≠ some name

/-- The text is that of an object without a field of this name. -/
def TextLacks (text name : String) : Prop := ∃ v, parse? text = some v ∧ v.Lacks name

theorem fields?_of_lacks {v : Json} {names : List String} {values : List (Option Json)}
    {name : String} (h : v.fields? names = some values) (hv : v.Lacks name) :
    List.Forall₂ (fun n value => n = name → value = none) names values := by
  obtain ⟨entries, rfl, hentries⟩ := hv
  obtain ⟨typed, htyped, h⟩ := Option.bind_eq_some_iff.mp h
  have hnot : ∀ e ∈ typed, e.1 ≠ name := by
    intro e he
    obtain ⟨entry, hentry, hread⟩ := exists_of_mapM_eq_some htyped he
    obtain ⟨k, hk, ⟨⟩⟩ := Option.bind_eq_some_iff.mp hread
    rintro rfl
    exact hentries entry hentry hk
  refine (forall₂_of_mapM_eq_some h).imp fun n value hvalue hn => ?_
  rw [hn, filter_eq_nil hnot] at hvalue
  exact (Option.some.inj hvalue).symm

theorem lacks_ofFields_iff {entries : List (String × Json)} {name : String} :
    (ofFields entries).Lacks name ↔ ∀ e ∈ entries, e.1 ≠ name := by
  have hkey (k : String) : textOf? (escape k) ≠ some name ↔ k ≠ name := by simp [textOf?_escape]
  constructor
  · rintro ⟨_, ⟨⟩, h⟩ e he
    exact (hkey e.1).mp (h _ (List.mem_map_of_mem he))
  · intro h
    exact ⟨_, rfl, List.forall_mem_map.mpr fun e he => (hkey e.1).mpr (h e he)⟩

theorem textLacks_iff {text name : String} {v : Json} (h : parse? text = some v) :
    TextLacks text name ↔ v.Lacks name := by
  simp [TextLacks, h]

end Json

theorem EdgePiece.ofJson?_toJson {e : EdgePiece Binary32}
    (h : ∀ p ∈ e.points, ReadsBack .single p.x ∧ ReadsBack .single p.y) :
    ofJson? e.toJson = some e := by
  have hfields : e.toJson.fields? ["quadrant", "points"] =
      some [some (.ofInt e.quadrant.toNat), some (.ofList Point.toJson e.points)] :=
    fields?_eq_of_present rfl (by decide) rfl
  have hlist : (ofList Point.toJson e.points).toList? Point.ofJson? = some e.points :=
    toList?_ofList fun p hp => Point.ofJson?_toJson (h p hp).1 (h p hp).2
  simp [ofJson?, hfields, required, toUInt32?_ofInt, hlist]

theorem EdgePiece.plain_toJson (e : EdgePiece Binary32) : e.toJson.Plain :=
  .ofFields (by simp [Plain.ofInt, Plain.ofList Point.plain_toJson])

namespace Job

structure ForallNumbers (single : Binary32 → Prop) (job : Job32) : Prop where
  coefficients : ∀ x ∈ job.coefficients.toList, single x
  points : ∀ piece ∈ job.edges, ∀ p ∈ piece.points, single p.x ∧ single p.y

def FiniteNumbersReadBack : Job32 → Prop :=
  ForallNumbers fun x => x.isFinite → ReadsBack .single x

theorem ForallNumbers.mp {p p' : Binary32 → Prop} {job : Job32}
    (h : job.ForallNumbers fun x => p x → p' x) (hjob : job.ForallNumbers p) :
    job.ForallNumbers p' where
  coefficients x hx := h.coefficients x hx (hjob.coefficients x hx)
  points piece hpiece p hp :=
    ⟨(h.points piece hpiece p hp).1 (hjob.points piece hpiece p hp).1,
      (h.points piece hpiece p hp).2 (hjob.points piece hpiece p hp).2⟩

theorem ofJson?_toJson {job : Job32} (h : job.ForallNumbers (ReadsBack .single)) :
    ofJson? job.toJson = some job := by
  have hfields : job.toJson.fields? ["id", "half", "origin", "coeffs", "edges"] =
      some [some (.ofString job.id), some (.ofInt job.half.toNat), some job.origin.toJson,
        some job.coefficients.toJson, some (.ofList EdgePiece.toJson job.edges)] :=
    fields?_eq_of_present rfl (by decide) rfl
  have hedges : (ofList EdgePiece.toJson job.edges).toList? EdgePiece.ofJson? = some job.edges :=
    toList?_ofList fun piece hpiece => EdgePiece.ofJson?_toJson (h.points piece hpiece)
  simp [ofJson?, hfields, required, withDefault, toString?_ofString, toUInt32?_ofInt,
    Origin.ofJson?_toJson, Coefficients.ofJson?_toJson h.coefficients, hedges]

theorem plain_toJson (job : Job32) : job.toJson.Plain := by
  refine .ofFields ?_
  simp [Plain.ofString, Plain.ofInt, Origin.plain_toJson, Coefficients.toJson,
    Plain.ofList (Plain.ofBinary .single), Plain.ofList EdgePiece.plain_toJson]

theorem parse?_text (job : Job32) : parse? job.text = ofJson? job.toJson := by
  rw [parse?, text, job.plain_toJson.parse?_text, Option.bind_eq_bind, Option.bind_some]

theorem defaults_of_lacks {v : Json} {job : Job32} (h : ofJson? v = some job) :
    (v.Lacks "origin" → job.origin = .zero) ∧ (v.Lacks "coeffs" → job.coefficients = .zero) := by
  obtain ⟨fields, hfields, h⟩ := Option.bind_eq_some_iff.mp h
  split at h
  · rename_i id half origin coefficients edges
    obtain ⟨_, -, h⟩ := Option.bind_eq_some_iff.mp h
    obtain ⟨_, -, h⟩ := Option.bind_eq_some_iff.mp h
    obtain ⟨o, horigin, h⟩ := Option.bind_eq_some_iff.mp h
    obtain ⟨c, hcoefficients, h⟩ := Option.bind_eq_some_iff.mp h
    obtain ⟨_, -, ⟨⟩⟩ := Option.bind_eq_some_iff.mp h
    constructor
    · intro hv
      obtain rfl : origin = none := by simpa using fields?_of_lacks hfields hv
      exact (Option.some.inj horigin).symm
    · intro hv
      obtain rfl : coefficients = none := by simpa using fields?_of_lacks hfields hv
      exact (Option.some.inj hcoefficients).symm
  · cases h

end Job

namespace JobSpec

def ForallNumbers (single : Binary32 → Prop) (spec : JobSpec32) : Prop :=
  ∀ job ∈ spec.jobs, job.ForallNumbers single

def FiniteNumbersReadBack : JobSpec32 → Prop :=
  ForallNumbers fun x => x.isFinite → ReadsBack .single x

theorem ofJson?_toJson {spec : JobSpec32} (h : spec.ForallNumbers (ReadsBack .single)) :
    ofJson? spec.toJson = some spec := by
  have hfields : spec.toJson.fields? ["version", "jobs"] =
      some [some (.ofString spec.version), some (.ofList Job.toJson spec.jobs)] :=
    fields?_eq_of_present rfl (by decide) rfl
  have hjobs : (ofList Job.toJson spec.jobs).toList? Job.ofJson? = some spec.jobs :=
    toList?_ofList fun job hjob => Job.ofJson?_toJson (h job hjob)
  simp [ofJson?, hfields, required, toString?_ofString, hjobs]

theorem plain_toJson (spec : JobSpec32) : spec.toJson.Plain :=
  .ofFields (by simp [Plain.ofString, Plain.ofList Job.plain_toJson])

theorem parse?_text (spec : JobSpec32) : parse? spec.text = ofJson? spec.toJson := by
  rw [parse?, text, spec.plain_toJson.parse?_text, Option.bind_eq_bind, Option.bind_some]

theorem exists_items {v : Json} {spec : JobSpec32} (h : ofJson? v = some spec) :
    ∃ version items, v.fields? ["version", "jobs"] = some [version, some (.array items)] ∧
      List.Forall₂ (fun item job => Job.ofJson? item = some job) items spec.jobs := by
  obtain ⟨fields, hfields, h⟩ := Option.bind_eq_some_iff.mp h
  split at h
  · obtain ⟨_, -, h⟩ := Option.bind_eq_some_iff.mp h
    obtain ⟨_, hjobs, ⟨⟩⟩ := Option.bind_eq_some_iff.mp h
    obtain ⟨w, rfl, hw⟩ := Option.bind_eq_some_iff.mp hjobs
    unfold toList? at hw
    split at hw
    · exact ⟨_, _, hfields, forall₂_of_mapM_eq_some hw⟩
    · cases hw
  · cases h

def Lists (text : String) (items : List Json) : Prop :=
  ∃ v version, Json.parse? text = some v ∧
    v.fields? ["version", "jobs"] = some [version, some (.array items)]

end JobSpec

namespace JobResult

theorem absent_of_lacks {v : Json} {r : JobResult32} (h : ofJson? v = some r) :
    (v.Lacks "coeffs" → r.coefficients = none) ∧ (v.Lacks "edges" → r.edges = none) ∧
      (v.Lacks "error" → r.error = none) := by
  obtain ⟨fields, hfields, h⟩ := Option.bind_eq_some_iff.mp h
  split at h
  · rename_i id status coefficients edges error timing
    obtain ⟨_, -, h⟩ := Option.bind_eq_some_iff.mp h
    obtain ⟨_, -, h⟩ := Option.bind_eq_some_iff.mp h
    obtain ⟨c, hcoefficients, h⟩ := Option.bind_eq_some_iff.mp h
    obtain ⟨es, hedges, h⟩ := Option.bind_eq_some_iff.mp h
    obtain ⟨e, herror, h⟩ := Option.bind_eq_some_iff.mp h
    obtain ⟨_, -, ⟨⟩⟩ := Option.bind_eq_some_iff.mp h
    refine ⟨fun hv => ?_, fun hv => ?_, fun hv => ?_⟩
    · obtain rfl : coefficients = none := by simpa using fields?_of_lacks hfields hv
      exact (Option.some.inj hcoefficients).symm
    · obtain rfl : edges = none := by simpa using fields?_of_lacks hfields hv
      exact (Option.some.inj hedges).symm
    · obtain rfl : error = none := by simpa using fields?_of_lacks hfields hv
      exact (Option.some.inj herror).symm
  · cases h

theorem lacks_toJson_iff (r : JobResult32) :
    (r.toJson.Lacks "coeffs" ↔ r.coefficients = none) ∧
      (r.toJson.Lacks "edges" ↔ r.edges = none) ∧ (r.toJson.Lacks "error" ↔ r.error = none) := by
  obtain ⟨id, status, coefficients, edges, error, ms⟩ := r
  simp only [toJson, lacks_ofFields_iff]
  cases coefficients <;> cases edges <;> cases error <;> simp

end JobResult

theorem reread_eq {α : Type} {read? : String → Option α} {write : α → String} {text : String} {x : α}
    (hread : read? text = some x) (hwrite : read? (write x) = some x) :
    ((read? text).map write).bind read? = some x := by
  rw [hread]
  exact hwrite

theorem written_values_read_back :
    (∀ job : Job32, job.ForallNumbers (·.isFinite) → job.FiniteNumbersReadBack →
      Job.parse? job.text = some job) ∧
    (∀ spec : JobSpec32, spec.ForallNumbers (·.isFinite) → spec.FiniteNumbersReadBack →
      JobSpec.parse? spec.text = some spec) ∧
    (∀ r : JobResult32, r.ForallNumbers (·.isFinite) (·.isFinite) → r.FiniteNumbersReadBack →
      JobResult.parse? r.text = some r) ∧
    (∀ text job, Job.parse? text = some job →
      (job.ForallNumbers (·.isFinite) → job.FiniteNumbersReadBack →
        ((Job.parse? text).map Job.text).bind Job.parse? = some job) ∧
      (TextLacks text "origin" → job.origin = .zero) ∧
      (TextLacks text "coeffs" → job.coefficients = .zero)) ∧
    (∀ text spec, JobSpec.parse? text = some spec →
      (spec.ForallNumbers (·.isFinite) → spec.FiniteNumbersReadBack →
        ((JobSpec.parse? text).map JobSpec.text).bind JobSpec.parse? = some spec) ∧
      ∃ items, JobSpec.Lists text items ∧
        List.Forall₂ (fun item job => Job.ofJson? item = some job ∧
          (item.Lacks "origin" → job.origin = .zero) ∧
          (item.Lacks "coeffs" → job.coefficients = .zero)) items spec.jobs) ∧
    ∀ text r, JobResult.parse? text = some r →
      (r.ForallNumbers (·.isFinite) (·.isFinite) → r.FiniteNumbersReadBack →
        ((JobResult.parse? text).map JobResult.text).bind JobResult.parse? = some r) ∧
      (TextLacks text "coeffs" → r.coefficients = none) ∧
      (TextLacks text "edges" → r.edges = none) ∧
      (TextLacks text "error" → r.error = none) ∧
      (TextLacks r.text "coeffs" ↔ r.coefficients = none) ∧
      (TextLacks r.text "edges" ↔ r.edges = none) ∧
      (TextLacks r.text "error" ↔ r.error = none) := by
  have hjob (job : Job32) (hfinite : job.ForallNumbers (·.isFinite))
      (hreads : job.FiniteNumbersReadBack) : Job.parse? job.text = some job := by
    rw [Job.parse?_text]
    exact Job.ofJson?_toJson (hreads.mp hfinite)
  have hspec (spec : JobSpec32) (hfinite : spec.ForallNumbers (·.isFinite))
      (hreads : spec.FiniteNumbersReadBack) : JobSpec.parse? spec.text = some spec := by
    rw [JobSpec.parse?_text]
    exact JobSpec.ofJson?_toJson fun job h => (hreads job h).mp (hfinite job h)
  have hresult (r : JobResult32) (hfinite : r.ForallNumbers (·.isFinite) (·.isFinite))
      (hreads : r.FiniteNumbersReadBack) : JobResult.parse? r.text = some r := by
    rw [JobResult.parse?_text]
    exact JobResult.ofJson?_toJson (hreads.mp hfinite)
  refine ⟨hjob, hspec, hresult, fun text job h => ?_, fun text spec h => ?_, fun text r h => ?_⟩
  · refine ⟨fun hfinite hreads => reread_eq h (hjob job hfinite hreads), ?_⟩
    obtain ⟨v, hv, h⟩ := Option.bind_eq_some_iff.mp h
    simp only [textLacks_iff hv]
    exact Job.defaults_of_lacks h
  · refine ⟨fun hfinite hreads => reread_eq h (hspec spec hfinite hreads), ?_⟩
    obtain ⟨v, hv, h⟩ := Option.bind_eq_some_iff.mp h
    obtain ⟨version, items, hfields, hitems⟩ := JobSpec.exists_items h
    exact ⟨items, ⟨v, version, hv, hfields⟩,
      hitems.imp fun item job h => ⟨h, Job.defaults_of_lacks h⟩⟩
  · refine ⟨fun hfinite hreads => reread_eq h (hresult r hfinite hreads), ?_⟩
    obtain ⟨v, hv, h⟩ := Option.bind_eq_some_iff.mp h
    have hwritten : parse? r.text = some r.toJson := r.plain_toJson.parse?_text
    obtain ⟨hcoefficients, hedges, herror⟩ := JobResult.absent_of_lacks h
    simp only [textLacks_iff hv, textLacks_iff hwritten]
    exact ⟨hcoefficients, hedges, herror, r.lacks_toJson_iff⟩

def partialResult : JobResult32 :=
  { id := "\"\n", status := "odd", coefficients := some mixedJob.coefficients, edges := none
    error := some "", totalMilliseconds := -.ofNat 1 }

def bareJob : Json := .ofFields [("half", .ofInt 4), ("id", .ofString "bare"), ("edges", .array [])]

theorem written_values_read_back_mixed :
    Job.parse? mixedJob.text = some mixedJob ∧
    JobSpec.parse? (⟨"1.0", [mixedJob]⟩ : JobSpec32).text = some ⟨"1.0", [mixedJob]⟩ ∧
    JobResult.parse? partialResult.text = some partialResult ∧
    TextLacks partialResult.text "edges" ∧
    ∃ job, Job.parse? bareJob.text = some job ∧ job.origin = .zero ∧ job.coefficients = .zero := by
  obtain ⟨hjob, hspec, hresult, hmissing, -, habsent⟩ := written_values_read_back
  have hfinite : mixedJob.ForallNumbers (·.isFinite) := ⟨by decide +kernel, by decide +kernel⟩
  have hreads : mixedJob.FiniteNumbersReadBack := ⟨by decide +kernel, by decide +kernel⟩
  have hpartial : JobResult.parse? partialResult.text = some partialResult :=
    hresult _ ⟨by decide +kernel, by decide +kernel, by decide +kernel, by decide +kernel⟩
      ⟨by decide +kernel, by decide +kernel, by decide +kernel, by decide +kernel⟩
  have hplain : bareJob.Plain := .ofFields (by simp [Plain.ofInt, Plain.ofString, Plain.array])
  have hlacks (name : String) (h : name ≠ "half" ∧ name ≠ "id" ∧ name ≠ "edges") :
      TextLacks bareJob.text name :=
    ⟨bareJob, hplain.parse?_text, lacks_ofFields_iff.mpr (by simp [h, eq_comm])⟩
  obtain ⟨job, hbare⟩ := Option.isSome_iff_exists.mp
    (by decide +kernel : (Job.parse? bareJob.text).isSome)
  obtain ⟨-, horigin, hcoefficients⟩ := hmissing _ _ hbare
  exact ⟨hjob _ hfinite hreads,
    hspec _ (List.forall_mem_singleton.mpr hfinite) (List.forall_mem_singleton.mpr hreads), hpartial,
    (habsent _ _ hpartial).2.2.2.2.2.1.mpr rfl, job, hbare, horigin (hlacks _ (by decide)),
    hcoefficients (hlacks _ (by decide))⟩

end WaveletRaster
