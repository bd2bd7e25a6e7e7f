import Mathlib
import WaveletRaster.Command.Arguments
import WaveletRaster.Proofs.Command.Batch
import WaveletRaster.Proofs.Command.OneShot

/-! The preconditions of dispatch. Every value read from the arguments passes through one setter,
which checks it, so that an invariant of the setter holds of whatever is asked for. So half-extents
are positive and quadrants exist wherever an edge is dispatched. -/

namespace WaveletRaster

/-- A property of option values that reading one more option keeps. -/
structure OptionValues.IsInvariant (P : OptionValues → Prop) : Prop where
  set : ∀ {v : OptionValues}, P v → ∀ key text, SatisfiesM P (v.set key text)
  setVerbose : ∀ {v : OptionValues}, P v → SatisfiesM P v.setVerbose

namespace ArgumentScan

theorem satisfiesM_error {α : Type} {p : α → Prop} (e : ArgumentError) :
    SatisfiesM p (.error e : Except ArgumentError α) := by
  rw [SatisfiesM_Except_eq]
  intro a h
  cases h

section
variable {P : OptionValues → Prop} (hP : OptionValues.IsInvariant P) {s : ArgumentScan}
include hP

theorem satisfiesM_resolve (hs : P s.values) :
    SatisfiesM (fun t => P t.values) s.resolve := by
  unfold resolve
  split
  · exact .pure hs
  · exact satisfiesM_error _
  · exact (hP.set hs _ _).bind fun v hv => .pure hv

theorem satisfiesM_takeKey (hs : P s.values) (key : Key) (attached : Option String) :
    SatisfiesM (fun t => P t.values) (s.takeKey key attached) := by
  unfold takeKey
  apply (satisfiesM_resolve hP hs).bind
  intro t ht
  cases attached with
  | none => exact .pure ht
  | some text => exact (hP.set ht key text).bind fun v hv => .pure hv

theorem satisfiesM_takeFlag (hs : P s.values) (switch : Switch) :
    SatisfiesM (fun t => P t.values) (s.takeFlag switch) := by
  unfold takeFlag
  apply (satisfiesM_resolve hP hs).bind
  intro t ht
  cases switch with
  | verbose => exact (hP.setVerbose ht).bind fun v hv => .pure hv
  | _ => exact satisfiesM_error _

theorem satisfiesM_takeLong (c : Command) (hs : P s.values) (body : List Char) :
    SatisfiesM (fun t => P t.values) (takeLong c s body) := by
  unfold takeLong
  dsimp only
  split
  · exact satisfiesM_error _
  · exact satisfiesM_takeKey hP hs _ _
  · exact satisfiesM_error _
  · exact satisfiesM_takeFlag hP hs _

theorem satisfiesM_takeCluster (c : Command) (hs : P s.values) (letters : List Char) :
    SatisfiesM (fun t => P t.values) (takeCluster c s letters) := by
  induction letters generalizing s with
  | nil => exact .pure hs
  | cons letter rest ih =>
    unfold takeCluster
    split
    · exact satisfiesM_error _
    · split
      · exact satisfiesM_takeKey hP hs _ _
      · exact satisfiesM_takeKey hP hs _ _
      · exact satisfiesM_takeKey hP hs _ _
    · exact (satisfiesM_takeFlag hP hs _).bind fun t ht => ih ht

omit hP in
theorem satisfiesM_takeValue (hs : P s.values) (text : String) :
    SatisfiesM (fun t => P t.values) (s.takeValue text) := by
  unfold takeValue
  split
  · exact .pure hs
  · exact satisfiesM_error _

theorem satisfiesM_step (c : Command) (hs : P s.values) (argument : String) :
    SatisfiesM (fun t => P t.values) (step c s argument) := by
  unfold step
  split_ifs
  · exact satisfiesM_error _
  · exact satisfiesM_takeValue hs argument
  · split
    · exact .pure hs
    · exact satisfiesM_takeLong hP c hs _
    · exact satisfiesM_takeCluster hP c hs _
    · exact satisfiesM_takeValue hs argument

theorem satisfiesM_foldlM (c : Command) (hs : P s.values) (arguments : List String) :
    SatisfiesM (fun t => P t.values) (arguments.foldlM (step c) s) := by
  apply List.satisfiesM_foldlM (motive := fun t : ArgumentScan => P t.values) hs
  intro t ht argument _
  exact satisfiesM_step hP c ht argument

end
end ArgumentScan

theorem Command.exists_values_of_request {P : OptionValues → Prop}
    (hP : OptionValues.IsInvariant P) (hstart : P {}) {c : Command} {arguments : List String}
    {r : Request} (h : c.request arguments = .ok r) : ∃ v, P v ∧ v.request c = .ok r := by
  unfold request at h
  obtain ⟨s, hscan, h⟩ := bind_eq_ok_iff.mp h
  obtain ⟨t, hresolve, h⟩ := bind_eq_ok_iff.mp h
  have hs : P s.values := SatisfiesM_Except_eq.mp
    (ArgumentScan.satisfiesM_foldlM hP c hstart arguments) s hscan
  have ht : P t.values := SatisfiesM_Except_eq.mp
    (ArgumentScan.satisfiesM_resolve hP hs) t hresolve
  exact ⟨t.values, ht, h⟩

namespace OptionValues

structure InRange (v : OptionValues) : Prop where
  half : ∀ half ∈ v.half, 1 ≤ half.toNat ∧ half.toNat ≤ 2 ^ 24
  quadrant : ∀ index ∈ v.quadrant, index ≤ 3

theorem toNat_of_readRanged {least greatest : Nat} {text : String} {n : UInt32}
    (hgreatest : greatest < 2 ^ 32) (h : readRanged least greatest text = .ok n) :
    least ≤ n.toNat ∧ n.toNat ≤ greatest := by
  unfold readRanged at h
  obtain ⟨value, -, h⟩ := bind_eq_ok_iff.mp h
  split_ifs at h with hrange
  obtain ⟨hleast, hle⟩ := hrange
  obtain rfl := Except.ok.inj h
  rw [UInt32.toNat_ofNat_of_lt' (by show value.toNat < 2 ^ 32; omega)]
  omega

theorem InRange.read {v w : OptionValues} (hv : v.InRange) {key : Key} {text : String}
    (h : v.read key text = .ok w) : w.InRange := by
  cases key with
  | half =>
    obtain ⟨n, hn, h⟩ := bind_eq_ok_iff.mp h
    obtain rfl := Except.ok.inj h
    refine ⟨?_, hv.quadrant⟩
    rintro _ ⟨⟩
    exact toNat_of_readRanged (by decide) hn
  | quadrant =>
    obtain ⟨n, hn, h⟩ := bind_eq_ok_iff.mp h
    obtain rfl := Except.ok.inj h
    refine ⟨hv.half, ?_⟩
    rintro _ ⟨⟩
    exact UInt32.le_iff_toNat_le.mpr (toNat_of_readRanged (by decide) hn).2
  | input =>
    obtain rfl := Except.ok.inj h
    exact ⟨hv.half, hv.quadrant⟩
  | origin | points | coeffs | jobs =>
    obtain ⟨_, -, h⟩ := bind_eq_ok_iff.mp h
    obtain rfl := Except.ok.inj h
    exact ⟨hv.half, hv.quadrant⟩

theorem isInvariant_inRange : IsInvariant InRange where
  set := by
    intro v hv key text
    rw [SatisfiesM_Except_eq]
    intro w h
    unfold OptionValues.set at h
    exact hv.read (mapError_eq_ok_iff.mp (ite_error_eq_ok_iff.mp h).2)
  setVerbose := by
    intro v hv
    rw [SatisfiesM_Except_eq]
    intro w h
    unfold OptionValues.setVerbose at h
    obtain ⟨-, h⟩ := ite_error_eq_ok_iff.mp h
    obtain rfl := Except.ok.inj h
    exact ⟨hv.half, hv.quadrant⟩

theorem inRange_default : InRange {} := ⟨by rintro _ ⟨⟩, by rintro _ ⟨⟩⟩

theorem required_eq_ok_iff {α : Type} {value : Option α} {x : α} :
    required value = .ok x ↔ value = some x := by
  cases value <;> simp [required]

end OptionValues

namespace Request

theorem exists_command_of_ofArguments {arguments : List String} {r : Request}
    (h : ofArguments arguments = .ok r) :
    ∃ (c : Command) (rest : List String), c.request rest = .ok r := by
  unfold ofArguments at h
  split at h
  · cases h
  · split at h
    · exact ⟨_, _, h⟩
    · split_ifs at h

def InRange : Request → Prop
  | .moments half _ _ => 1 ≤ half.toNat ∧ half.toNat ≤ 2 ^ 24
  | .coeffs half index _ _ _ _ => (1 ≤ half.toNat ∧ half.toNat ≤ 2 ^ 24) ∧ index ≤ 3
  | _ => True

theorem inRange_of_request {v : OptionValues} (hv : v.InRange) {c : Command} {r : Request}
    (h : v.request c = .ok r) : r.InRange := by
  cases c with
  | moments =>
    obtain ⟨half, hhalf, h⟩ := bind_eq_ok_iff.mp h
    obtain ⟨points, -, h⟩ := bind_eq_ok_iff.mp h
    obtain rfl := Except.ok.inj h
    exact hv.half half (OptionValues.required_eq_ok_iff.mp hhalf)
  | coeffs =>
    obtain ⟨half, hhalf, h⟩ := bind_eq_ok_iff.mp h
    obtain ⟨index, hindex, h⟩ := bind_eq_ok_iff.mp h
    obtain ⟨points, -, h⟩ := bind_eq_ok_iff.mp h
    obtain rfl := Except.ok.inj h
    exact ⟨hv.half half (OptionValues.required_eq_ok_iff.mp hhalf),
      hv.quadrant index (OptionValues.required_eq_ok_iff.mp hindex)⟩
  | batch | stream | version =>
    obtain rfl := Except.ok.inj h
    trivial

theorem inRange_of_ofArguments {arguments : List String} {r : Request}
    (h : ofArguments arguments = .ok r) : r.InRange := by
  obtain ⟨c, rest, h⟩ := exists_command_of_ofArguments h
  obtain ⟨v, hv, h⟩ := Command.exists_values_of_request OptionValues.isInvariant_inRange
    OptionValues.inRange_default h
  exact inRange_of_request hv h

end Request

theorem dispatch_preconditions_hold :
    (∀ (arguments : List String) (half index : UInt32) (origin : Origin)
      (points : List (Point Binary32)) (c : Coefficients Binary32) (verbose : Bool),
      Request.ofArguments arguments = .ok (.coeffs half index origin points c verbose) →
        (1 ≤ half.toNat ∧ half.toNat ≤ 2 ^ 24) ∧ index ≤ 3 ∧
        (∀ (s : Segment Binary32) (o : Origin) (c' : Coefficients Binary32),
          s.tryDispatch half index o c' = .ok (s.dispatch half index o c')) ∧
        ∀ e, runCoeffs half index origin points c = .error e →
          ∃ source, Segment.ofPoints points = .error source ∧ e = .invalidEdge source) ∧
    (∀ (arguments : List String) (half : UInt32) (points : List (Point Binary32)) (verbose : Bool),
      Request.ofArguments arguments = .ok (.moments half points verbose) →
        1 ≤ half.toNat ∧ half.toNat ≤ 2 ^ 24) ∧
    (∀ {m : Type → Type} [Monad m] (dispatch dispatch' : Dispatcher Binary32 m) (job : Job32),
      dispatch.AgreeInRange dispatch' →
        (job.runThrough dispatch : m JobResult32) = job.runThrough dispatch') ∧
    ∀ job : Job32, (job.runThrough .unchecked : Id JobResult32) = job.run ∧
      job.runThrough Segment.tryDispatch = .ok (job.run : JobResult32) := by
  refine ⟨?_, ?_, ?_, ?_⟩
  · intro arguments half index origin points c verbose h
    obtain ⟨hhalf, hindex⟩ : (1 ≤ half.toNat ∧ half.toNat ≤ 2 ^ 24) ∧ index ≤ 3 :=
      Request.inRange_of_ofArguments h
    have hpos : 0 < half := UInt32.lt_iff_toNat_lt.mpr hhalf.1
    refine ⟨hhalf, hindex, ?_, ?_⟩
    · intro s o c'
      exact s.tryDispatch_eq_ok hpos hindex o c'
    · intro e he
      exact exists_of_runCoeffs_eq_error hpos hindex he
  · intro arguments half points verbose h
    exact Request.inRange_of_ofArguments h
  · intro m _ dispatch dispatch' job h
    exact Job.runThrough_congr h job
  · intro job
    exact ⟨job.runThrough_unchecked, job.runThrough_tryDispatch⟩

theorem dispatch_preconditions_hold_at_the_limits :
    let arguments := ["coeffs", "-q3", "--half=16777216", "--points", "-1,2 inf,4", "-v"]
    let points : List (Point Binary32) := [⟨-.ofNat 1, .ofNat 2⟩, ⟨.infinity false, .ofNat 4⟩]
    let moments (half : String) := Request.ofArguments ["moments", "-p", "2,3 1,0", "--half", half]
    let guarded : Dispatcher Binary32 Option := fun s half index origin c =>
      if 0 < half ∧ index ≤ 3 then some (s.dispatch half index origin c) else none
    Request.ofArguments arguments = .ok (.coeffs 16777216 3 .zero points .zero true) ∧
    (∃ source, Segment.ofPoints points = .error source ∧
      runCoeffs 16777216 3 .zero points .zero = .error (.invalidEdge source)) ∧
    (∃ half points, moments "1" = .ok (.moments half points false) ∧ 1 ≤ half.toNat) ∧
    moments "0" = .error (.invalidValue .half (.outOfRange 0 1 16777216)) ∧
    (mixedJob.runThrough guarded : Option JobResult32) = mixedJob.runThrough .unchecked := by
  intro arguments points moments guarded
  obtain ⟨hcoeffs, hmoments, hjobs, -⟩ := dispatch_preconditions_hold
  have haccepted : Request.ofArguments arguments =
      .ok (.coeffs 16777216 3 .zero points .zero true) := by decide +kernel
  have hleast : moments "1" =
      .ok (.moments 1 [⟨.ofNat 2, .ofNat 3⟩, ⟨.ofNat 1, .ofNat 0⟩] false) := by decide +kernel
  have hrefused : runCoeffs 16777216 3 .zero points .zero =
      .error (.invalidEdge (.nonFiniteCoordinate 1)) := by decide +kernel
  have hagree : guarded.AgreeInRange .unchecked := by
    intro s half index origin c hhalf hindex
    exact if_pos ⟨hhalf, hindex⟩
  obtain ⟨-, -, -, herror⟩ := hcoeffs arguments _ _ _ _ _ _ haccepted
  obtain ⟨source, hsource, hinvalid⟩ := herror _ hrefused
  refine ⟨haccepted, ⟨source, hsource, hinvalid ▸ hrefused⟩, ?_, by decide +kernel,
    hjobs guarded .unchecked mixedJob hagree⟩
  exact ⟨_, _, hleast, (hmoments _ _ _ _ hleast).1⟩

end WaveletRaster
