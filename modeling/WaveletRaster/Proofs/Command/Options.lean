import Mathlib
import WaveletRaster.Proofs.Command.Ranges
import WaveletRaster.Proofs.Command.Scan
import WaveletRaster.Proofs.Decimal.Integer

/-! Options in any order. The values of a command are a record by option: reading one of them sets
its own value and touches no other. So options that are given once each leave the same values in
whatever order they come, and every request for coefficients can be written down. -/

namespace WaveletRaster

abbrev Key.Value : Key → Type
  | half | quadrant => UInt32
  | origin => Origin
  | points => List (Point Binary32)
  | coeffs => Coefficients Binary32
  | input => String
  | jobs => Nat

def Key.read : (k : Key) → String → Except ValueError k.Value
  | half, text => OptionValues.readRanged 1 Limits.maxHalf text
  | quadrant, text => OptionValues.readRanged 0 3 text
  | origin, text => (Operand.readOrigin text).mapError .operand
  | points, text => (Operand.readPoints text).mapError .operand
  | coeffs, text => (Operand.readCoefficients text).mapError .operand
  | input, text => .ok text
  | jobs, text => OptionValues.readJobs text

namespace OptionValues

def get (v : OptionValues) : (k : Key) → Option k.Value
  | .half => v.half
  | .quadrant => v.quadrant
  | .origin => v.origin
  | .points => v.points
  | .coeffs => v.coefficients
  | .input => v.input
  | .jobs => v.jobs

def put (v : OptionValues) : (k : Key) → k.Value → OptionValues
  | .half, n => { v with half := some n }
  | .quadrant, n => { v with quadrant := some n }
  | .origin, o => { v with origin := some o }
  | .points, ps => { v with points := some ps }
  | .coeffs, c => { v with coefficients := some c }
  | .input, path => { v with input := some path }
  | .jobs, n => { v with jobs := some n }

section
variable (v : OptionValues) {k : Key}

theorem has_eq (k : Key) : v.has k = (v.get k).isSome := by
  cases k <;> rfl

@[simp]
theorem get_put_self (x : k.Value) : (v.put k x).get k = some x := by
  cases k <;> rfl

theorem get_put_of_ne {j : Key} (h : j ≠ k) (x : k.Value) : (v.put k x).get j = v.get j := by
  cases k <;> cases j <;> first
    | rfl
    | exact absurd rfl h

@[simp]
theorem verbose_put (x : k.Value) : (v.put k x).verbose = v.verbose := by
  cases k <;> rfl

theorem read_eq (k : Key) (text : String) : v.read k text = (k.read text).map (v.put k) := by
  cases k with
  | input => rfl
  | _ => exact bind_ok_eq_map

theorem set_eq_put {text : String} {x : k.Value} (hnew : v.get k = none) (h : k.read text = .ok x) :
    v.set k text = .ok (v.put k x) := by
  rw [set, has_eq, hnew, read_eq, h]
  rfl

end

/-- The values are those of the options that were given, and no others. -/
structure Holds (values : (k : Key) → k.Value) (given : List Switch) (v : OptionValues) : Prop where
  get : ∀ k, v.get k = if .key k ∈ given then some (values k) else none
  verbose : v.verbose = decide (.verbose ∈ given)

section
variable {values : (k : Key) → k.Value} {given : List Switch} {v : OptionValues}

theorem holds_nil : Holds values [] {} where
  get := by
    intro k
    cases k <;> rfl
  verbose := rfl

theorem Holds.take {texts : Key → String} {switch : Switch} (h : v.Holds values given)
    (hnew : switch ∉ given) (hhelp : switch ≠ .help)
    (hread : ∀ k, switch = .key k → k.read (texts k) = .ok (values k)) :
    ∃ w, v.take texts switch = .ok w ∧ w.Holds values (given ++ [switch]) := by
  cases switch with
  | key k =>
    have hnone : v.get k = none := by
      rw [h.get, if_neg hnew]
    refine ⟨v.put k (values k), v.set_eq_put hnone (hread k rfl), ?_, ?_⟩
    · intro j
      by_cases hj : j = k
      · subst hj
        simp
      · rw [get_put_of_ne v hj, h.get]
        simp [hj]
    · rw [verbose_put, h.verbose]
      simp
  | verbose =>
    have hquiet : v.verbose = false := by
      rw [h.verbose, decide_eq_false hnew]
    refine ⟨{ v with verbose := true }, ?_, ?_, ?_⟩
    · rw [OptionValues.take, setVerbose, hquiet]
      rfl
    · intro k
      have hget : ({ v with verbose := true } : OptionValues).get k = v.get k := by
        cases k <;> rfl
      rw [hget, h.get]
      simp
    · simp
  | help => exact absurd rfl hhelp

theorem Holds.foldlM_take {texts : Key → String} {before : List Switch} (h : v.Holds values before)
    (honce : (before ++ given).Nodup) (hhelp : .help ∉ given)
    (hread : ∀ k, .key k ∈ given → k.read (texts k) = .ok (values k)) :
    ∃ w, given.foldlM (OptionValues.take texts) v = .ok w ∧ w.Holds values (before ++ given) := by
  induction given generalizing v before with
  | nil => exact ⟨v, rfl, (List.append_nil before).symm ▸ h⟩
  | cons switch given ih =>
    have hnew : switch ∉ before := fun hmem =>
      (List.nodup_append.mp honce).2.2 _ hmem _ List.mem_cons_self rfl
    obtain ⟨w, hw, hholds⟩ := h.take hnew (fun heq => hhelp (heq ▸ List.mem_cons_self))
      fun k hk => hread k (hk ▸ List.mem_cons_self)
    rw [List.append_cons] at honce ⊢
    obtain ⟨u, hu, hlast⟩ := ih hholds honce (fun hmem => hhelp (List.mem_cons_of_mem _ hmem))
      fun k hk => hread k (List.mem_cons_of_mem _ hk)
    exact ⟨u, by rw [List.foldlM_cons, hw]; exact hu, hlast⟩

def coeffsRequired : List Switch := [.key .half, .key .quadrant, .key .points]

theorem Holds.required_get (h : v.Holds values given) (k : Key) : required (v.get k) =
    if .key k ∈ given then .ok (values k) else .error .requiredMissing := by
  rw [h.get]
  split_ifs <;> rfl

theorem Holds.getD_get (h : v.Holds values given) (k : Key) (x : k.Value) :
    (v.get k).getD x = if .key k ∈ given then values k else x := by
  rw [h.get]
  split_ifs <;> rfl

theorem request_coeffs (v : OptionValues) : v.request .coeffs = (do
    return .coeffs (← required (v.get .half)) (← required (v.get .quadrant))
      ((v.get .origin).getD .zero) (← required (v.get .points)) ((v.get .coeffs).getD .zero)
      v.verbose) := rfl

theorem Holds.request_coeffs_of_subset (h : v.Holds values given)
    (hrequired : coeffsRequired ⊆ given) : v.request .coeffs =
      .ok (.coeffs (values .half) (values .quadrant)
        (if .key .origin ∈ given then values .origin else .zero) (values .points)
        (if .key .coeffs ∈ given then values .coeffs else .zero) (decide (.verbose ∈ given))) := by
  have hpresent {k : Key} (hk : .key k ∈ coeffsRequired) : required (v.get k) = .ok (values k) := by
    rw [h.required_get, if_pos (hrequired hk)]
  rw [request_coeffs, hpresent (by decide), hpresent (by decide), hpresent (by decide),
    h.getD_get .origin, h.getD_get .coeffs, h.verbose]
  rfl

theorem Holds.request_coeffs_of_not_subset (h : v.Holds values given)
    (hmissing : ¬coeffsRequired ⊆ given) : v.request .coeffs = .error .requiredMissing := by
  rw [request_coeffs, h.required_get, h.required_get, h.required_get]
  by_cases hhalf : .key .half ∈ given
  · by_cases hquadrant : .key .quadrant ∈ given
    · have hpoints : .key .points ∉ given := fun hpoints =>
        hmissing (by simp [coeffsRequired, hhalf, hquadrant, hpoints])
      rw [if_pos hhalf, if_pos hquadrant, if_neg hpoints]
      rfl
    · rw [if_pos hhalf, if_neg hquadrant]
      rfl
  · rw [if_neg hhalf]
    rfl

end

theorem readRanged_of_isNumeral {least greatest : Nat} {text : String} {n : UInt32}
    (h : Decimal.IsNumeral text.toList n.toNat) (hleast : least ≤ n.toNat)
    (hgreatest : n.toNat ≤ greatest) : readRanged least greatest text = .ok n := by
  have hread : Decimal.IntegerRange.int64.read text.toList = .ok n.toNat := by
    refine (Decimal.IntegerRange.read_eq_ok_iff Decimal.IntegerRange.int64_isSigned).mpr
      ⟨h.isInteger, ?_, ?_⟩
    · exact le_trans (by decide) (Int.natCast_nonneg n.toNat)
    · exact le_trans (Int.ofNat_le.mpr n.toNat_lt.le) (by decide)
  rw [readRanged, hread]
  show (if (least : Int) ≤ (n.toNat : Int) ∧ (n.toNat : Int) ≤ greatest then _ else _) = _
  rw [if_pos ⟨Int.ofNat_le.mpr hleast, Int.ofNat_le.mpr hgreatest⟩, Int.toNat_natCast,
    UInt32.ofNat_toNat]
  rfl

end OptionValues

def coeffsValues (half quadrant : UInt32) (origin : Origin) (points : List (Point Binary32))
    (coefficients : Coefficients Binary32) : (k : Key) → k.Value
  | .half => half
  | .quadrant => quadrant
  | .origin => origin
  | .points => points
  | .coeffs => coefficients
  | .input => ""
  | .jobs => (0 : Nat)

theorem not_looksLikeOption_of_isNumeral {text : String} {n : Nat}
    (h : Decimal.IsNumeral text.toList n) : ¬LooksLikeOption text := by
  rintro ⟨c, rest, htext⟩
  rw [htext] at h
  exact h.head_ne '-' rfl rfl

/-- Numerals have no minus sign here: one that had it, as the numeral of minus zero, would be taken
for options. -/
theorem coefficient_requests_can_be_typed {texts : Key → String} {half quadrant : UInt32}
    {origin : Origin} {points : List (Point Binary32)} {coefficients : Coefficients Binary32}
    (hhalf : Decimal.IsNumeral (texts .half).toList half.toNat)
    (hpositive : 1 ≤ half.toNat) (hgreatest : half.toNat ≤ 16777216)
    (hquadrant : Decimal.IsNumeral (texts .quadrant).toList quadrant.toNat)
    (hlast : quadrant.toNat ≤ 3)
    (horigin : Operand.readOrigin (texts .origin) = .ok origin)
    (hpoints : Operand.readPoints (texts .points) = .ok points)
    (hcoeffs : Operand.readCoefficients (texts .coeffs) = .ok coefficients)
    {given : List Switch} (honce : given.Nodup)
    (hgiven : given ⊆ [.key .half, .key .quadrant, .key .points, .key .origin, .key .coeffs,
      .verbose]) :
    let arguments := "coeffs" :: given.flatMap (Switch.arguments texts)
    ([.key .half, .key .quadrant, .key .points] ⊆ given → Request.ofArguments arguments =
      .ok (.coeffs half quadrant (if .key .origin ∈ given then origin else .zero) points
        (if .key .coeffs ∈ given then coefficients else .zero) (decide (.verbose ∈ given)))) ∧
    (¬[.key .half, .key .quadrant, .key .points] ⊆ given →
      Request.ofArguments arguments = .error .requiredMissing) := by
  intro arguments
  have hread : ∀ k, .key k ∈ given →
      k.read (texts k) = .ok (coeffsValues half quadrant origin points coefficients k) := by
    intro k hk
    cases k with
    | half => exact OptionValues.readRanged_of_isNumeral hhalf hpositive hgreatest
    | quadrant => exact OptionValues.readRanged_of_isNumeral hquadrant (Nat.zero_le _) hlast
    | origin => exact mapError_eq_ok_iff.mpr horigin
    | points => exact mapError_eq_ok_iff.mpr hpoints
    | coeffs => exact mapError_eq_ok_iff.mpr hcoeffs
    | input | jobs => simpa using hgiven hk
  have hvalues : ∀ k, .key k ∈ given → k.takesHyphens = true ∨ ¬LooksLikeOption (texts k) := by
    intro k hk
    cases k with
    | half => exact .inr (not_looksLikeOption_of_isNumeral hhalf)
    | quadrant => exact .inr (not_looksLikeOption_of_isNumeral hquadrant)
    | origin | points | coeffs => exact .inl rfl
    | input | jobs => simpa using hgiven hk
  have hhelp : .help ∉ given := fun h => by simpa using hgiven h
  have hknown : given ⊆ Command.coeffs.switches :=
    List.Subset.trans hgiven (by simp [Command.switches])
  obtain ⟨v, hv, hholds⟩ := OptionValues.holds_nil.foldlM_take honce hhelp hread
  have hrequest : Request.ofArguments arguments = v.request .coeffs := by
    calc Request.ofArguments arguments
      _ = Command.coeffs.request (given.flatMap (Switch.arguments texts)) :=
        Request.ofArguments_name .coeffs _
      _ = given.foldlM (OptionValues.take texts) {} >>= fun v => v.request .coeffs :=
        Command.request_flatMap_arguments hknown hvalues
      _ = v.request .coeffs := by
        rw [hv]
        rfl
  rw [hrequest]
  exact ⟨hholds.request_coeffs_of_subset, hholds.request_coeffs_of_not_subset⟩

example : Request.ofArguments ["coeffs", "--quadrant", "-0"] = .error .unknownArgument := by
  decide +kernel

def hyphenedTexts : Key → String
  | .half => "+16777216"
  | .quadrant => "03"
  | .origin => "-4,8"
  | .points => "-6,5\t-inf,-7"
  | .coeffs => "-1,0,2"
  | .input | .jobs => ""

theorem coefficient_requests_can_be_typed_hyphened :
    let points : List (Point Binary32) := [⟨-.ofNat 6, .ofNat 5⟩, ⟨-.infinity false, -.ofNat 7⟩]
    Request.ofArguments ["coeffs", "--points", "-6,5\t-inf,-7", "--origin", "-4,8", "--verbose",
        "--quadrant", "03", "--coeffs", "-1,0,2", "--half", "+16777216"] =
      .ok (.coeffs 16777216 3 ⟨-4, 8⟩ points ⟨-.ofNat 1, .ofNat 0, .ofNat 2⟩ true) ∧
    Request.ofArguments ["coeffs", "--quadrant", "03", "--half", "+16777216", "--points",
        "-6,5\t-inf,-7"] = .ok (.coeffs 16777216 3 .zero points .zero false) ∧
    Request.ofArguments ["coeffs", "--points", "-6,5\t-inf,-7", "--origin", "-4,8", "--half",
        "+16777216"] = .error .requiredMissing := by
  intro points
  have hhalf : Decimal.IsNumeral (hyphenedTexts .half).toList (16777216 : UInt32).toNat :=
    show Decimal.IsNumeral (['+'] ++ List.map Decimal.Digit.char [1, 6, 7, 7, 7, 2, 1, 6])
      (Decimal.valueOf [1, 6, 7, 7, 7, 2, 1, 6]) from .intro .plus (by decide)
  have hquadrant : Decimal.IsNumeral (hyphenedTexts .quadrant).toList (3 : UInt32).toNat :=
    show Decimal.IsNumeral ([] ++ List.map Decimal.Digit.char [0, 3]) (Decimal.valueOf [0, 3])
      from .intro .absent (by decide)
  have horigin : Operand.readOrigin (hyphenedTexts .origin) = .ok ⟨-4, 8⟩ := by decide +kernel
  have hpoints : Operand.readPoints (hyphenedTexts .points) = .ok points := by decide +kernel
  have hcoeffs : Operand.readCoefficients (hyphenedTexts .coeffs) =
      .ok ⟨-.ofNat 1, .ofNat 0, .ofNat 2⟩ := by decide +kernel
  have hrequest (given : List Switch) (honce : given.Nodup) (hgiven : given ⊆ _) :=
    coefficient_requests_can_be_typed hhalf (by decide) (by decide) hquadrant (by decide) horigin
      hpoints hcoeffs honce hgiven
  refine ⟨?_, ?_, ?_⟩
  · exact (hrequest [.key .points, .key .origin, .verbose, .key .quadrant, .key .coeffs,
      .key .half] (by decide) (by decide)).1 (by decide)
  · exact (hrequest [.key .quadrant, .key .half, .key .points] (by decide)
      (by decide)).1 (by decide)
  · exact (hrequest [.key .points, .key .origin, .key .half] (by decide)
      (by decide)).2 (by decide)

end WaveletRaster
