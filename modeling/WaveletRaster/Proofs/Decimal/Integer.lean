import Mathlib
import WaveletRaster.Decimal.Integer
import WaveletRaster.Proofs.Acceptance
import WaveletRaster.Proofs.Decimal.Literal
import WaveletRaster.Text.Basic

/-! Which texts are integers of a range. An optional sign stands in front of digits, any number of
them but not none, whose value the range holds. A text is read from the left up to the first digit
that takes the value out of the range or the first character that is no digit. -/

namespace WaveletRaster.Decimal

def signedValue (negative : Bool) (n : Nat) : Int := if negative then -n else n

inductive IsInteger : List Char → Int → Prop
  | intro {sign : List Char} {negative : Bool} {ds : List Digit} (hsign : IsSign sign negative)
    (hds : ds ≠ []) : IsInteger (sign ++ ds.map Digit.char) (signedValue negative (valueOf ds))

theorem isInteger_chars_ofInt (i : Int) : IsInteger (Numeral.ofInt i).chars i := by
  have hsign : IsSign (if i < 0 then ['-'] else []) (i < 0) := by
    by_cases hi : i < 0
    · simpa [hi] using IsSign.minus
    · simpa [hi] using IsSign.absent
  have hvalue : signedValue (i < 0) (valueOf (digitsOf i.natAbs)) = i := by
    rw [valueOf_digitsOf, signedValue]
    split_ifs with hi <;> simp at hi <;> omega
  have h := IsInteger.intro hsign (digitsOnto_ne_nil i.natAbs [])
  rw [← digitsOf, hvalue] at h
  simpa [Numeral.ofInt, Numeral.chars] using h

theorem IsInteger.solid {cs : List Char} {i : Int} (h : IsInteger cs i) :
    ∀ c ∈ cs, Text.isBlank c = false ∧ c ≠ ',' := by
  obtain @⟨sign, negative, ds, hsign, -⟩ := h
  have hdigit : ∀ d : Digit, Text.isBlank d.char = false ∧ d.char ≠ ',' := by decide
  refine List.forall_mem_append.mpr ⟨?_, List.forall_mem_map.mpr fun d _ => hdigit d⟩
  cases hsign with
  | absent => exact List.forall_mem_nil _
  | plus => exact List.forall_mem_singleton.mpr (by decide)
  | minus => exact List.forall_mem_singleton.mpr (by decide)

/-- Digits without a minus sign and the number that they denote. -/
inductive IsNumeral : List Char → Nat → Prop
  | intro {sign : List Char} {ds : List Digit} (hsign : IsSign sign false) (hds : ds ≠ []) :
    IsNumeral (sign ++ ds.map Digit.char) (valueOf ds)

theorem IsNumeral.isInteger {cs : List Char} {n : Nat} (h : IsNumeral cs n) : IsInteger cs n := by
  obtain ⟨hsign, hds⟩ := h
  exact .intro hsign hds

theorem IsNumeral.head_ne {cs : List Char} {n : Nat} (h : IsNumeral cs n) :
    ∀ c ∈ cs.head?, c ≠ '-' := by
  obtain @⟨sign, ds, hsign, hds⟩ := h
  obtain ⟨d, ds, rfl⟩ := List.exists_cons_of_ne_nil hds
  cases hsign with
  | absent =>
    rintro _ ⟨⟩
    exact d.char_ne_sign.1
  | plus =>
    rintro _ ⟨⟩
    decide

theorem le_appendDigits (n : Nat) (ds : List Digit) : n ≤ appendDigits n ds := by
  induction ds generalizing n with
  | nil => exact le_rfl
  | cons d ds ih =>
    refine le_trans ?_ (ih (10 * n + d.val))
    omega

section
variable {limit n : Nat} {excess : IntegerFault} {ds : List Digit}

theorem readMagnitude_append (h : appendDigits n ds ≤ limit) (cs : List Char) :
    readMagnitude limit excess n (ds.map Digit.char ++ cs) =
      readMagnitude limit excess (appendDigits n ds) cs := by
  induction ds generalizing n with
  | nil => rfl
  | cons d ds ih =>
    have hfits : ¬limit < 10 * n + d.val :=
      Nat.not_lt.mpr (le_trans (le_appendDigits (10 * n + d.val) ds) h)
    rw [List.map_cons, List.cons_append, readMagnitude, Digit.ofChar?_char]
    simp only [if_neg hfits]
    exact ih h

theorem readMagnitude_of_lt (hn : n ≤ limit) (h : limit < appendDigits n ds) (cs : List Char) :
    readMagnitude limit excess n (ds.map Digit.char ++ cs) = .error excess := by
  induction ds generalizing n with
  | nil => exact absurd h (Nat.not_lt.mpr hn)
  | cons d ds ih =>
    rw [List.map_cons, List.cons_append, readMagnitude, Digit.ofChar?_char]
    dsimp only
    split_ifs with hexcess
    · rfl
    · exact ih (Nat.not_lt.mp hexcess) h

end

namespace IntegerRange

structure IsSigned (range : IntegerRange) : Prop where
  least_neg : range.least < 0
  greatest_nonneg : 0 ≤ range.greatest

def limit (range : IntegerRange) (negative : Bool) : Nat :=
  if negative then range.least.natAbs else range.greatest.toNat

def excess (negative : Bool) : IntegerFault := if negative then .tooSmall else .tooLarge

inductive HasFault (range : IntegerRange) : List Char → IntegerFault → Prop
  | empty : HasFault range [] .empty
  | loneSign {sign : List Char} {negative : Bool} (hsign : IsSign sign negative) (hne : sign ≠ []) :
    HasFault range sign .invalidDigit
  | invalidDigit {sign : List Char} {negative : Bool} {ds : List Digit} {c : Char}
    {rest : List Char} (hsign : IsSign sign negative)
    (hstart : sign = [] → Unsigned (ds.map Digit.char ++ c :: rest))
    (hfits : valueOf ds ≤ range.limit negative) (hc : Digit.ofChar? c = none) :
    HasFault range (sign ++ (ds.map Digit.char ++ c :: rest)) .invalidDigit
  | excess {sign : List Char} {negative : Bool} {ds : List Digit} {rest : List Char}
    (hsign : IsSign sign negative) (h : range.limit negative < valueOf ds) :
    HasFault range (sign ++ (ds.map Digit.char ++ rest)) (excess negative)

section
variable {range : IntegerRange} {cs : List Char}

theorem signedValue_mem_iff (hrange : range.IsSigned) {negative : Bool} {n : Nat} :
    range.least ≤ signedValue negative n ∧ signedValue negative n ≤ range.greatest ↔
      n ≤ range.limit negative := by
  obtain ⟨hleast, hgreatest⟩ := hrange
  cases negative with
  | false =>
    simp only [signedValue, limit, Bool.false_eq_true, if_false]
    omega
  | true =>
    simp only [signedValue, limit, if_true]
    omega

theorem read_append (hrange : range.IsSigned) {sign body : List Char} {negative : Bool}
    (hsign : IsSign sign negative) (hstart : sign = [] → Unsigned body) (hne : body ≠ []) :
    range.read (sign ++ body) =
      (readMagnitude (range.limit negative) (excess negative) 0 body).map
        (signedValue negative) := by
  obtain ⟨c, body, rfl⟩ := List.exists_cons_of_ne_nil hne
  cases hsign with
  | absent =>
    obtain ⟨hminus, hplus⟩ := hstart rfl c rfl
    rw [List.nil_append, read]
    · rfl
    all_goals simp_all
  | plus => rfl
  | minus =>
    show (if range.least < 0 then Except.map _ (readMagnitude range.least.natAbs .tooSmall 0
      (c :: body) >>= _) else _) = Except.map (signedValue true)
      (readMagnitude range.least.natAbs .tooSmall 0 (c :: body))
    rw [if_pos hrange.least_neg]
    cases readMagnitude range.least.natAbs .tooSmall 0 (c :: body) <;> rfl

theorem read_of_isInteger (hrange : range.IsSigned) {i : Int} (h : IsInteger cs i)
    (hleast : range.least ≤ i) (hgreatest : i ≤ range.greatest) : range.read cs = .ok i := by
  obtain @⟨sign, negative, ds, hsign, hds⟩ := h
  have hfits := (signedValue_mem_iff hrange).mp ⟨hleast, hgreatest⟩
  have hread : readMagnitude (range.limit negative) (excess negative) 0 (ds.map Digit.char) =
      .ok (valueOf ds) := by
    rw [← List.append_nil (ds.map Digit.char), readMagnitude_append hfits]
    rfl
  rw [read_append hrange hsign (fun _ => unsigned_map_char ds) (by simpa using hds), hread]
  rfl

theorem read_of_hasFault (hrange : range.IsSigned) {fault : IntegerFault}
    (h : range.HasFault cs fault) : range.read cs = .error fault := by
  cases h with
  | empty => rfl
  | loneSign hsign hne =>
    cases hsign with
    | absent => exact absurd rfl hne
    | plus => rfl
    | minus => rfl
  | @invalidDigit sign negative ds c rest hsign hstart hfits hc =>
    rw [read_append hrange hsign hstart (by simp), readMagnitude_append hfits, readMagnitude, hc]
    rfl
  | @excess sign negative ds rest hsign hexcess =>
    have hds : ds ≠ [] := by
      rintro rfl
      exact Nat.not_lt_zero _ hexcess
    have hunsigned : Unsigned (ds.map Digit.char ++ rest) :=
      unsigned_map_char_append fun hnil => absurd hnil hds
    rw [read_append hrange hsign (fun _ => hunsigned) (by simp [hds]),
      readMagnitude_of_lt (Nat.zero_le _) hexcess]
    rfl

theorem isInteger_or_hasFault (hrange : range.IsSigned) (cs : List Char) :
    (∃ i, IsInteger cs i ∧ range.least ≤ i ∧ i ≤ range.greatest) ∨
      ∃ fault, range.HasFault cs fault := by
  obtain ⟨⟨negative, body⟩, hsign⟩ : ∃ found, Numeral.takeSign cs = found := ⟨_, rfl⟩
  obtain ⟨sign, hissign, rfl, hstart⟩ := exists_isSign_of_takeSign hsign
  obtain ⟨⟨ds, rest⟩, hdigits⟩ : ∃ found, Numeral.takeDigits body = found := ⟨_, rfl⟩
  obtain ⟨rfl, hends⟩ := takeDigits_eq_iff.mp hdigits
  rcases Nat.lt_or_ge (range.limit negative) (valueOf ds) with hexcess | hfits
  · exact .inr ⟨_, .excess hissign hexcess⟩
  cases rest with
  | cons c rest => exact .inr ⟨_, .invalidDigit hissign hstart hfits (hends c rfl)⟩
  | nil =>
    rw [List.append_nil]
    by_cases hds : ds = []
    · rw [hds, List.map_nil, List.append_nil]
      rcases eq_or_ne sign [] with rfl | hne
      · exact .inr ⟨_, .empty⟩
      · exact .inr ⟨_, .loneSign hissign hne⟩
    · exact .inl ⟨_, .intro hissign hds, (signedValue_mem_iff hrange).mpr hfits⟩

theorem read_eq_ok_iff (hrange : range.IsSigned) {i : Int} : range.read cs = .ok i ↔
    IsInteger cs i ∧ range.least ≤ i ∧ i ≤ range.greatest :=
  eq_ok_iff_of_total (fun _ ⟨hi, hleast, hgreatest⟩ => read_of_isInteger hrange hi hleast hgreatest)
    (fun _ => read_of_hasFault hrange) (isInteger_or_hasFault hrange cs)

theorem read_eq_error_iff (hrange : range.IsSigned) {fault : IntegerFault} :
    range.read cs = .error fault ↔ range.HasFault cs fault :=
  eq_error_iff_of_total
    (fun _ ⟨hi, hleast, hgreatest⟩ => read_of_isInteger hrange hi hleast hgreatest)
    (fun _ => read_of_hasFault hrange) (isInteger_or_hasFault hrange cs)

end

section
variable {cs : List Char}

theorem int32_isSigned : int32.IsSigned := ⟨by decide, by decide⟩

theorem int64_isSigned : int64.IsSigned := ⟨by decide, by decide⟩

theorem read_int32_of_isInteger {i : Int32} (h : IsInteger cs i.toInt) :
    int32.read cs = .ok i.toInt :=
  (read_eq_ok_iff int32_isSigned).mpr ⟨h, i.minValue_le_toInt, i.toInt_le⟩

theorem read_int32_of_hasFault {fault : IntegerFault} (h : int32.HasFault cs fault) :
    int32.read cs = .error fault :=
  (read_eq_error_iff int32_isSigned).mpr h

theorem isInt32_or_hasFault (cs : List Char) :
    (∃ i : Int32, IsInteger cs i.toInt) ∨ ∃ fault, int32.HasFault cs fault := by
  refine (isInteger_or_hasFault int32_isSigned cs).imp_left ?_
  rintro ⟨i, hi, hleast, hgreatest⟩
  have hcast : (Int32.ofInt i).toInt = i :=
    Int32.toInt_ofInt_of_le hleast (Int.lt_of_le_sub_one hgreatest)
  exact ⟨Int32.ofInt i, hcast.symm ▸ hi⟩

end
end IntegerRange
end WaveletRaster.Decimal
