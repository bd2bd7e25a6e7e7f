import Mathlib
import WaveletRaster.Decimal.Literal
import WaveletRaster.Proofs.Decimal.Numeral

/-! Which texts are floating-point literals. A number is digits with an optional point among them,
behind an optional sign and before an optional exponent; the names of the other numbers may be
signed and are written in any case. Nothing else is read, and all of these are. -/

namespace WaveletRaster.Decimal
open Binary (Format)
open Numeral (takeDigits takeSign)

theorem Digit.char_of_ofChar? {c : Char} {d : Digit} (h : ofChar? c = some d) : d.char = c := by
  rw [ofChar?] at h
  split_ifs at h with hrange
  obtain rfl := Option.some.inj h
  show Char.ofNat (48 + (c.toNat - 48)) = c
  rw [Nat.add_sub_cancel' hrange.1, Char.ofNat_toNat]

theorem Digit.char_ne_sign (d : Digit) : d.char ≠ '-' ∧ d.char ≠ '+' := by
  revert d
  decide

theorem takeDigits_eq_iff {cs rest : List Char} {ds : List Digit} :
    takeDigits cs = (ds, rest) ↔ cs = ds.map Digit.char ++ rest ∧ EndsDigits rest := by
  constructor
  · intro h
    induction cs generalizing ds with
    | nil =>
      cases h
      exact ⟨rfl, nofun⟩
    | cons c cs ih =>
      rw [takeDigits] at h
      cases hc : Digit.ofChar? c with
      | none =>
        rw [hc] at h
        cases h
        refine ⟨rfl, ?_⟩
        rintro _ ⟨⟩
        exact hc
      | some d =>
        rw [hc] at h
        cases h
        obtain ⟨htail, hends⟩ := ih rfl
        refine ⟨?_, hends⟩
        rw [List.map_cons, List.cons_append, ← htail, Digit.char_of_ofChar? hc]
  · rintro ⟨rfl, hends⟩
    exact Numeral.takeDigits_append ds hends

inductive IsSign : List Char → Bool → Prop
  | absent : IsSign [] false
  | plus : IsSign ['+'] false
  | minus : IsSign ['-'] true

def Unsigned (cs : List Char) : Prop := ∀ c ∈ cs.head?, c ≠ '-' ∧ c ≠ '+'

theorem takeSign_append {sign cs : List Char} {negative : Bool} (hsign : IsSign sign negative)
    (hcs : sign = [] → Unsigned cs) : takeSign (sign ++ cs) = (negative, cs) := by
  cases hsign with
  | absent =>
    cases cs with
    | nil => rfl
    | cons c cs =>
      obtain ⟨hminus, hplus⟩ := hcs rfl c rfl
      rw [List.nil_append, takeSign]
      · rintro _ ⟨⟩
        exact hminus rfl
      · rintro _ ⟨⟩
        exact hplus rfl
  | plus => rfl
  | minus => rfl

theorem exists_isSign_of_takeSign {cs rest : List Char} {negative : Bool}
    (h : takeSign cs = (negative, rest)) :
    ∃ sign, IsSign sign negative ∧ cs = sign ++ rest ∧ (sign = [] → Unsigned rest) := by
  unfold takeSign at h
  split at h
  · cases h
    exact ⟨_, .minus, rfl, nofun⟩
  · cases h
    exact ⟨_, .plus, rfl, nofun⟩
  · rename_i hminus hplus
    cases h
    refine ⟨_, .absent, rfl, fun _ c hc => ⟨?_, ?_⟩⟩
    · rintro rfl
      exact hminus _ (List.cons_head?_tail hc).symm
    · rintro rfl
      exact hplus _ (List.cons_head?_tail hc).symm

theorem unsigned_map_char_append {ds : List Digit} {cs : List Char} (h : ds = [] → Unsigned cs) :
    Unsigned (ds.map Digit.char ++ cs) := by
  cases ds with
  | nil => exact h rfl
  | cons d ds =>
    rintro _ ⟨⟩
    exact d.char_ne_sign

theorem unsigned_map_char (ds : List Digit) : Unsigned (ds.map Digit.char) := by
  have hnil : Unsigned [] := nofun
  simpa using unsigned_map_char_append fun _ : ds = [] => hnil

inductive IsMantissa : List Char → List Digit → List Digit → Prop
  | whole {ds : List Digit} (h : ds ≠ []) : IsMantissa (ds.map Digit.char) ds []
  | point {whole fraction : List Digit} (h : whole ≠ [] ∨ fraction ≠ []) :
    IsMantissa (whole.map Digit.char ++ '.' :: fraction.map Digit.char) whole fraction

/-- The power of ten behind a number; digits past the cap do not count. -/
inductive IsExponent : List Char → Int → Prop
  | absent : IsExponent [] 0
  | present {mark : Char} {sign : List Char} {negative : Bool} {ds : List Digit}
    (hmark : mark = 'e' ∨ mark = 'E') (hsign : IsSign sign negative) (hds : ds ≠ []) :
    IsExponent (mark :: (sign ++ ds.map Digit.char))
      (if negative then -(cappedExponent ds : Int) else cappedExponent ds)

theorem typedExponent?_eq_some_iff {cs : List Char} {e : Int} :
    typedExponent? cs = some e ↔ IsExponent cs e := by
  constructor
  · intro h
    cases cs with
    | nil =>
      cases h
      exact .absent
    | cons mark cs =>
      rw [typedExponent?] at h
      split_ifs at h with hmark
      obtain ⟨⟨negative, body⟩, hsign⟩ : ∃ found, takeSign cs = found := ⟨_, rfl⟩
      obtain ⟨⟨ds, rest⟩, hdigits⟩ : ∃ found, takeDigits body = found := ⟨_, rfl⟩
      obtain ⟨sign, hissign, rfl, -⟩ := exists_isSign_of_takeSign hsign
      obtain ⟨rfl, -⟩ := takeDigits_eq_iff.mp hdigits
      simp only [hsign, hdigits] at h
      split at h
      · cases h
      · cases h
      · rename_i hds heq
        cases h
        cases heq
        rw [List.append_nil]
        exact .present hmark hissign hds
  · intro h
    cases h with
    | absent => rfl
    | @present mark sign negative ds hmark hsign hds =>
      obtain ⟨d, ds, rfl⟩ := List.exists_cons_of_ne_nil hds
      rw [typedExponent?, if_pos hmark]
      simp only [takeSign_append hsign fun _ => unsigned_map_char _, Numeral.takeDigits_map]

theorem IsExponent.endsDigits {cs : List Char} {e : Int} (h : IsExponent cs e) : EndsDigits cs := by
  cases h with
  | absent => nofun
  | present hmark =>
    rintro _ ⟨⟩
    rcases hmark with rfl | rfl <;> decide

theorem IsExponent.head_ne {cs : List Char} {e : Int} (h : IsExponent cs e) :
    ∀ c ∈ cs.head?, c ≠ '.' := by
  cases h with
  | absent => nofun
  | present hmark =>
    rintro _ ⟨⟩
    rcases hmark with rfl | rfl <;> decide

theorem endsDigits_point (cs : List Char) : EndsDigits ('.' :: cs) := by
  rintro _ ⟨⟩
  decide

def IsDecimal (cs : List Char) (ds : List Digit) (e : Int) : Prop :=
  ∃ mantissa exponent whole fraction power, IsMantissa mantissa whole fraction ∧
    IsExponent exponent power ∧ cs = mantissa ++ exponent ∧ ds = whole ++ fraction ∧
    e = power - fraction.length

theorem isDecimal_of_typedDecimal? {cs : List Char} {ds : List Digit} {e : Int}
    (h : typedDecimal? cs = some (ds, e)) : IsDecimal cs ds e := by
  obtain ⟨⟨whole, rest⟩, hwhole⟩ : ∃ found, takeDigits cs = found := ⟨_, rfl⟩
  obtain ⟨rfl, -⟩ := takeDigits_eq_iff.mp hwhole
  simp only [typedDecimal?, hwhole] at h
  split at h
  · rename_i rest
    obtain ⟨⟨fraction, rest⟩, hfraction⟩ : ∃ found, takeDigits rest = found := ⟨_, rfl⟩
    obtain ⟨rfl, -⟩ := takeDigits_eq_iff.mp hfraction
    simp only [hfraction] at h
    split_ifs at h with hempty
    obtain ⟨power, hpower, heq⟩ := Option.map_eq_some_iff.mp h
    cases heq
    refine ⟨_, rest, whole, fraction, power, .point ?_, typedExponent?_eq_some_iff.mp hpower,
      ?_, rfl, rfl⟩
    · simpa [or_iff_not_imp_left] using hempty
    · simp
  · simp only [List.isEmpty_nil, Bool.and_true] at h
    split_ifs at h with hempty
    obtain ⟨power, hpower, heq⟩ := Option.map_eq_some_iff.mp h
    cases heq
    exact ⟨_, rest, whole, [], power, .whole (by simpa using hempty),
      typedExponent?_eq_some_iff.mp hpower, rfl, rfl, rfl⟩

theorem typedDecimal?_of_isDecimal {cs : List Char} {ds : List Digit} {e : Int}
    (h : IsDecimal cs ds e) : typedDecimal? cs = some (ds, e) := by
  obtain ⟨mantissa, exponent, whole, fraction, power, hmantissa, hexponent, rfl, rfl, rfl⟩ := h
  have hpower := typedExponent?_eq_some_iff.mpr hexponent
  cases hmantissa with
  | whole h =>
    have hne : (whole.isEmpty && List.isEmpty ([] : List Digit)) = false := by simpa using h
    rw [typedDecimal?, Numeral.takeDigits_append _ hexponent.endsDigits]
    dsimp only
    split
    · exact absurd rfl (hexponent.head_ne '.' rfl)
    · rw [hne, hpower]
      rfl
  | point h =>
    have hne : (whole.isEmpty && fraction.isEmpty) = false := by
      simpa [or_iff_not_imp_left] using h
    have hpoint := Numeral.takeDigits_append whole
      (endsDigits_point (fraction.map Digit.char ++ exponent))
    have hfraction := Numeral.takeDigits_append fraction hexponent.endsDigits
    rw [List.append_assoc, List.cons_append, typedDecimal?, hpoint]
    simp only [hfraction, hne, hpower]
    rfl

theorem typedDecimal?_eq_some_iff {cs : List Char} {ds : List Digit} {e : Int} :
    typedDecimal? cs = some (ds, e) ↔ IsDecimal cs ds e :=
  ⟨isDecimal_of_typedDecimal?, typedDecimal?_of_isDecimal⟩

inductive IsLiteral {f : Format} : List Char → Binary f → Prop
  | number {sign cs : List Char} {negative : Bool} {ds : List Digit} {e : Int}
    (hsign : IsSign sign negative) (hdecimal : IsDecimal cs ds e) :
    IsLiteral (sign ++ cs) (Binary.ofDecimal negative (valueOf ds) e)
  | infinity {sign name : List Char} {negative : Bool} (hsign : IsSign sign negative)
    (hname : name.map Char.toLower ∈ ["inf".toList, "infinity".toList]) :
    IsLiteral (sign ++ name) (.infinity negative)
  | nan {sign name : List Char} {negative : Bool} (hsign : IsSign sign negative)
    (hname : name.map Char.toLower = "nan".toList) : IsLiteral (sign ++ name) .nan

/-- What is wrong with a text that is no literal. -/
inductive IsNoLiteral (f : Format) (cs : List Char) : LiteralFault → Prop
  | empty (h : cs = []) : IsNoLiteral f cs .empty
  | invalid (hne : cs ≠ []) (h : ∀ x : Binary f, ¬IsLiteral cs x) : IsNoLiteral f cs .invalid

theorem named?_eq_some_iff {f : Format} {negative : Bool} {cs : List Char} {x : Binary f} :
    named? negative cs = some x ↔
      cs.map Char.toLower ∈ ["inf".toList, "infinity".toList] ∧ x = .infinity negative ∨
      cs.map Char.toLower = "nan".toList ∧ x = .nan := by
  have hname (name : String) :
      String.ofList (cs.map Char.toLower) = name ↔ cs.map Char.toLower = name.toList := by
    rw [← String.toList_inj, String.toList_ofList]
  simp only [List.mem_cons, List.not_mem_nil, or_false, ← hname]
  constructor
  · intro h
    rw [named?] at h
    split at h <;> cases h
    · exact .inl ⟨.inl ‹_›, rfl⟩
    · exact .inl ⟨.inr ‹_›, rfl⟩
    · exact .inr ⟨‹_›, rfl⟩
  · rintro (⟨h | h, rfl⟩ | ⟨h, rfl⟩) <;> rw [named?, h] <;> rfl

theorem IsDecimal.exists_head {cs : List Char} {ds : List Digit} {e : Int}
    (h : IsDecimal cs ds e) : ∃ c ∈ cs.head?, c = '.' ∨ ∃ d : Digit, c = d.char := by
  obtain ⟨mantissa, exponent, whole, fraction, power, hmantissa, -, rfl, -, -⟩ := h
  cases hmantissa with
  | whole h =>
    obtain ⟨d, ds, rfl⟩ := List.exists_cons_of_ne_nil h
    exact ⟨d.char, rfl, .inr ⟨d, rfl⟩⟩
  | point h =>
    cases whole with
    | nil => exact ⟨'.', rfl, .inl rfl⟩
    | cons d whole => exact ⟨d.char, rfl, .inr ⟨d, rfl⟩⟩

theorem IsDecimal.unsigned {cs : List Char} {ds : List Digit} {e : Int} (h : IsDecimal cs ds e) :
    Unsigned cs := by
  obtain ⟨c, hc, hstart⟩ := h.exists_head
  intro c' hc'
  obtain rfl := Option.some.inj (hc.symm.trans hc')
  rcases hstart with rfl | ⟨d, rfl⟩
  · decide
  · exact d.char_ne_sign

theorem toLower_head_of_name {name : List Char}
    (h : name.map Char.toLower ∈ ["inf".toList, "infinity".toList, "nan".toList]) :
    ∃ c ∈ name.head?, c.toLower = 'i' ∨ c.toLower = 'n' := by
  cases name with
  | nil => exact absurd h (by decide)
  | cons c name =>
    refine ⟨c, rfl, ?_⟩
    simp only [List.map_cons, List.mem_cons, List.not_mem_nil, or_false] at h
    rcases h with h | h | h
    · exact .inl (List.cons.inj h).1
    · exact .inl (List.cons.inj h).1
    · exact .inr (List.cons.inj h).1

theorem toLower_of_start {c : Char} (h : c = '.' ∨ ∃ d : Digit, c = d.char) :
    c.toLower ≠ 'i' ∧ c.toLower ≠ 'n' := by
  rcases h with rfl | ⟨d, rfl⟩
  · decide
  · revert d
    decide

theorem typedDecimal?_of_name {name : List Char}
    (h : name.map Char.toLower ∈ ["inf".toList, "infinity".toList, "nan".toList]) :
    typedDecimal? name = none := by
  obtain ⟨c, hc, hletter⟩ := toLower_head_of_name h
  refine Option.eq_none_iff_forall_not_mem.mpr fun ⟨ds, e⟩ hdecimal => ?_
  obtain ⟨c', hc', hstart⟩ := (typedDecimal?_eq_some_iff.mp hdecimal).exists_head
  obtain rfl := Option.some.inj (hc.symm.trans hc')
  obtain ⟨hi, hn⟩ := toLower_of_start hstart
  exact hletter.elim hi hn

theorem unsigned_of_name {name : List Char}
    (h : name.map Char.toLower ∈ ["inf".toList, "infinity".toList, "nan".toList]) :
    Unsigned name := by
  obtain ⟨c, hc, hletter⟩ := toLower_head_of_name h
  intro c' hc'
  obtain rfl := Option.some.inj (hc.symm.trans hc')
  constructor
  · rintro rfl
    exact absurd hletter (by decide)
  · rintro rfl
    exact absurd hletter (by decide)

section
variable {f : Format} {cs : List Char}

theorem isLiteral_of_readLiteral {x : Binary f} (h : readLiteral cs = .ok x) : IsLiteral cs x := by
  rw [readLiteral] at h
  split_ifs at h
  obtain ⟨⟨negative, body⟩, hsign⟩ : ∃ found, takeSign cs = found := ⟨_, rfl⟩
  obtain ⟨sign, hissign, rfl, -⟩ := exists_isSign_of_takeSign hsign
  simp only [hsign] at h
  split at h
  · rename_i hdecimal
    cases h
    exact .number hissign (typedDecimal?_eq_some_iff.mp hdecimal)
  · split at h
    · rename_i hnamed
      cases h
      rcases named?_eq_some_iff.mp hnamed with ⟨hname, rfl⟩ | ⟨hname, rfl⟩
      · exact .infinity hissign hname
      · exact .nan hissign hname
    · cases h

theorem readLiteral_of_isLiteral {x : Binary f} (h : IsLiteral cs x) : readLiteral cs = .ok x := by
  have hne {sign body : List Char} {c : Char} (hc : c ∈ body.head?) :
      ¬(sign ++ body).isEmpty := by
    simp [List.ne_nil_of_mem (List.mem_of_head? hc)]
  -- a number is recognised by its digits, the other literals only when there are none
  have hname {sign name : List Char} {negative : Bool} {x : Binary f}
      (hsign : IsSign sign negative)
      (hletters : name.map Char.toLower ∈ ["inf".toList, "infinity".toList, "nan".toList])
      (hx : named? negative name = some x) : readLiteral (sign ++ name) = .ok x := by
    obtain ⟨c, hc, -⟩ := toLower_head_of_name hletters
    rw [readLiteral, if_neg (hne hc), takeSign_append hsign fun _ => unsigned_of_name hletters]
    simp only [typedDecimal?_of_name hletters, hx]
  cases h with
  | number hsign hdecimal =>
    obtain ⟨c, hc, -⟩ := hdecimal.exists_head
    rw [readLiteral, if_neg (hne hc), takeSign_append hsign fun _ => hdecimal.unsigned]
    simp only [typedDecimal?_eq_some_iff.mpr hdecimal]
  | infinity hsign hletters =>
    have hmem := List.mem_append_left ["nan".toList] hletters
    exact hname hsign hmem (named?_eq_some_iff.mpr (.inl ⟨hletters, rfl⟩))
  | nan hsign hletters =>
    have hmem := List.mem_append_right ["inf".toList, "infinity".toList]
      (List.mem_singleton.mpr hletters)
    exact hname hsign hmem (named?_eq_some_iff.mpr (.inr ⟨hletters, rfl⟩))

theorem readLiteral_eq_ok_iff {x : Binary f} : readLiteral cs = .ok x ↔ IsLiteral cs x :=
  ⟨isLiteral_of_readLiteral, readLiteral_of_isLiteral⟩

theorem isNoLiteral_of_readLiteral {fault : LiteralFault}
    (h : (readLiteral cs : Except _ (Binary f)) = .error fault) : IsNoLiteral f cs fault := by
  have hnone (x : Binary f) : ¬IsLiteral cs x := by
    rw [← readLiteral_eq_ok_iff, h]
    exact nofun
  rw [readLiteral] at h
  split_ifs at h with hempty
  · cases h
    exact .empty (List.isEmpty_iff.mp hempty)
  · have hne : cs ≠ [] := fun hnil => hempty (List.isEmpty_iff.mpr hnil)
    dsimp only at h
    split at h
    · cases h
    · split at h <;> cases h
      exact .invalid hne hnone

theorem readLiteral_eq_error_iff {fault : LiteralFault} :
    (readLiteral cs : Except _ (Binary f)) = .error fault ↔ IsNoLiteral f cs fault := by
  refine ⟨isNoLiteral_of_readLiteral, fun h => ?_⟩
  cases h with
  | empty hnil =>
    subst hnil
    rfl
  | invalid hne hnone =>
    cases hread : (readLiteral cs : Except _ (Binary f)) with
    | ok x => exact absurd (isLiteral_of_readLiteral hread) (hnone x)
    | error fault =>
      cases isNoLiteral_of_readLiteral hread with
      | empty hnil => exact absurd hnil hne
      | invalid => rfl

theorem isLiteral_or_isNoLiteral (f : Format) (cs : List Char) :
    (∃ x : Binary f, IsLiteral cs x) ∨ ∃ fault, IsNoLiteral f cs fault := by
  cases h : (readLiteral cs : Except _ (Binary f)) with
  | ok x => exact .inl ⟨x, readLiteral_eq_ok_iff.mp h⟩
  | error fault => exact .inr ⟨fault, readLiteral_eq_error_iff.mp h⟩

end

end WaveletRaster.Decimal
