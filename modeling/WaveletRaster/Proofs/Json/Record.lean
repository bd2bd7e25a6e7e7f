import Mathlib
import WaveletRaster.Proofs.Json.Text

/-! Typed values read back from their JSON form. A record gives its fields back, those that were
left out among them as absent. -/

namespace WaveletRaster.Json

open Binary (Format)
open Decimal (Notation Numeral)

variable {α : Type}

theorem mapM_map_eq_some {β : Type} {read? : β → Option α} {write : α → β} {xs : List α}
    (h : ∀ x ∈ xs, read? (write x) = some x) : (xs.map write).mapM read? = some xs := by
  induction xs with
  | nil => rfl
  | cons x xs ih =>
    obtain ⟨hx, hxs⟩ := List.forall_mem_cons.mp h
    rw [List.map_cons, List.mapM_cons, hx, ih hxs]
    rfl

def named? (entries : List (String × Json)) (name : String) : Option (Option Json) :=
  match entries.filter (·.1 = name) with
  | [] => some none
  | [(_, v)] => some (some v)
  | _ => none

theorem fields?_ofFields (names : List String) (entries : List (String × Json)) :
    (ofFields entries).fields? names = names.mapM (named? entries) := by
  rw [ofFields, fields?, mapM_map_eq_some fun e _ => by simp [textOf?_escape]]
  rfl

/-- The entries of a record whose absent fields are left out. -/
def present (names : List String) (values : List (Option Json)) : List (String × Json) :=
  (names.zip values).filterMap fun (k, v) => v.map (k, ·)

theorem present_cons (name : String) (names : List String) (value : Option Json)
    (values : List (Option Json)) :
    present (name :: names) (value :: values) =
      (value.map (name, ·)).toList ++ present names values := by
  cases value <;> rfl

theorem mem_of_mem_present {names : List String} {values : List (Option Json)} {e : String × Json}
    (h : e ∈ present names values) : e.1 ∈ names ∧ some e.2 ∈ values := by
  obtain ⟨⟨k, v⟩, hzip, hv⟩ := List.mem_filterMap.mp h
  obtain ⟨_, rfl, rfl⟩ := Option.map_eq_some_iff.mp hv
  exact List.of_mem_zip hzip

theorem filter_eq_nil {entries : List (String × Json)} {name : String}
    (h : ∀ e ∈ entries, e.1 ≠ name) : entries.filter (·.1 = name) = [] := by
  simpa using h

theorem mapM_named?_present {names : List String} {values : List (Option Json)}
    {front : List (String × Json)} (hnodup : names.Nodup) (hlength : names.length = values.length)
    (hfront : ∀ e ∈ front, e.1 ∉ names) :
    names.mapM (named? (front ++ present names values)) = some values := by
  induction names generalizing values front with
  | nil =>
    obtain rfl := List.length_eq_zero_iff.mp hlength.symm
    rfl
  | cons name names ih =>
    obtain ⟨value, values, rfl⟩ := List.exists_cons_of_length_eq_add_one hlength.symm
    obtain ⟨hname, hnodup⟩ := List.nodup_cons.mp hnodup
    have hbefore : front.filter (·.1 = name) = [] :=
      filter_eq_nil fun e he heq => hfront e he (heq ▸ List.mem_cons_self)
    have hbehind : (present names values).filter (·.1 = name) = [] :=
      filter_eq_nil fun e he heq => hname (heq ▸ (mem_of_mem_present he).1)
    have hentry :
        named? (front ++ present (name :: names) (value :: values)) name = some value := by
      rw [named?, present_cons, List.filter_append, List.filter_append, hbefore, hbehind]
      cases value <;> simp
    have hrest : names.mapM (named? (front ++ present (name :: names) (value :: values))) =
        some values := by
      rw [present_cons, ← List.append_assoc]
      refine ih hnodup (Nat.succ.inj hlength) fun e he => ?_
      rcases List.mem_append.mp he with he | he
      · exact fun hmem => hfront e he (List.mem_cons_of_mem name hmem)
      · obtain ⟨_, _, rfl⟩ := Option.map_eq_some_iff.mp (Option.mem_toList.mp he)
        exact hname
    rw [List.mapM_cons, hentry, hrest]
    rfl

theorem fields?_eq_of_present {names : List String} {values : List (Option Json)} {v : Json}
    (hv : v = ofFields (present names values)) (hnodup : names.Nodup)
    (hlength : names.length = values.length) : v.fields? names = some values := by
  have hfront : ∀ e ∈ ([] : List (String × Json)), e.1 ∉ names := nofun
  rw [hv, fields?_ofFields]
  exact mapM_named?_present hnodup hlength hfront

theorem present_map (fields : List (String × Json)) :
    present (fields.map Prod.fst) (fields.map fun e => some e.2) = fields := by
  induction fields with
  | nil => rfl
  | cons e fields ih =>
    rw [List.map_cons, List.map_cons, present_cons, ih]
    rfl

/-- The text reads as a record that has these fields with these values. -/
def HoldsFields (text : String) (fields : List (String × Json)) : Prop :=
  ∃ v, parse? text = some v ∧
    v.fields? (fields.map Prod.fst) = some (fields.map fun e => some e.2)

theorem holdsFields_text {fields : List (String × Json)} (hnodup : (fields.map Prod.fst).Nodup)
    (hplain : ∀ e ∈ fields, e.2.Plain) : HoldsFields (ofFields fields).text fields := by
  have hlength : (fields.map Prod.fst).length = (fields.map fun e => some e.2).length := by simp
  exact ⟨_, (Plain.ofFields hplain).parse?_text,
    fields?_eq_of_present (congrArg ofFields (present_map fields).symm) hnodup hlength⟩

theorem toString?_ofString (s : String) : (ofString s).toString? = some s :=
  textOf?_escape s

theorem toInt?_ofInt {i : Int} (hleast : -2 ^ 63 ≤ i) (hgreatest : i < 2 ^ 64) :
    (ofInt i).toInt? = some i := by
  have hmin : Int64.minValue.toInt.natAbs = 2 ^ 63 := by decide
  have hread : integer? (.ofInt i) =
      if i < 0 then if 0 < i.natAbs ∧ i.natAbs ≤ 2 ^ 63 then some (-(i.natAbs : Int)) else none
      else if i.natAbs < UInt64.size then some (i.natAbs : Int) else none := by
    simp only [integer?, Numeral.isInteger, Numeral.ofInt, Decimal.valueOf_digitsOf, hmin,
      decide_eq_true_eq]
    rfl
  have hinteger : integer? (.ofInt i) = some i := by
    rw [hread, UInt64.size]
    split_ifs <;> first
      | omega
      | exact congrArg some (by omega)
  rw [ofInt, toInt?, number?, hinteger]

theorem toUInt32?_ofInt (n : UInt32) : (ofInt n.toNat).toUInt32? = some n := by
  have hlt : (n.toNat : Int) < UInt32.size := by exact_mod_cast n.toNat_lt
  rw [toUInt32?, toInt?_ofInt (by omega) (lt_trans hlt (by decide)), Option.bind_eq_bind,
    Option.bind_some, if_pos ⟨Int.natCast_nonneg _, hlt⟩, Int.toNat_natCast, UInt32.ofNat_toNat]

theorem toInt32?_ofInt (i : Int32) : (ofInt i.toInt).toInt32? = some i := by
  have hle : Int32.minValue.toInt ≤ i.toInt := i.minValue_le_toInt
  have hge : i.toInt ≤ Int32.maxValue.toInt := i.toInt_le
  have hread : (ofInt i.toInt).toInt? = some i.toInt :=
    toInt?_ofInt (le_trans (by decide) hle) (lt_of_le_of_lt hge (by decide))
  rw [toInt32?, hread, Option.bind_eq_bind, Option.bind_some, if_pos ⟨hle, hge⟩, Int32.ofInt_toInt]

theorem toList?_ofList {item? : Json → Option α} {item : α → Json} {xs : List α}
    (h : ∀ x ∈ xs, item? (item x) = some x) : (ofList item xs).toList? item? = some xs :=
  mapM_map_eq_some h

theorem ofList_ne_null (item : α → Json) (xs : List α) : ofList item xs ≠ .null := by
  rw [ofList]
  exact nofun

theorem ofString_ne_null (s : String) : ofString s ≠ .null := by
  rw [ofString]
  exact nofun

theorem withDefault_toOption?_map {item? : Json → Option α} {item : α → Json} {x : Option α}
    (h : ∀ a ∈ x, item? (item a) = some a) (hnull : ∀ a, item a ≠ .null) :
    withDefault none (toOption? item?) (x.map item) = some x := by
  cases x with
  | none => rfl
  | some a =>
    rw [Option.map_some, withDefault, toOption?, h a rfl]
    · rfl
    · exact hnull a

theorem Plain.ofInt (i : Int) : (ofInt i).Plain :=
  .number (Decimal.isPlainWhole_ofInt i)

theorem Plain.ofBinary {f : Format} (w : Notation) (x : Binary f) : (ofBinary w x).Plain := by
  rw [Json.ofBinary]
  split
  · exact .number (Decimal.isPlainWhole_of_written? ‹_›)
  · exact .null

theorem Plain.ofList {item : α → Json} (h : ∀ x, (item x).Plain) (xs : List α) :
    (ofList item xs).Plain :=
  .array (List.forall_mem_map.mpr fun x _ => h x)

theorem Plain.ofFields_present (names : List String) {values : List (Option Json)}
    (h : ∀ v, some v ∈ values → v.Plain) : (Json.ofFields (present names values)).Plain :=
  .ofFields fun _ he => h _ (mem_of_mem_present he).2

/-- Reading what is written for the number gives the number. -/
def ReadsBack {f : Format} (w : Notation) (x : Binary f) : Prop := (ofBinary w x).toBinary? = some x

instance {f : Format} (w : Notation) (x : Binary f) : Decidable (ReadsBack w x) :=
  inferInstanceAs (Decidable (_ = _))

theorem toBinary?_ofBinary_of_not_isFinite {f : Format} (w : Notation) {x : Binary f}
    (h : ¬x.isFinite) : (ofBinary w x).toBinary? = (none : Option (Binary f)) := by
  cases x with
  | finite => exact absurd rfl h
  | _ => rfl

end WaveletRaster.Json
