import WaveletRaster.Binary.Basic
import WaveletRaster.Decimal.Notation
import WaveletRaster.Json.Basic
import WaveletRaster.Json.Number

/-! Typed values in JSON. A record is an object, in which unknown keys are ignored and known keys
may not repeat, or the array of its fields in order. -/

namespace WaveletRaster.Json

open Decimal (Notation Numeral)

variable {α : Type}

/-- The value of each named field of a record, `none` where the field is missing. -/
def fields? (names : List String) : Json → Option (List (Option Json))
  | .array items => if items.length = names.length then some (items.map some) else none
  | .object entries => do
    let entries ← entries.mapM fun (k, v) => do return (← textOf? k, v)
    names.mapM fun name =>
      match entries.filter (·.1 = name) with
      | [] => some none
      | [(_, v)] => some (some v)
      | _ => none
  | _ => none

def toString? : Json → Option String
  | .string body => textOf? body
  | _ => none

def toInt? : Json → Option Int
  | .number n =>
    match number? n with
    | some (.integer i) => some i
    | _ => none
  | _ => none

def toUInt32? (v : Json) : Option UInt32 := do
  let i ← v.toInt?
  if 0 ≤ i ∧ i < UInt32.size then some (UInt32.ofNat i.toNat) else none

def toInt32? (v : Json) : Option Int32 := do
  let i ← v.toInt?
  if Int32.minValue.toInt ≤ i ∧ i ≤ Int32.maxValue.toInt then some (Int32.ofInt i) else none

def toBinary? {f : Binary.Format} : Json → Option (Binary f)
  | .number n => (number? n).map Number.toBinary
  | _ => none

def toList? (item : Json → Option α) : Json → Option (List α)
  | .array items => items.mapM item
  | _ => none

def toOption? (item : Json → Option α) : Json → Option (Option α)
  | .null => some none
  | v => (item v).map some

def required (item : Json → Option α) (field : Option Json) : Option α := field.bind item

def withDefault (default : α) (item : Json → Option α) : Option Json → Option α
  | none => some default
  | some v => item v

def ofString (s : String) : Json := .string (escape s)

def ofInt (i : Int) : Json := .number (.ofInt i)

/-- Numbers that are not finite are written as null. -/
def ofBinary {f : Binary.Format} (w : Notation) (x : Binary f) : Json :=
  match Decimal.written? w x with
  | some n => .number n
  | none => .null

def ofList (item : α → Json) (xs : List α) : Json := .array (xs.map item)

def ofFields (entries : List (String × Json)) : Json :=
  .object (entries.map fun (k, v) => (escape k, v))

end WaveletRaster.Json
