import WaveletRaster.Binary.Interchange
import WaveletRaster.Decimal.Numeral

/-! Floating-point literals as they are typed: an optional sign, then digits with an optional point
and an optional exponent, or the name of an infinity or of not-a-number in any case. The decimal
value is rounded once. -/

namespace WaveletRaster.Decimal

inductive LiteralFault where
  | empty
  | invalid
  deriving DecidableEq

def LiteralFault.message : LiteralFault → String
  | empty => "cannot parse float from empty string"
  | invalid => "invalid float literal"

def exponentCap : Nat := 0x10000

/-- The size of a typed exponent: digits past the cap do not count. -/
def cappedExponent (ds : List Digit) : Nat :=
  ds.foldl (fun e d => if e < exponentCap then 10 * e + d.val else e) 0

def typedExponent? : List Char → Option Int
  | [] => some 0
  | c :: cs =>
    if c = 'e' ∨ c = 'E' then
      let (negative, cs) := Numeral.takeSign cs
      match Numeral.takeDigits cs with
      | ([], _) | (_, _ :: _) => none
      | (ds, []) => some (if negative then -(cappedExponent ds : Int) else cappedExponent ds)
    else none

def typedDecimal? (cs : List Char) : Option (List Digit × Int) :=
  let (whole, rest) := Numeral.takeDigits cs
  let (fraction, rest) := match rest with
    | '.' :: rest => Numeral.takeDigits rest
    | rest => ([], rest)
  if whole.isEmpty && fraction.isEmpty then none
  else (typedExponent? rest).map fun e => (whole ++ fraction, e - fraction.length)

def named? {f : Binary.Format} (negative : Bool) (cs : List Char) : Option (Binary f) :=
  match String.ofList (cs.map Char.toLower) with
  | "inf" | "infinity" => some (.infinity negative)
  | "nan" => some .nan
  | _ => none

def readLiteral {f : Binary.Format} (cs : List Char) : Except LiteralFault (Binary f) :=
  if cs.isEmpty then .error .empty
  else
    let (negative, body) := Numeral.takeSign cs
    match typedDecimal? body with
    | some (ds, e) => .ok (Binary.ofDecimal negative (valueOf ds) e)
    | none =>
      match named? negative body with
      | some x => .ok x
      | none => .error .invalid

end WaveletRaster.Decimal
