import WaveletRaster.Decimal.Numeral

/-! Integers as they are typed: an optional sign and decimal digits, within a range. -/

namespace WaveletRaster.Decimal

inductive IntegerFault where
  | empty
  | invalidDigit
  | tooLarge
  | tooSmall
  deriving DecidableEq

def IntegerFault.message : IntegerFault → String
  | empty => "cannot parse integer from empty string"
  | invalidDigit => "invalid digit found in string"
  | tooLarge => "number too large to fit in target type"
  | tooSmall => "number too small to fit in target type"

/-- Appends digits to `n` as long as it stays within `limit`. The text is read from the left, so of
an excess and an invalid digit behind it the excess is reported. -/
def readMagnitude (limit : Nat) (excess : IntegerFault) (n : Nat) :
    List Char → Except IntegerFault Nat
  | [] => .ok n
  | c :: cs =>
    match Digit.ofChar? c with
    | none => .error .invalidDigit
    | some d =>
      if limit < 10 * n + d.val then .error excess
      else readMagnitude limit excess (10 * n + d.val) cs

structure IntegerRange where
  least : Int
  greatest : Int
  deriving DecidableEq

namespace IntegerRange

def int32 : IntegerRange := ⟨Int32.minValue.toInt, Int32.maxValue.toInt⟩

def int64 : IntegerRange := ⟨Int64.minValue.toInt, Int64.maxValue.toInt⟩

def uint64 : IntegerRange := ⟨0, UInt64.size - 1⟩

def read (range : IntegerRange) (cs : List Char) : Except IntegerFault Int :=
  let positive (cs : List Char) : Except IntegerFault Int :=
    (readMagnitude range.greatest.toNat .tooLarge 0 cs).map Int.ofNat
  match cs with
  | [] => .error .empty
  | ['+'] | ['-'] => .error .invalidDigit
  | '+' :: digits => positive digits
  | '-' :: digits =>
    if range.least < 0 then
      (readMagnitude range.least.natAbs .tooSmall 0 digits).map fun n => -(n : Int)
    else positive cs
  | _ => positive cs

end IntegerRange
end WaveletRaster.Decimal
