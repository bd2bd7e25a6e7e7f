import WaveletRaster.Binary.Interchange
import WaveletRaster.Decimal.Numeral

/-! The numbers that numerals denote. A numeral without fraction and exponent that fits 64 bits is
an integer. Any other is read through a 64-bit significand that is scaled by a power of ten in
double precision; so two roundings may follow each other, which is exact for short numerals. -/

namespace WaveletRaster.Json

open Decimal (Digit Numeral)

inductive Number where
  | integer (value : Int)
  | real (value : Binary64)
  deriving DecidableEq

def fitDigits (n : Nat) : List Digit → Nat × List Digit
  | [] => (n, [])
  | d :: ds =>
    if 10 * n + d.val < UInt64.size then fitDigits (10 * n + d.val) ds else (n, d :: ds)

def isZero : Binary64 → Bool
  | .finite _ 0 _ => true
  | _ => false

def greatestPower : Nat := 308

def powerOfTen (n : Nat) : Binary64 := Binary.ofNat (Nat.pow 10 n)

def divideByPower (x : Binary64) (n : Nat) : Binary64 :=
  if n ≤ greatestPower then x / powerOfTen n
  else if isZero x then x
  else divideByPower (x / powerOfTen greatestPower) (n - greatestPower)
termination_by n
decreasing_by simp only [greatestPower] at *; omega

def scale? (x : Binary64) : Int → Option Binary64
  | .ofNat n =>
    if isZero x then some x
    else if n ≤ greatestPower then
      let y := x * powerOfTen n
      if y.isFinite then some y else none
    else none
  | .negSucc n => some (divideByPower x (n + 1))

def significand (n : Numeral) : Nat × Int :=
  let (m, excess) := fitDigits 0 n.whole
  let (m, rest) := fitDigits m n.fraction
  (m, (n.exponent.getD 0) + excess.length - (n.fraction.length - rest.length : Nat))

/-- A negative zero and integers outside 64 bits are reals. -/
def integer? (n : Numeral) : Option Int :=
  let m := Decimal.valueOf n.whole
  if !n.isInteger then none
  else if n.negative then if 0 < m ∧ m ≤ Int64.minValue.toInt.natAbs then some (-m) else none
  else if m < UInt64.size then some m else none

def number? (n : Numeral) : Option Number :=
  match integer? n with
  | some i => some (.integer i)
  | none => do
    let (m, e) := significand n
    let x ← scale? (Binary.ofNat m) e
    return .real (if n.negative then -x else x)

def Number.toBinary {f : Binary.Format} : Number → Binary f
  | .integer i => if i < 0 then -Binary.ofNat i.natAbs else Binary.ofNat i.natAbs
  | .real x => x.convert

end WaveletRaster.Json
