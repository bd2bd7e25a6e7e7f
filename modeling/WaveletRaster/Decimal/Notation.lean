import WaveletRaster.Binary.Basic
import WaveletRaster.Decimal.Numeral

/-! How binary numbers are written: with the fewest digits that read back, positionally for a range
of magnitudes and scientifically outside it. To find the digits, grids of powers of ten are tried
from the coarsest on; the first grid with a point that rounds to the number wins. -/

namespace WaveletRaster.Decimal

open Binary (Format excessBits)

structure Scaled where
  digits : Nat
  exponent : Int
  deriving DecidableEq

/-- The reals that round to a magnitude, in quarters of the least number of the format: from `low`
to `high` around `mid`, the ends included when the significand is even. -/
structure Catchment where
  low : Nat
  mid : Nat
  high : Nat
  ends : Bool
  deriving DecidableEq

def Catchment.of (f : Format) (n : Nat) : Catchment :=
  let e := excessBits f.precision n
  let step := 1 <<< e
  let below := if 0 < e ∧ n = 1 <<< n.log2 then step else 2 * step
  { low := 4 * n - below, mid := 4 * n, high := 4 * n + 2 * step, ends := n >>> e % 2 = 0 }

def Catchment.covers (c : Catchment) (num den : Nat) : Bool :=
  if c.ends then c.low * den ≤ num && num ≤ c.high * den
  else c.low * den < num && num < c.high * den

/-- The point nearest to the middle on the grid of multiples of `num / den`, if one of the two
neighbours of the middle is covered. Of two equally near ones the even multiple is taken. -/
def Catchment.gridPoint? (c : Catchment) (num den : Nat) : Option Nat :=
  let mid := c.mid * den
  let d := mid / num
  let lower := d * num
  let upper := lower + num
  match c.covers lower den, c.covers upper den with
  | false, false => none
  | true, false => some d
  | false, true => some (d + 1)
  | true, true =>
    if mid - lower < upper - mid then some d
    else if upper - mid < mid - lower then some (d + 1)
    else some (d + d % 2)

/-- The coarsest covered grid point at or below the grid of `10 ^ (j - scale)`. On the finest grid,
`10 ^ (-scale)`, the magnitude itself is a point. -/
def shortestFrom (f : Format) (n : Nat) (c : Catchment) : Nat → Scaled
  | 0 => ⟨n * Nat.pow 5 f.scale, -f.scale⟩
  | j + 1 =>
    let quarters := 1 <<< (f.scale + 2)
    let found :=
      if f.scale ≤ j + 1 then c.gridPoint? (Nat.pow 10 (j + 1 - f.scale) * quarters) 1
      else c.gridPoint? quarters (Nat.pow 10 (f.scale - (j + 1)))
    match found with
    | some d => ⟨d, (j + 1 : Int) - f.scale⟩
    | none => shortestFrom f n c j

def shortest (f : Format) (n : Nat) : Scaled :=
  if n = 0 then ⟨0, 0⟩
  else
    let start := if f.scale ≤ n.log2 then f.scale + (n.log2 - f.scale) * 4 / 13 + 1
      else f.scale + 1 - (f.scale - n.log2) * 3 / 10
    shortestFrom f n (Catchment.of f n) start

structure Notation where
  leastPositional : Int
  greatestPositional : Int
  deriving DecidableEq

namespace Notation

def single : Notation := ⟨-6, 12⟩

def double : Notation := ⟨-5, 15⟩

/-- Writes `digits * 10 ^ exponent`. Positional numbers always have a fraction; scientific ones have
one only when there is more than one digit. -/
def write (w : Notation) (negative : Bool) (x : Scaled) : Numeral :=
  let digits := digitsOf x.digits
  let leading := x.exponent + digits.length - 1
  if w.leastPositional ≤ leading ∧ leading ≤ w.greatestPositional then
    if 0 ≤ x.exponent then
      ⟨negative, digits ++ List.replicate x.exponent.toNat Digit.zero, [Digit.zero], none⟩
    else if 0 ≤ leading then
      let (whole, fraction) := digits.splitAt (leading.toNat + 1)
      ⟨negative, whole, fraction, none⟩
    else ⟨negative, [Digit.zero], List.replicate (-leading - 1).toNat Digit.zero ++ digits, none⟩
  else ⟨negative, digits.take 1, digits.drop 1, some leading⟩

end Notation

def written? {f : Format} (w : Notation) : Binary f → Option Numeral
  | .finite s m _ => some (w.write s (shortest f m))
  | _ => none

end WaveletRaster.Decimal
