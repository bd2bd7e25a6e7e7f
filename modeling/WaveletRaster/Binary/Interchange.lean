import WaveletRaster.Binary.Basic

/-! Binary numbers in exchange with others: whole numbers, decimals, numbers of another format, and
bit patterns of a sign, an exponent field and a fraction field. -/

namespace WaveletRaster.Binary

variable {f g : Format}

def ofNat (n : Nat) : Binary f := ofShift false (n <<< f.scale) 0

def ofDecimal (negative : Bool) (digits : Nat) : Int → Binary f
  | .ofNat e => ofShift negative ((digits * Nat.pow 10 e) <<< f.scale) 0
  | .negSucc e => ofQuotient negative (digits <<< f.scale) (Nat.pow 10 (e + 1))

def convert : Binary f → Binary g
  | .nan => .nan
  | .infinity s => .infinity s
  | .finite s m _ => ofShift s (m <<< (g.scale - f.scale)) (f.scale - g.scale)

def Format.fractions (f : Format) : Nat := 1 <<< (f.precision - 1)

def Format.topField (f : Format) : Nat := 2 * f.maxExponent + 1

def Format.encode (f : Format) (n : Nat) : Nat :=
  excessBits f.precision n * f.fractions + n >>> excessBits f.precision n

def Format.signBit (f : Format) : Nat := (f.topField + 1) * f.fractions

def toBits? : Binary f → Option Nat
  | .nan => none
  | .infinity s => some (s.toNat * f.signBit + f.topField * f.fractions)
  | .finite s m _ => some (s.toNat * f.signBit + f.encode m)

/-- The number with a given bit pattern. Every pattern with a full exponent field and a fraction
is not-a-number. -/
def ofBits (bits : Nat) : Binary f :=
  let negative := decide (f.signBit ≤ bits)
  let field := bits / f.fractions % (f.topField + 1)
  let fraction := bits % f.fractions
  if field = f.topField then if fraction = 0 then .infinity negative else .nan
  else if field = 0 then ofShift negative fraction 0
  else ofShift negative ((fraction + f.fractions) <<< (field - 1)) 0

end WaveletRaster.Binary
