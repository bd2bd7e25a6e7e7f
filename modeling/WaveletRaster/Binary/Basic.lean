import WaveletRaster.Binary.Rounding

/-! Binary floating-point numbers and their arithmetic. A finite magnitude is held as a natural
number: how many times it contains the least positive number of its format. Every operation computes
the exact result as a quotient of natural numbers and rounds it once, ties to even. There is one
not-a-number. -/

namespace WaveletRaster.Binary

/-- A binary interchange format: significant bits, and the exponent of its largest power of two. -/
structure Format where
  precision : Nat
  maxExponent : Nat
  precision_pos : 0 < precision := by decide
  deriving DecidableEq

namespace Format

def single : Format := ⟨24, 127, by decide⟩

def double : Format := ⟨53, 1023, by decide⟩

/-- The least positive number is `2 ^ (-scale)`. -/
def scale (f : Format) : Nat := f.maxExponent + f.precision - 2

def overflow (f : Format) : Nat := f.maxExponent + 1 + f.scale

def Represents (f : Format) (n : Nat) : Prop :=
  1 <<< excessBits f.precision n ∣ n ∧ n < 1 <<< f.overflow

instance (f : Format) (n : Nat) : Decidable (f.Represents n) :=
  inferInstanceAs (Decidable (_ ∧ _))

theorem represents_zero (f : Format) : f.Represents 0 :=
  ⟨Nat.dvd_zero _, Nat.one_shiftLeft _ ▸ Nat.two_pow_pos _⟩

end Format
end WaveletRaster.Binary

namespace WaveletRaster

open Binary (Format)

/-- A number of the format `f`. The magnitude counts least positive numbers of the format. -/
inductive Binary (f : Format) where
  | nan
  | infinity (negative : Bool)
  | finite (negative : Bool) (magnitude : Nat) (represented : f.Represents magnitude)
  deriving DecidableEq

abbrev Binary32 := Binary Format.single

abbrev Binary64 := Binary Format.double

namespace Binary

variable {f g : Format}

def zero (negative : Bool) : Binary f := .finite negative 0 f.represents_zero

def ofMagnitude (negative : Bool) (n : Nat) (h : 1 <<< excessBits f.precision n ∣ n) : Binary f :=
  if hlog : n.log2 < f.overflow then .finite negative n ⟨h, lt_shiftLeft_of_log2_lt hlog⟩
  else .infinity negative

/-- The number nearest to `num / den` least numbers. -/
def ofQuotient (negative : Bool) (num den : Nat) : Binary f :=
  ofMagnitude negative (roundQuotient f.precision num den)
    (excessBits_roundQuotient_dvd f.precision_pos num den)

def ofShift (negative : Bool) (n k : Nat) : Binary f :=
  ofMagnitude negative (roundShift f.precision n k)
    (roundShift_eq f.precision_pos n k ▸ excessBits_roundQuotient_dvd f.precision_pos n (1 <<< k))

protected def neg : Binary f → Binary f
  | .nan => .nan
  | .infinity s => .infinity !s
  | .finite s m h => .finite (!s) m h

/-- Magnitudes of one sign add up and of two signs cancel; a complete cancellation is a positive
zero. -/
protected def add : Binary f → Binary f → Binary f
  | .nan, _ => .nan
  | _, .nan => .nan
  | .infinity s, .infinity t => if s = t then .infinity s else .nan
  | .infinity s, .finite .. => .infinity s
  | .finite .., .infinity t => .infinity t
  | .finite s m _, .finite t n _ =>
    if s = t then ofShift s (m + n) 0
    else if m < n then ofShift t (n - m) 0
    else if n < m then ofShift s (m - n) 0
    else zero false

protected def sub (x y : Binary f) : Binary f := x.add y.neg

protected def mul : Binary f → Binary f → Binary f
  | .nan, _ => .nan
  | _, .nan => .nan
  | .infinity s, .infinity t => .infinity (s != t)
  | .infinity s, .finite t n _ => if n = 0 then .nan else .infinity (s != t)
  | .finite s m _, .infinity t => if m = 0 then .nan else .infinity (s != t)
  | .finite s m _, .finite t n _ => ofShift (s != t) (m * n) f.scale

protected def div : Binary f → Binary f → Binary f
  | .nan, _ => .nan
  | _, .nan => .nan
  | .infinity _, .infinity _ => .nan
  | .infinity s, .finite t _ _ => .infinity (s != t)
  | .finite s _ _, .infinity t => zero (s != t)
  | .finite s m _, .finite t n _ =>
    if n = 0 then if m = 0 then .nan else .infinity (s != t)
    else ofQuotient (s != t) (m <<< f.scale) n

instance : Neg (Binary f) := ⟨Binary.neg⟩
instance : Add (Binary f) := ⟨Binary.add⟩
instance : Sub (Binary f) := ⟨Binary.sub⟩
instance : Mul (Binary f) := ⟨Binary.mul⟩
instance : Div (Binary f) := ⟨Binary.div⟩

def isFinite : Binary f → Bool
  | .finite .. => true
  | _ => false

def isNaN : Binary f → Bool
  | .nan => true
  | _ => false

/-- Numerical equality: the two zeros are equal and not-a-number equals nothing. -/
def equals : Binary f → Binary f → Bool
  | .infinity s, .infinity t => s == t
  | .finite s m _, .finite t n _ => m == n && (s == t || m == 0)
  | _, _ => false

end Binary
end WaveletRaster
