import WaveletRaster.Binary.Interchange

/-! The number systems in which edges are measured. Control points and coefficient slots are stored
in one system and moments are computed in a working system at least as wide. The same formulas run
in binary floating point, single stored and double working, and in exact rationals. -/

namespace WaveletRaster

class Arithmetic (α : Type) extends Add α, Sub α, Mul α, Div α, Neg α where
  ofNat : Nat → α
  isFinite : α → Bool

def Arithmetic.ratio {α : Type} [Arithmetic α] (num den : Nat) : α :=
  Arithmetic.ofNat num / Arithmetic.ofNat den

/-- Storage in `S` and working precision `W`. -/
class Precision (S : Type) (W : outParam Type) [Arithmetic S] [Arithmetic W] where
  widen : S → W
  narrow : W → S

instance {f : Binary.Format} : Arithmetic (Binary f) where
  ofNat := Binary.ofNat
  isFinite := Binary.isFinite

instance : Arithmetic Rat where
  ofNat n := n
  isFinite _ := true

instance : Precision Binary32 Binary64 where
  widen := Binary.convert
  narrow := Binary.convert

instance : Precision Rat Rat where
  widen x := x
  narrow x := x

end WaveletRaster
