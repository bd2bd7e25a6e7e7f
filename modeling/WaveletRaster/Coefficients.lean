import WaveletRaster.Arithmetic

/-! The three detail coefficients of a node. Slots are addressed by name or by index: 0 horizontal,
1 vertical, 2 diagonal. -/

namespace WaveletRaster

structure Coefficients (α : Type) where
  horizontal : α
  vertical : α
  diagonal : α
  deriving DecidableEq

structure SlotOutOfRange where
  slot : Nat
  deriving DecidableEq

namespace SlotOutOfRange

def message (e : SlotOutOfRange) : String :=
  s!"index out of bounds: the len is 3 but the index is {e.slot}"

end SlotOutOfRange

namespace Coefficients

variable {α β γ : Type}

def map (f : α → β) (c : Coefficients α) : Coefficients β :=
  ⟨f c.horizontal, f c.vertical, f c.diagonal⟩

def zipWith (f : α → β → γ) (c : Coefficients α) (d : Coefficients β) :
    Coefficients γ :=
  ⟨f c.horizontal d.horizontal, f c.vertical d.vertical, f c.diagonal d.diagonal⟩

def toList (c : Coefficients α) : List α := [c.horizontal, c.vertical, c.diagonal]

def all (p : α → Bool) (c : Coefficients α) : Bool := c.toList.all p

def zero [Arithmetic α] : Coefficients α :=
  ⟨Arithmetic.ofNat 0, Arithmetic.ofNat 0, Arithmetic.ofNat 0⟩

/-- Adds a contribution: every slot is widened, added to, and narrowed once. -/
def accumulate {S W : Type} [Arithmetic S] [Arithmetic W] [Precision S W]
    (c : Coefficients S) (delta : Coefficients W) : Coefficients S :=
  c.zipWith (fun slot d => Precision.narrow (Precision.widen slot + d)) delta

def get (c : Coefficients α) : Nat → Except SlotOutOfRange α
  | 0 => .ok c.horizontal
  | 1 => .ok c.vertical
  | 2 => .ok c.diagonal
  | slot => .error ⟨slot⟩

def set (c : Coefficients α) (value : α) : Nat → Except SlotOutOfRange (Coefficients α)
  | 0 => .ok { c with horizontal := value }
  | 1 => .ok { c with vertical := value }
  | 2 => .ok { c with diagonal := value }
  | slot => .error ⟨slot⟩

end Coefficients

def Coefficients.equals (c d : Coefficients Binary32) : Bool :=
  c.horizontal.equals d.horizontal && c.vertical.equals d.vertical && c.diagonal.equals d.diagonal

end WaveletRaster
