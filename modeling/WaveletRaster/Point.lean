import WaveletRaster.Arithmetic

/-! Positions in two frames. Control points are local to the cell being visited; the origin is the
integer position that moves in lockstep with them. -/

namespace WaveletRaster

structure Point (α : Type) where
  x : α
  y : α
  deriving DecidableEq

namespace Point

variable {α β : Type}

def map (f : α → β) (p : Point α) : Point β := ⟨f p.x, f p.y⟩

variable [Arithmetic α]

instance : Add (Point α) := ⟨fun p q => ⟨p.x + q.x, p.y + q.y⟩⟩
instance : Sub (Point α) := ⟨fun p q => ⟨p.x - q.x, p.y - q.y⟩⟩
instance : Neg (Point α) := ⟨fun p => ⟨-p.x, -p.y⟩⟩

def translate (p offset : Point α) : Point α := p + offset

def isFinite (p : Point α) : Bool := Arithmetic.isFinite p.x && Arithmetic.isFinite p.y

def cross (p q : Point α) : α := p.x * q.y - p.y * q.x

def corner (p : Point α) : α := p.x * p.y

def widen {S W : Type} [Arithmetic S] [Arithmetic W] [Precision S W] (p : Point S) :
    Point W := p.map Precision.widen

def narrow {S W : Type} [Arithmetic S] [Arithmetic W] [Precision S W] (p : Point W) : Point S :=
  p.map Precision.narrow

def determinant {S W : Type} [Arithmetic S] [Arithmetic W] [Precision S W] (p q : Point S) : W :=
  cross p.widen q.widen

end Point

def Point.equals (p q : Point Binary32) : Bool := p.x.equals q.x && p.y.equals q.y

/-- The position of a cell in the tree. Its coordinates wrap around. -/
structure Origin where
  x : Int32
  y : Int32
  deriving DecidableEq

namespace Origin

def zero : Origin := ⟨0, 0⟩

def moveBack (o : Origin) (dx dy : UInt32) : Origin := ⟨o.x - dx.toInt32, o.y - dy.toInt32⟩

end Origin
end WaveletRaster
