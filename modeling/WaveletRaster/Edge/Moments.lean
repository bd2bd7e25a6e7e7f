import WaveletRaster.Coefficients
import WaveletRaster.Edge.Basic
import WaveletRaster.Quadrant

/-! Closed-form boundary moments of an edge and their projection onto the coefficients of a node.

The first-order moments `kx` and `ky` depend on the endpoints alone; the second-order moments `lx`
and `ly` are weighted sums of the areas between control points. A quadrant chooses the sign pattern
with which the moments enter the three coefficients. -/

namespace WaveletRaster

structure Moments (α : Type) where
  kx : α
  ky : α
  lx : α
  ly : α
  deriving DecidableEq

namespace Moments

variable {α β : Type}

def toList (m : Moments α) : List α := [m.kx, m.ky, m.lx, m.ly]

def map (f : α → β) (m : Moments α) : Moments β := ⟨f m.kx, f m.ky, f m.lx, f m.ly⟩

open Arithmetic (ofNat ratio)
open Point (cross corner)

variable [Arithmetic α]

instance : Neg (Moments α) := ⟨fun m => m.map (-·)⟩

def firstOrder (scale : α) (first last : Point α) : α × α :=
  (ratio 1 4 * (last.y - first.y) * scale, ratio 1 4 * (first.x - last.x) * scale)

def ofLine (scale : α) (a b : Point α) : Moments α :=
  let (kx, ky) := firstOrder scale a b
  { kx, ky
    lx := ratio 1 2 * kx * (a.x + b.x) * scale
    ly := ratio 1 2 * ky * (a.y + b.y) * scale }

def ofQuad (scale : α) (a b c : Point α) : Moments α :=
  let (kx, ky) := firstOrder scale a c
  let scale₂ := scale * scale
  let common := ratio 1 24 * (ofNat 2 * (cross a b + cross b c) + cross a c) * scale₂
  let diff := ratio 3 24 * (corner c - corner a) * scale₂
  ⟨kx, ky, common + diff, common - diff⟩

def ofCubic (scale : α) (a b c d : Point α) : Moments α :=
  let (kx, ky) := firstOrder scale a d
  let scale₂ := scale * scale
  let common := ratio 1 80 *
    (ofNat 3 * (ofNat 2 * (cross c d + cross a b) + cross b c + cross b d + cross a c) + cross a d) *
    scale₂
  let diff := ratio 10 80 * (corner d - corner a) * scale₂
  ⟨kx, ky, common + diff, common - diff⟩

def ofEdge {d : Degree} (scale : α) : Edge α d → Moments α
  | .line a b => ofLine scale a b
  | .quad a b c => ofQuad scale a b c
  | .cubic a b c d => ofCubic scale a b c d

/-- The contribution of an edge inside the quadrant to the coefficients of the parent. -/
def project (m : Moments α) : Quadrant → Coefficients α
  | .topLeft => ⟨m.lx, m.ly, m.lx⟩
  | .topRight => ⟨m.kx - m.lx, m.ly, m.kx - m.lx⟩
  | .bottomLeft => ⟨m.lx, m.ky - m.ly, -m.lx⟩
  | .bottomRight => ⟨m.kx - m.lx, m.ky - m.ly, -(m.kx - m.lx)⟩

end Moments

def Edge.moments {S W : Type} {d : Degree} [Arithmetic S] [Arithmetic W] [Precision S W]
    (e : Edge S d) (scale : W) : Moments W :=
  Moments.ofEdge scale (e.map Point.widen)

end WaveletRaster
