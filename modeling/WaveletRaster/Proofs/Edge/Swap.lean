import Mathlib
import WaveletRaster.Proofs.Edge.Reversal

/-! The exchange of the two axes, in binary arithmetic. It turns every area around and leaves every
corner product as it is, so that the moments along the one axis become the opposites of those along
the other, through every rounding step. -/

namespace WaveletRaster
open Arithmetic (ofNat ratio)
open Binary (Format)

def Point.swap {α : Type} (p : Point α) : Point α := ⟨p.y, p.x⟩

def Origin.swap (o : Origin) : Origin := ⟨o.y, o.x⟩

def Quadrant.swap : Quadrant → Quadrant
  | topLeft => topLeft
  | topRight => bottomLeft
  | bottomLeft => topRight
  | bottomRight => bottomRight

def Edge.swap {α : Type} {d : Degree} (e : Edge α d) : Edge α d := e.map Point.swap

namespace Moments

def swap {α : Type} (m : Moments α) : Moments α := ⟨m.ky, m.kx, m.ly, m.lx⟩

theorem horizontal_project_swap {α : Type} [Arithmetic α] (m : Moments α) (q : Quadrant) :
    (m.swap.project q.swap).horizontal = (m.project q).vertical := by
  cases q <;> rfl

theorem vertical_project_swap {α : Type} [Arithmetic α] (m : Moments α) (q : Quadrant) :
    (m.swap.project q.swap).vertical = (m.project q).horizontal := by
  cases q <;> rfl

end Moments

theorem Origin.enter_swap (o : Origin) (half : UInt32) (q : Quadrant) :
    o.swap.enter half q.swap = (o.enter half q).swap := by
  cases q <;> rfl

theorem Edge.enter_swap {S : Type} {d : Degree} [Arithmetic S] (e : Edge S d) (half : UInt32)
    (q : Quadrant) : e.swap.enter half q.swap = (e.enter half q).swap := by
  have hshift : (q.swap.shift half : Point S) = (q.shift half).swap := by cases q <;> rfl
  rw [enter, enter, translate, translate, swap, swap, map_map, map_map, hshift]
  rfl

section
variable {f : Format}

theorem Point.opposite_cross_swap (p q : Point (Binary f)) :
    (p.swap.cross q.swap).Opposite (p.cross q) :=
  Binary.opposite_sub_swap _ _

theorem Point.corner_swap (p : Point (Binary f)) : p.swap.corner = p.corner := Binary.mul_comm _ _

namespace Moments

theorem opposite_firstOrder_swap (scale : Binary f) (a b : Point (Binary f)) :
    (firstOrder scale a.swap b.swap).1.Opposite (firstOrder scale a b).2 ∧
      (firstOrder scale a.swap b.swap).2.Opposite (firstOrder scale a b).1 :=
  ⟨((Binary.opposite_sub_swap b.x a.x).mul_left _).mul_right scale,
    ((Binary.opposite_sub_swap a.y b.y).mul_left _).mul_right scale⟩

theorem opposite_ofAreas {kx ky kx' ky' common common' : Binary f} (hkx : kx'.Opposite ky)
    (hky : ky'.Opposite kx) (hcommon : common'.Opposite common) (diff : Binary f) :
    Opposite ⟨kx', ky', common' + diff, common' - diff⟩
      (swap ⟨kx, ky, common + diff, common - diff⟩) :=
  ⟨hkx, hky, hcommon.add (Binary.opposite_neg diff), hcommon.add (Binary.opposite_neg diff).symm⟩

theorem opposite_ofLine_swap (scale : Binary f) (a b : Point (Binary f)) :
    (ofLine scale a.swap b.swap).Opposite (ofLine scale a b).swap := by
  obtain ⟨hkx, hky⟩ := opposite_firstOrder_swap scale a b
  exact ⟨hkx, hky, ((hkx.mul_left _).mul_right _).mul_right _,
    ((hky.mul_left _).mul_right _).mul_right _⟩

theorem opposite_ofQuad_swap (scale : Binary f) (a b c : Point (Binary f)) :
    (ofQuad scale a.swap b.swap c.swap).Opposite (ofQuad scale a b c).swap := by
  obtain ⟨hkx, hky⟩ := opposite_firstOrder_swap scale a c
  have hinner := (Point.opposite_cross_swap a b).add (Point.opposite_cross_swap b c)
  have hareas := (hinner.mul_left (ofNat 2)).add (Point.opposite_cross_swap a c)
  have hcommon := (hareas.mul_left (ratio 1 24)).mul_right (scale * scale)
  rw [ofQuad, Point.corner_swap, Point.corner_swap]
  exact opposite_ofAreas hkx hky hcommon _

theorem opposite_ofCubic_swap (scale : Binary f) (a b c d : Point (Binary f)) :
    (ofCubic scale a.swap b.swap c.swap d.swap).Opposite (ofCubic scale a b c d).swap := by
  obtain ⟨hkx, hky⟩ := opposite_firstOrder_swap scale a d
  have houter := (Point.opposite_cross_swap c d).add (Point.opposite_cross_swap a b)
  have hinner := (((houter.mul_left (ofNat 2)).add (Point.opposite_cross_swap b c)).add
    (Point.opposite_cross_swap b d)).add (Point.opposite_cross_swap a c)
  have hareas := (hinner.mul_left (ofNat 3)).add (Point.opposite_cross_swap a d)
  have hcommon := (hareas.mul_left (ratio 1 80)).mul_right (scale * scale)
  rw [ofCubic, Point.corner_swap, Point.corner_swap]
  exact opposite_ofAreas hkx hky hcommon _

end Moments
end

theorem Edge.opposite_moments_swap {d : Degree} (e : Edge Binary32 d) (scale : Binary64) :
    (e.swap.moments scale).Opposite (e.moments scale).swap := by
  cases e with
  | line a b => exact Moments.opposite_ofLine_swap scale a.widen b.widen
  | quad a b c => exact Moments.opposite_ofQuad_swap scale a.widen b.widen c.widen
  | cubic a b c d => exact Moments.opposite_ofCubic_swap scale a.widen b.widen c.widen d.widen

theorem Descent.axes_exchange {d : Degree} (e : Edge Binary32 d) (origin : Origin)
    (scale : Binary64) (half : UInt32) (q : Quadrant) :
    let after := dispatch ⟨origin, e, .zero⟩ half q.index
    let exchanged := dispatch ⟨origin.swap, e.swap, .zero⟩ half q.swap.index
    (e.swap.moments scale).Opposite (e.moments scale).swap ∧
    exchanged.edge = after.edge.swap ∧ exchanged.origin = after.origin.swap ∧
    exchanged.coefficients.horizontal.Opposite after.coefficients.vertical ∧
    exchanged.coefficients.vertical.Opposite after.coefficients.horizontal := by
  intro after exchanged
  have hafter : after = ⟨origin.enter half q, e.enter half q,
      Coefficients.zero.update half q (e.enter half q)⟩ := dispatch_index _ half q
  have hexchanged : exchanged = ⟨(origin.enter half q).swap, (e.enter half q).swap,
      Coefficients.zero.update half q.swap (e.enter half q).swap⟩ := by
    rw [← Origin.enter_swap, ← Edge.enter_swap]
    exact dispatch_index _ half q.swap
  have hproject := ((e.enter half q).opposite_moments_swap (nodeScale half)).project q.swap
  have hhorizontal := hproject.horizontal
  have hvertical := hproject.vertical
  rw [Moments.horizontal_project_swap] at hhorizontal
  rw [Moments.vertical_project_swap] at hvertical
  rw [hafter, hexchanged]
  exact ⟨e.opposite_moments_swap scale, rfl, rfl, Coefficients.opposite_slot hhorizontal,
    Coefficients.opposite_slot hvertical⟩

end WaveletRaster
