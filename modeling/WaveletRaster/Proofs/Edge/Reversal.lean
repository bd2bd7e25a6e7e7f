import Mathlib
import WaveletRaster.Descent
import WaveletRaster.Proofs.Binary.Opposite

/-! Lines and quadratics walked backwards, in binary arithmetic. Reversal turns every difference
around and exchanges the terms of every sum, neither of which rounding can tell. A cubic adds three
of its areas one after the other, in an order that reversal changes. Opposite moments are projected
to opposite contributions, which bring zero coefficients to opposite values. -/

namespace WaveletRaster
open Arithmetic (ofNat ratio)
open Binary (Format)
variable {f : Format}

structure Moments.Opposite (m n : Moments (Binary f)) : Prop where
  kx : m.kx.Opposite n.kx
  ky : m.ky.Opposite n.ky
  lx : m.lx.Opposite n.lx
  ly : m.ly.Opposite n.ly

structure Coefficients.Opposite (c d : Coefficients (Binary f)) : Prop where
  horizontal : c.horizontal.Opposite d.horizontal
  vertical : c.vertical.Opposite d.vertical
  diagonal : c.diagonal.Opposite d.diagonal

theorem Moments.Opposite.project {m n : Moments (Binary f)} (h : m.Opposite n) (q : Quadrant) :
    (m.project q).Opposite (n.project q) := by
  have hx := h.kx.sub h.lx
  have hy := h.ky.sub h.ly
  cases q with
  | topLeft => exact ⟨h.lx, h.ly, h.lx⟩
  | topRight => exact ⟨hx, h.ly, hx⟩
  | bottomLeft => exact ⟨h.lx, hy, h.lx.neg⟩
  | bottomRight => exact ⟨hx, hy, hx.neg⟩

namespace Coefficients

theorem opposite_slot {x y : Binary64} (h : x.Opposite y) :
    let slot : Binary32 := Arithmetic.ofNat 0
    (Precision.narrow (Precision.widen slot + x) : Binary32).Opposite
      (Precision.narrow (Precision.widen slot + y)) := by
  intro slot
  have hslot : slot.Opposite slot := Binary.opposite_ofNat_zero
  exact (hslot.convert.add h).convert

theorem Opposite.accumulate_zero {delta delta' : Coefficients Binary64}
    (h : delta.Opposite delta') :
    ((zero : Coefficients Binary32).accumulate delta).Opposite (zero.accumulate delta') :=
  ⟨opposite_slot h.horizontal, opposite_slot h.vertical, opposite_slot h.diagonal⟩

end Coefficients

theorem Point.opposite_cross (p q : Point (Binary f)) : (q.cross p).Opposite (p.cross q) := by
  have hx : q.x * p.y = p.y * q.x := Binary.mul_comm _ _
  have hy : q.y * p.x = p.x * q.y := Binary.mul_comm _ _
  rw [cross, hx, hy]
  exact Binary.opposite_sub_swap _ _

namespace Moments

theorem opposite_firstOrder (scale : Binary f) (a b : Point (Binary f)) :
    (firstOrder scale b a).1.Opposite (firstOrder scale a b).1 ∧
      (firstOrder scale b a).2.Opposite (firstOrder scale a b).2 :=
  ⟨((Binary.opposite_sub_swap a.y b.y).mul_left _).mul_right scale,
    ((Binary.opposite_sub_swap b.x a.x).mul_left _).mul_right scale⟩

theorem opposite_ofLine (scale : Binary f) (a b : Point (Binary f)) :
    (ofLine scale b a).Opposite (ofLine scale a b) := by
  obtain ⟨hkx, hky⟩ := opposite_firstOrder scale a b
  have hx : b.x + a.x = a.x + b.x := Binary.add_comm _ _
  have hy : b.y + a.y = a.y + b.y := Binary.add_comm _ _
  refine ⟨hkx, hky, ?_, ?_⟩
  · rw [ofLine, hx]
    exact ((hkx.mul_left _).mul_right _).mul_right _
  · rw [ofLine, hy]
    exact ((hky.mul_left _).mul_right _).mul_right _

theorem opposite_ofQuad (scale : Binary f) (a b c : Point (Binary f)) :
    (ofQuad scale c b a).Opposite (ofQuad scale a b c) := by
  obtain ⟨hkx, hky⟩ := opposite_firstOrder scale a c
  have hinner : (c.cross b + b.cross a).Opposite (a.cross b + b.cross c) := by
    have hcomm : c.cross b + b.cross a = b.cross a + c.cross b := Binary.add_comm _ _
    rw [hcomm]
    exact (Point.opposite_cross a b).add (Point.opposite_cross b c)
  have hareas := (hinner.mul_left (ofNat 2)).add (Point.opposite_cross a c)
  have hcommon := (hareas.mul_left (ratio 1 24)).mul_right (scale * scale)
  have hcorners : (a.corner - c.corner).Opposite (c.corner - a.corner) :=
    Binary.opposite_sub_swap _ _
  have hdiff := (hcorners.mul_left (ratio 3 24)).mul_right (scale * scale)
  exact ⟨hkx, hky, hcommon.add hdiff, hcommon.sub hdiff⟩

end Moments

namespace Edge
variable {d : Degree}

theorem opposite_moments_reversed (hd : d ≠ .cubic) (e : Edge Binary32 d) (scale : Binary64) :
    (e.reversed.moments scale).Opposite (e.moments scale) := by
  cases e with
  | line a b => exact Moments.opposite_ofLine scale a.widen b.widen
  | quad a b c => exact Moments.opposite_ofQuad scale a.widen b.widen c.widen
  | cubic => exact absurd rfl hd

theorem reversal_without_error (hd : d ≠ .cubic) (e : Edge Binary32 d) (scale : Binary64)
    (origin : Origin) (half : UInt32) (q : Quadrant) :
    let after (e : Edge Binary32 d) : Coefficients Binary32 :=
      (Descent.dispatch ⟨origin, e, .zero⟩ half q.index).coefficients
    (e.reversed.moments scale).Opposite (e.moments scale) ∧
      (after e.reversed).Opposite (after e) := by
  intro after
  have hafter (e : Edge Binary32 d) :
      after e = Coefficients.zero.update half q (e.enter half q) := by
    simp only [after, Descent.dispatch_index]
    rfl
  refine ⟨e.opposite_moments_reversed hd scale, ?_⟩
  rw [hafter, hafter, enter_reversed]
  have hmoments := (e.enter half q).opposite_moments_reversed hd (nodeScale half)
  exact (hmoments.project q).accumulate_zero

theorem reversal_without_error_rounded :
    let tenths (x y : Nat) : Point Binary32 := ⟨.ofDecimal false x (-1), .ofDecimal false y (-1)⟩
    let bent : Edge Binary32 .quadratic := .quad (tenths 1 2) (tenths 15 18) (tenths 17 4)
    let endless : Edge Binary32 .linear := .line ⟨.infinity true, .ofNat 8⟩ (tenths 3 7)
    let scale : Binary64 := Arithmetic.ratio 1 3
    let after {d : Degree} (e : Edge Binary32 d) : Coefficients Binary32 :=
      (Descent.dispatch ⟨⟨5, -7⟩, e, .zero⟩ 3 3).coefficients
    (bent.reversed.moments scale).Opposite (bent.moments scale) ∧
    (after bent.reversed).Opposite (after bent) ∧ (after bent).all (!·.equals (.ofNat 0)) ∧
    (endless.reversed.moments scale).Opposite (endless.moments scale) ∧
    (after endless.reversed).Opposite (after endless) ∧
    (after endless).vertical.isNaN ∧ (after endless.reversed).vertical.isNaN := by
  intro tenths bent endless scale after
  have hbent := reversal_without_error (by decide) bent scale ⟨5, -7⟩ 3 .bottomRight
  have hendless := reversal_without_error (by decide) endless scale ⟨5, -7⟩ 3 .bottomRight
  exact ⟨hbent.1, hbent.2, by decide +kernel, hendless.1, hendless.2, by decide +kernel,
    by decide +kernel⟩

example :
    let p (x y : Nat) : Point Binary32 := ⟨.ofNat x, .ofNat y⟩
    let e := Edge.cubic (p (2 ^ 26) 0) (p 1 (2 ^ 26)) (p 1 3) (p (2 ^ 13) (2 ^ 13))
    ¬ (e.reversed.moments (.ofNat 1)).lx.Opposite (e.moments (.ofNat 1)).lx := by
  decide +kernel

end Edge
end WaveletRaster
