import Mathlib
import WaveletRaster.Descent
import WaveletRaster.Proofs.Binary.Magnitude

/-! Finite edges stay finite. Descent moves a control point by less than half a step at the
overflow, and the moments of finite points lie far below the overflow of the working precision. -/

namespace WaveletRaster
open Arithmetic (ofNat ratio)
open Binary (Format)

def Point.AtMost {f : Format} (p : Point (Binary f)) (k : Nat) : Prop :=
  p.x.AtMost k ∧ p.y.AtMost k

namespace Point

theorem atMost_widen {p : Point Binary32} (hp : p.isFinite) :
    (p.widen : Point Binary64).AtMost 128 := by
  obtain ⟨hx, hy⟩ := Bool.and_eq_true_iff.mp hp
  exact ⟨Binary.atMost_convert hx (by decide) (by decide),
    Binary.atMost_convert hy (by decide) (by decide)⟩

theorem atMost_shift (q : Quadrant) (half : UInt32) :
    (q.shift half : Point Binary32).AtMost 32 := by
  have hbound (n : UInt32) : n.toNat ≤ 2 ^ 32 := n.toNat_lt.le
  exact ⟨(Binary.atMost_ofNat (hbound _) (by decide)).neg,
    (Binary.atMost_ofNat (hbound _) (by decide)).neg⟩

theorem isFinite_translate {p offset : Point Binary32} (hp : p.isFinite) (ho : offset.AtMost 32) :
    (p.translate offset).isFinite := by
  obtain ⟨hx, hy⟩ := Bool.and_eq_true_iff.mp hp
  exact Bool.and_eq_true_iff.mpr
    ⟨Binary.isFinite_add hx ho.1 (by decide), Binary.isFinite_add hy ho.2 (by decide)⟩

theorem atMost_cross {p q : Point Binary64} (hp : p.AtMost 128)
    (hq : q.AtMost 128) : (p.cross q).AtMost 257 :=
  (hp.1.mul hq.2 (by decide)).sub (hp.2.mul hq.1 (by decide)) (by decide)

theorem atMost_corner {p : Point Binary64} (hp : p.AtMost 128) : p.corner.AtMost 256 :=
  hp.1.mul hp.2 (by decide)

end Point

namespace Edge
variable {d : Degree}

theorem isFinite_iff {e : Edge Binary32 d} : e.isFinite ↔ ∀ p ∈ e.points, p.isFinite :=
  List.all_eq_true

theorem isFinite_enter {e : Edge Binary32 d} (h : e.isFinite) (half : UInt32) (q : Quadrant) :
    (e.enter half q).isFinite := by
  rw [isFinite_iff] at h ⊢
  rw [enter, translate, points_map]
  intro p hp
  obtain ⟨p₀, hp₀, rfl⟩ := List.mem_map.mp hp
  exact Point.isFinite_translate (h p₀ hp₀) (Point.atMost_shift q half)

end Edge

theorem atMost_nodeScale {half : UInt32} (h : 0 < half) : (nodeScale half : Binary64).AtMost 0 :=
  Binary.atMost_ratio (by decide) (UInt32.lt_iff_toNat_lt.mp h) (by decide)

namespace Moments

structure AtMost (m : Moments Binary64) (k : Nat) : Prop where
  kx : m.kx.AtMost k
  ky : m.ky.AtMost k
  lx : m.lx.AtMost k
  ly : m.ly.AtMost k

theorem AtMost.isFinite {m : Moments Binary64} {k : Nat} (h : m.AtMost k) :
    ∀ x ∈ m.toList, x.isFinite := by
  simp [toList, h.kx.isFinite, h.ky.isFinite, h.lx.isFinite, h.ly.isFinite]

section
variable {scale : Binary64} {a b c d : Point Binary64}

theorem atMost_firstOrder (hscale : scale.AtMost 0) (ha : a.AtMost 128) (hb : b.AtMost 128) :
    (firstOrder scale a b).1.AtMost 129 ∧ (firstOrder scale a b).2.AtMost 129 := by
  have hquarter : (ratio 1 4 : Binary64).AtMost 0 :=
    Binary.atMost_ratio (by decide) (by decide) (by decide)
  have hdy : (b.y - a.y).AtMost 129 := hb.2.sub ha.2 (by decide)
  have hdx : (a.x - b.x).AtMost 129 := ha.1.sub hb.1 (by decide)
  exact ⟨(hquarter.mul hdy (by decide)).mul hscale (by decide),
    (hquarter.mul hdx (by decide)).mul hscale (by decide)⟩

theorem atMost_weighted (num den : Nat) (hscale : scale.AtMost 0) {x : Binary64} {k : Nat}
    (hx : x.AtMost k) (hnum : num ≤ 2 ^ 4) (hden : 0 < den)
    (hk : 4 + k ≤ Format.double.maxExponent) :
    (ratio num den * x * (scale * scale)).AtMost (4 + k) := by
  have hweight : (ratio num den : Binary64).AtMost 4 := Binary.atMost_ratio hnum hden (by decide)
  exact (hweight.mul hx hk).mul (hscale.mul hscale (by decide)) hk

theorem atMost_ofLine (hscale : scale.AtMost 0) (ha : a.AtMost 128) (hb : b.AtMost 128) :
    (ofLine scale a b).AtMost 270 := by
  obtain ⟨hkx, hky⟩ := atMost_firstOrder hscale ha hb
  have hhalf : (ratio 1 2 : Binary64).AtMost 0 :=
    Binary.atMost_ratio (by decide) (by decide) (by decide)
  have hx : (a.x + b.x).AtMost 129 := ha.1.add hb.1 (by decide)
  have hy : (a.y + b.y).AtMost 129 := ha.2.add hb.2 (by decide)
  have hlx := ((hhalf.mul hkx (by decide)).mul hx (by decide)).mul hscale (by decide)
  have hly := ((hhalf.mul hky (by decide)).mul hy (by decide)).mul hscale (by decide)
  exact ⟨hkx.mono (by decide), hky.mono (by decide), hlx.mono (by decide), hly.mono (by decide)⟩

theorem atMost_ofAreas {first second : Binary64} (hfirst : first.AtMost 129)
    (hsecond : second.AtMost 129) {common diff : Binary64} (hcommon : common.AtMost 269)
    (hdiff : diff.AtMost 269) :
    AtMost ⟨first, second, common + diff, common - diff⟩ 270 :=
  ⟨hfirst.mono (by decide), hsecond.mono (by decide), hcommon.add hdiff (by decide),
    hcommon.sub hdiff (by decide)⟩

theorem atMost_ofQuad (hscale : scale.AtMost 0) (ha : a.AtMost 128) (hb : b.AtMost 128)
    (hc : c.AtMost 128) : (ofQuad scale a b c).AtMost 270 := by
  obtain ⟨hkx, hky⟩ := atMost_firstOrder hscale ha hc
  have hinner : (a.cross b + b.cross c).AtMost 258 :=
    (Point.atMost_cross ha hb).add (Point.atMost_cross hb hc) (by decide)
  have hdouble : (ofNat 2 * (a.cross b + b.cross c) : Binary64).AtMost 259 :=
    (Binary.atMost_ofNat (k := 1) (by decide) (by decide)).mul hinner (by decide)
  have hareas : (ofNat 2 * (a.cross b + b.cross c) + a.cross c : Binary64).AtMost 260 :=
    hdouble.add ((Point.atMost_cross ha hc).mono (by decide)) (by decide)
  have hcorners : (c.corner - a.corner).AtMost 257 :=
    (Point.atMost_corner hc).sub (Point.atMost_corner ha) (by decide)
  have hcommon := atMost_weighted 1 24 hscale hareas (by decide) (by decide) (by decide)
  have hdiff := atMost_weighted 3 24 hscale hcorners (by decide) (by decide) (by decide)
  exact atMost_ofAreas hkx hky (hcommon.mono (by decide)) (hdiff.mono (by decide))

theorem atMost_ofCubic (hscale : scale.AtMost 0) (ha : a.AtMost 128) (hb : b.AtMost 128)
    (hc : c.AtMost 128) (hd : d.AtMost 128) : (ofCubic scale a b c d).AtMost 270 := by
  obtain ⟨hkx, hky⟩ := atMost_firstOrder hscale ha hd
  have hdouble : (ofNat 2 * (c.cross d + a.cross b) : Binary64).AtMost 259 :=
    (Binary.atMost_ofNat (k := 1) (by decide) (by decide)).mul
      ((Point.atMost_cross hc hd).add (Point.atMost_cross ha hb) (by decide)) (by decide)
  have hbc := hdouble.add ((Point.atMost_cross hb hc).mono (by decide)) (by decide)
  have hbd := hbc.add ((Point.atMost_cross hb hd).mono (by decide)) (by decide)
  have hinner := hbd.add ((Point.atMost_cross ha hc).mono (by decide)) (by decide)
  have htriple := (Binary.atMost_ofNat (n := 3) (k := 2) (by decide) (by decide)).mul hinner
    (by decide)
  have hareas := htriple.add ((Point.atMost_cross ha hd).mono (by decide)) (by decide)
  have hcorners : (d.corner - a.corner).AtMost 257 :=
    (Point.atMost_corner hd).sub (Point.atMost_corner ha) (by decide)
  have hcommon := atMost_weighted 1 80 hscale hareas (by decide) (by decide) (by decide)
  have hdiff := atMost_weighted 10 80 hscale hcorners (by decide) (by decide) (by decide)
  exact atMost_ofAreas hkx hky hcommon (hdiff.mono (by decide))

end
end Moments

theorem Edge.atMost_moments {d : Degree} {e : Edge Binary32 d} (he : e.isFinite) {scale : Binary64}
    (hscale : scale.AtMost 0) : (e.moments scale).AtMost 270 := by
  have hpoint : ∀ p ∈ e.points, (p.widen : Point Binary64).AtMost 128 :=
    fun p hp => Point.atMost_widen (isFinite_iff.mp he p hp)
  cases e with
  | line a b =>
    simp only [points, List.forall_mem_cons] at hpoint
    obtain ⟨ha, hb, -⟩ := hpoint
    exact Moments.atMost_ofLine hscale ha hb
  | quad a b c =>
    simp only [points, List.forall_mem_cons] at hpoint
    obtain ⟨ha, hb, hc, -⟩ := hpoint
    exact Moments.atMost_ofQuad hscale ha hb hc
  | cubic a b c d =>
    simp only [points, List.forall_mem_cons] at hpoint
    obtain ⟨ha, hb, hc, hd, -⟩ := hpoint
    exact Moments.atMost_ofCubic hscale ha hb hc hd

end WaveletRaster
