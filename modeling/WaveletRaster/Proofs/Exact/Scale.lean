import Mathlib
import WaveletRaster.Proofs.Dispatch.Path
import WaveletRaster.Proofs.Exact.Descent

/-! Scale, in exact arithmetic. First-order moments are linear in the scale and second-order moments
quadratic. So the same picture on a finer grid has the same coefficients, and its points and origins
move further in the same proportion. -/

namespace WaveletRaster
open Polynomial

def Point.magnify (c : ℚ) (p : Point ℚ) : Point ℚ := ⟨c * p.x, c * p.y⟩

theorem Point.translate_magnify (c : ℚ) (p w : Point ℚ) :
    (p.magnify c).translate (w.magnify c) = (p.translate w).magnify c :=
  congrArg₂ Point.mk (mul_add c p.x w.x).symm (mul_add c p.y w.y).symm

namespace Quadrant
variable {c : ℕ} {half fine : UInt32}

theorem toNat_offset (q : Quadrant) (h : fine.toNat = c * half.toNat) :
    (q.offset fine).1.toNat = c * (q.offset half).1.toNat ∧
      (q.offset fine).2.toNat = c * (q.offset half).2.toNat := by
  cases q <;> simp [offset, isRight, isBottom, h]

theorem shift_magnify (q : Quadrant) (h : fine.toNat = c * half.toNat) :
    (q.shift fine : Point ℚ) = (q.shift half).magnify c := by
  obtain ⟨hx, hy⟩ := q.toNat_offset h
  simp only [shift, Point.magnify, hx, hy, ofNat_rat, Nat.cast_mul, mul_neg]

end Quadrant

namespace Origin

theorem modEq_sub_toInt32 (x : Int32) (n : UInt32) :
    (x - n.toInt32).toInt - x.toInt ≡ -n.toNat [ZMOD 2 ^ 32] := by
  have hwrap : (x - n.toInt32).toInt ≡ x.toInt - n.toNat [ZMOD 2 ^ 32] := by
    rw [toInt_sub_toInt32]
    exact Int.bmod_emod
  simpa using hwrap.sub_right x.toInt

theorem modEq_sub_magnify (x x' : Int32) {c : ℕ} {m n : UInt32} (h : n.toNat = c * m.toNat) :
    (x' - n.toInt32).toInt - x'.toInt ≡ c * ((x - m.toInt32).toInt - x.toInt) [ZMOD 2 ^ 32] := by
  have hcoarse := (modEq_sub_toInt32 x m).symm.mul_left c
  have hfine := modEq_sub_toInt32 x' n
  rw [h, Nat.cast_mul, ← mul_neg] at hfine
  exact hfine.trans hcoarse

end Origin

namespace Edge
variable {d : Degree}

def magnify (c : ℚ) (e : Edge ℚ d) : Edge ℚ d := e.map (Point.magnify c)

theorem coordinate_magnify (e : Edge ℚ d) (c : ℚ) {axis : Point ℚ → ℚ}
    (haxis : ∀ p : Point ℚ, axis (p.magnify c) = c * axis p) :
    (e.magnify c).coordinate axis = C c * e.coordinate axis := by
  rw [coordinate, coordinate, ← bezier_mul]
  refine bezier_congr fun i hi => ?_
  have hlength : i < e.points.length := by
    rw [length_points, Degree.pointCount]
    omega
  simp [control, magnify, points_map, hlength, haxis]

theorem along_magnify (e : Edge ℚ d) (c : ℚ) {u v : Point ℚ → ℚ}
    (hu : ∀ p : Point ℚ, u (p.magnify c) = c * u p)
    (hv : ∀ p : Point ℚ, v (p.magnify c) = c * v p) :
    (e.magnify c).along u v = c ^ 2 * e.along u v := by
  rw [along, along, coordinate_magnify e c hu, coordinate_magnify e c hv, derivative_C_mul,
    mul_mul_mul_comm, ← C_mul, unitIntegral_C_mul, sq]

theorem moments_magnify (e : Edge ℚ d) (c r : ℚ) :
    (e.magnify c).moments r = e.moments (c * r) := by
  have hfirst : (e.magnify c).first = e.first.magnify c := by cases e <;> rfl
  have hlast : (e.magnify c).last = e.last.magnify c := by cases e <;> rfl
  have hxy := e.along_magnify c (u := Point.x) (v := Point.y) (fun _ => rfl) fun _ => rfl
  have hyx := e.along_magnify c (u := Point.y) (v := Point.x) (fun _ => rfl) fun _ => rfl
  rw [moments_eq, moments_eq, hfirst, hlast, hxy, hyx, Point.magnify, Point.magnify]
  congr 1 <;> ring

theorem enter_magnify (e : Edge ℚ d) {c : ℕ} {half fine : UInt32}
    (h : fine.toNat = c * half.toNat) (q : Quadrant) :
    (e.magnify c).enter fine q = (e.enter half q).magnify c := by
  rw [enter, enter, translate, translate, magnify, magnify, map_map, map_map, q.shift_magnify h]
  exact map_congr fun p _ => p.translate_magnify c _

theorem contribution_magnify (e : Edge ℚ d) {c : ℕ} (hc : 0 < c) {half fine : UInt32}
    (h : fine.toNat = c * half.toNat) (q : Quadrant) :
    (e.magnify c).contribution fine q = e.contribution half q := by
  have hne : (c : ℚ) ≠ 0 := Nat.cast_ne_zero.mpr hc.ne'
  have hscale : (c : ℚ) * nodeScale fine = nodeScale half := by
    rw [nodeScale_rat, nodeScale_rat, h, Nat.cast_mul, mul_one_div, div_mul_cancel_left₀ hne,
      one_div]
  rw [contribution, contribution, enter_magnify e h, moments_magnify, hscale]

theorem scale_laws (e : Edge ℚ d) :
    (∀ r, let m := e.moments 1
      e.moments r = ⟨r * m.kx, r * m.ky, r ^ 2 * m.lx, r ^ 2 * m.ly⟩) ∧
    ∀ (half : UInt32) (c : ℕ) (q : Quadrant) (o o' : Origin) (k k' : Coefficients ℚ),
      0 < half → 0 < c → c * half.toNat < 2 ^ 32 →
      let coarse := Descent.dispatch ⟨o, e, k⟩ half q.index
      let fine := Descent.dispatch ⟨o', e.magnify c, k'⟩ (.ofNat (c * half.toNat)) q.index
      fine.coefficients.zipWith (· - ·) k' = coarse.coefficients.zipWith (· - ·) k ∧
      fine.edge = coarse.edge.magnify c ∧
      fine.origin.x.toInt - o'.x.toInt ≡ c * (coarse.origin.x.toInt - o.x.toInt) [ZMOD 2 ^ 32] ∧
      fine.origin.y.toInt - o'.y.toInt ≡ c * (coarse.origin.y.toInt - o.y.toInt) [ZMOD 2 ^ 32] := by
  refine ⟨fun r => ?_, fun half c q o o' k k' _ hc hfit => ?_⟩
  · simp only [moments_eq]
    congr 1 <;> ring
  intro coarse fine
  have hhalf : (UInt32.ofNat (c * half.toNat)).toNat = c * half.toNat :=
    UInt32.toNat_ofNat_of_lt' hfit
  have hcoarse : coarse = ⟨o.enter half q, e.enter half q, k.accumulate (e.contribution half q)⟩ :=
    Descent.dispatch_index _ half q
  have hfine : fine = ⟨o'.enter (.ofNat (c * half.toNat)) q, (e.enter half q).magnify c,
      k'.accumulate (e.contribution half q)⟩ := by
    rw [← enter_magnify e hhalf, ← contribution_magnify e hc hhalf]
    exact Descent.dispatch_index _ _ q
  obtain ⟨hx, hy⟩ := q.toNat_offset hhalf
  rw [hcoarse, hfine]
  refine ⟨?_, rfl, Origin.modEq_sub_magnify o.x o'.x hx, Origin.modEq_sub_magnify o.y o'.y hy⟩
  simp [Coefficients.accumulate_rat, Coefficients.zipWith]

theorem scale_laws_fivefold :
    let e : Edge ℚ .quadratic := .quad ⟨5, 1⟩ ⟨4, 7⟩ ⟨3, 4⟩
    let coarse := Descent.dispatch ⟨⟨0, 0⟩, e, ⟨0, 0, 0⟩⟩ 3 Quadrant.bottomRight.index
    let fine := Descent.dispatch ⟨⟨-2147483641, 7⟩, e.magnify (5 : ℕ), ⟨1, 2, 3⟩⟩
      (.ofNat (5 * (3 : UInt32).toNat)) Quadrant.bottomRight.index
    (0 : UInt32) < 3 ∧ 5 * (3 : UInt32).toNat < 2 ^ 32 ∧
    coarse.coefficients = ⟨1 / 12, 1 / 9, -1 / 12⟩ ∧
    fine.coefficients.zipWith (· - ·) ⟨1, 2, 3⟩ = ⟨1 / 12, 1 / 9, -1 / 12⟩ ∧
    fine.edge = .quad ⟨10, -10⟩ ⟨5, 20⟩ ⟨0, 5⟩ ∧
    coarse.origin.x.toInt = -3 ∧ fine.origin.x.toInt = 2147483640 ∧
    fine.origin.x.toInt - -2147483641 ≡ 5 * (coarse.origin.x.toInt - 0) [ZMOD 2 ^ 32] := by
  intro e coarse fine
  have hhalf : (0 : UInt32) < 3 := by decide
  have hfit : 5 * (3 : UInt32).toNat < 2 ^ 32 := by decide
  obtain ⟨hamounts, hedge, hx, -⟩ := e.scale_laws.2 3 5 .bottomRight ⟨0, 0⟩ ⟨-2147483641, 7⟩
    ⟨0, 0, 0⟩ ⟨1, 2, 3⟩ hhalf (by decide) hfit
  have hcoarse : coarse.coefficients = ⟨1 / 12, 1 / 9, -1 / 12⟩ := by decide +kernel
  have hadded : coarse.coefficients.zipWith (· - ·) ⟨0, 0, 0⟩ = ⟨1 / 12, 1 / 9, -1 / 12⟩ := by
    decide +kernel
  have hentered : coarse.edge.magnify (5 : ℕ) = .quad ⟨10, -10⟩ ⟨5, 20⟩ ⟨0, 5⟩ := by
    decide +kernel
  exact ⟨hhalf, hfit, hcoarse, hamounts.trans hadded, hedge.trans hentered, by decide, by decide, hx⟩

end Edge
end WaveletRaster
