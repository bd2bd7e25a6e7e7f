import Mathlib
import WaveletRaster.Proofs.Exact.Descent

/-! Edges on the lines of a node. The tent has its ridge over the midline and vanishes over the
border, so that an edge on the midline contributes the same on either side of it and an edge on the
border contributes nothing. -/

namespace WaveletRaster

/-- The height of the tent over a line across its axis. -/
def tentHeight (behind : Bool) (half : UInt32) (w : ℚ) : ℚ :=
  half.toNat * (1 - sideSign behind) + sideSign behind * w

def border (behind : Bool) (half : UInt32) : ℚ := if behind then 2 * half.toNat else 0

theorem tentHeight_midline (behind : Bool) (half : UInt32) :
    tentHeight behind half half.toNat = half.toNat := by
  rw [tentHeight]
  ring

theorem tentHeight_border (behind : Bool) (half : UInt32) :
    tentHeight behind half (border behind half) = 0 := by
  cases behind with
  | false => simp [tentHeight, border, sideSign]
  | true =>
    norm_num [tentHeight, border, sideSign]
    ring

theorem Coefficients.accumulate_zero (c : Coefficients ℚ) : c.accumulate ⟨0, 0, 0⟩ = c := by
  simp [accumulate_rat, zipWith]

namespace Edge
variable {d : Degree} {e : Edge ℚ d} {w : ℚ}

theorem apply_last_sub_first {axis : Point ℚ → ℚ} (h : ∀ p ∈ e.points, axis p = w) :
    axis e.last - axis e.first = 0 := by
  rw [h _ e.first_mem_points, h _ e.last_mem_points, sub_self]

theorem contribution_of_x_eq (h : ∀ p ∈ e.points, p.x = w) (half : UInt32) (q : Quadrant) :
    let a := nodeScale half ^ 2 / 4 * (tentHeight q.isRight half w * (e.last.y - e.first.y))
    e.contribution half q = ⟨a, 0, q.signY * a⟩ := by
  intro a
  have hhorizontal : (e.contribution half q).horizontal = a := by
    rw [horizontal_contribution, along_of_const_left h, Quadrant.signX]
    simp only [a, tentHeight]
    ring
  have hvertical : (e.contribution half q).vertical = 0 := by
    rw [vertical_contribution, along_of_const_right h, apply_last_sub_first h]
    ring
  rw [contribution_eq, hhorizontal, hvertical]

theorem contribution_of_y_eq (h : ∀ p ∈ e.points, p.y = w) (half : UInt32) (q : Quadrant) :
    let b := nodeScale half ^ 2 / 4 * (tentHeight q.isBottom half w * (e.last.x - e.first.x))
    e.contribution half q = ⟨0, -b, 0⟩ := by
  intro b
  have hhorizontal : (e.contribution half q).horizontal = 0 := by
    rw [horizontal_contribution, along_of_const_right h, apply_last_sub_first h]
    ring
  have hvertical : (e.contribution half q).vertical = -b := by
    rw [vertical_contribution, along_of_const_left h, Quadrant.signY]
    simp only [b, tentHeight]
    ring
  rw [contribution_eq, hhorizontal, hvertical, mul_zero]

end Edge

theorem Descent.no_seam_no_border {d : Degree} (s : Descent ℚ d) (half : UInt32) :
    let after (q : Quadrant) := (s.dispatch half q.index).coefficients
    ((∀ p ∈ s.edge.points, p.x = half.toNat) →
      ∀ q q' : Quadrant, q.isBottom = q'.isBottom → after q = after q') ∧
    ((∀ p ∈ s.edge.points, p.y = half.toNat) →
      ∀ q q' : Quadrant, q.isRight = q'.isRight → after q = after q') ∧
    ∀ q : Quadrant, (∀ p ∈ s.edge.points, p.x = border q.isRight half) ∨
      (∀ p ∈ s.edge.points, p.y = border q.isBottom half) → after q = s.coefficients := by
  intro after
  have hafter (q : Quadrant) : after q = s.coefficients.accumulate (s.edge.contribution half q) :=
    s.coefficients_dispatch half q
  refine ⟨?_, ?_, ?_⟩
  · intro hx q q' hrow
    rw [hafter, hafter, Edge.contribution_of_x_eq hx, Edge.contribution_of_x_eq hx,
      tentHeight_midline, tentHeight_midline, Quadrant.signY, Quadrant.signY, hrow]
  · intro hy q q' _
    rw [hafter, hafter, Edge.contribution_of_y_eq hy, Edge.contribution_of_y_eq hy,
      tentHeight_midline, tentHeight_midline]
  · rintro q (hx | hy)
    · rw [hafter, Edge.contribution_of_x_eq hx, tentHeight_border, zero_mul, mul_zero, mul_zero,
        Coefficients.accumulate_zero]
    · rw [hafter, Edge.contribution_of_y_eq hy, tentHeight_border, zero_mul, mul_zero, neg_zero,
        Coefficients.accumulate_zero]

theorem Descent.no_seam_no_border_half_three :
    let c : Coefficients ℚ := ⟨1, 2, 3⟩
    let upright : Descent ℚ .cubic := ⟨⟨0, 0⟩, .cubic ⟨3, 1⟩ ⟨3, 9⟩ ⟨3, -2⟩ ⟨3, 4⟩, c⟩
    let level : Descent ℚ .linear := ⟨⟨0, 0⟩, .line ⟨1, 3⟩ ⟨7, 3⟩, c⟩
    let right : Descent ℚ .quadratic := ⟨⟨0, 0⟩, .quad ⟨6, 1⟩ ⟨6, 8⟩ ⟨6, 5⟩, c⟩
    let top : Descent ℚ .cubic := ⟨⟨0, 0⟩, .cubic ⟨1, 0⟩ ⟨4, 0⟩ ⟨-2, 0⟩ ⟨2, 0⟩, c⟩
    (∀ p ∈ upright.edge.points, p.x = 3) ∧
    (upright.dispatch 3 0).coefficients = ⟨5 / 4, 2, 13 / 4⟩ ∧
    (upright.dispatch 3 1).coefficients = ⟨5 / 4, 2, 13 / 4⟩ ∧
    (∀ p ∈ level.edge.points, p.y = 3) ∧
    (level.dispatch 3 1).coefficients = ⟨1, 3 / 2, 3⟩ ∧
    (level.dispatch 3 3).coefficients = ⟨1, 3 / 2, 3⟩ ∧
    (∀ p ∈ right.edge.points, p.x = 6) ∧ (right.dispatch 3 3).coefficients = c ∧
    (∀ p ∈ top.edge.points, p.y = 0) ∧ (top.dispatch 3 0).coefficients = c := by
  intro c upright level right top
  have hupright : ∀ p ∈ upright.edge.points, p.x = 3 := by decide +kernel
  have hlevel : ∀ p ∈ level.edge.points, p.y = 3 := by decide +kernel
  have hright : ∀ p ∈ right.edge.points, p.x = 6 := by decide +kernel
  have htop : ∀ p ∈ top.edge.points, p.y = 0 := by decide +kernel
  have hbefore : (upright.dispatch 3 0).coefficients = ⟨5 / 4, 2, 13 / 4⟩ := by decide +kernel
  have habove : (level.dispatch 3 1).coefficients = ⟨1, 3 / 2, 3⟩ := by decide +kernel
  have hbehind := (upright.no_seam_no_border 3).1 hupright .topLeft .topRight rfl
  have hbelow := (level.no_seam_no_border 3).2.1 hlevel .topRight .bottomRight rfl
  have hsix : border true 3 = 6 := by decide +kernel
  have hafter := (right.no_seam_no_border 3).2.2 .bottomRight (.inl (hsix ▸ hright))
  have hsame := (top.no_seam_no_border 3).2.2 .topLeft (.inr htop)
  exact ⟨hupright, hbefore, hbehind.symm.trans hbefore, hlevel, habove, hbelow.symm.trans habove,
    hright, hafter, htop, hsame⟩

end WaveletRaster
