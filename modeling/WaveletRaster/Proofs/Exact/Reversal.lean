import Mathlib
import WaveletRaster.Proofs.Bezier.Subdivision
import WaveletRaster.Proofs.Exact.Descent

/-! Edges walked backwards, in exact arithmetic. What an edge contributes changes its sign; its
control points and its origin go the same way down the tree. -/

namespace WaveletRaster

namespace Moments

theorem neg_eq (m : Moments ℚ) : -m = ⟨-m.kx, -m.ky, -m.lx, -m.ly⟩ := rfl

theorem project_neg (m : Moments ℚ) (q : Quadrant) : (-m).project q = (m.project q).map (-·) := by
  rw [project_eq, project_eq, neg_eq, Coefficients.map]
  congr 1 <;> ring

end Moments

namespace Edge
variable {d : Degree}

theorem moments_reversed (e : Edge ℚ d) (r : ℚ) : e.reversed.moments r = -e.moments r := by
  rw [moments_eq, moments_eq, first_reversed, last_reversed, along_reversed, along_reversed,
    Moments.neg_eq]
  congr 1 <;> ring

theorem contribution_reversed (e : Edge ℚ d) (half : UInt32) (q : Quadrant) :
    e.reversed.contribution half q = (e.contribution half q).map (-·) := by
  rw [contribution, contribution, enter_reversed, moments_reversed, Moments.project_neg]

end Edge

namespace Descent
variable {d : Degree}

def reversed {S : Type} (s : Descent S d) : Descent S d :=
  ⟨s.origin, s.edge.reversed, s.coefficients⟩

theorem walking_back_negates (s : Descent ℚ d) (half : UInt32) (q : Quadrant) :
    let forth := s.dispatch half q.index
    let back := s.reversed.dispatch half q.index
    (∀ r, s.edge.reversed.moments r = -s.edge.moments r) ∧
    back.origin = forth.origin ∧ back.edge = forth.edge.reversed ∧
    back.coefficients.zipWith (· - ·) s.coefficients =
      (forth.coefficients.zipWith (· - ·) s.coefficients).map (-·) ∧
    (dispatch { s.reversed with coefficients := forth.coefficients } half q.index).coefficients =
      s.coefficients := by
  intro forth back
  set delta := s.edge.contribution half q with hdelta
  have hforth : forth.coefficients = s.coefficients.accumulate delta :=
    s.coefficients_dispatch half q
  have hback (c : Coefficients ℚ) :
      (dispatch { s.reversed with coefficients := c } half q.index).coefficients =
        c.accumulate (delta.map (-·)) := by
    rw [coefficients_dispatch, hdelta, ← Edge.contribution_reversed]
    rfl
  refine ⟨s.edge.moments_reversed, ?_, ?_, ?_, ?_⟩
  · simp only [forth, back, dispatch_index]
    rfl
  · simp only [forth, back, dispatch_index]
    exact s.edge.enter_reversed half q
  · have hsame : back.coefficients = s.coefficients.accumulate (delta.map (-·)) :=
      hback s.coefficients
    rw [hsame, hforth]
    simp [Coefficients.accumulate_rat, Coefficients.zipWith, Coefficients.map]
  · rw [hback, hforth]
    simp [Coefficients.accumulate_rat, Coefficients.zipWith, Coefficients.map]

end Descent
end WaveletRaster
