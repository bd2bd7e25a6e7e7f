import Mathlib
import WaveletRaster.Descent
import WaveletRaster.Proofs.Bezier.Subdivision
import WaveletRaster.Proofs.Exact.Moments

/-! One curve at several degrees, in exact arithmetic. The formulas for lines, quadratics and cubics
agree on the curves that they share, and so does what a dispatch leaves behind. -/

namespace WaveletRaster

namespace Edge
variable {d : Degree}

theorem moments_elevate (e : Edge ℚ d) (r : ℚ) : e.elevate.moments r = e.moments r := by
  have hfirst : e.elevate.first = e.first := by cases e <;> rfl
  have hlast : e.elevate.last = e.last := by cases e <;> rfl
  have hxy := e.along_elevate Point.isAffine_x Point.isAffine_y
  have hyx := e.along_elevate Point.isAffine_y Point.isAffine_x
  rw [moments_eq, moments_eq, hfirst, hlast, hxy, hyx]

end Edge

namespace Descent
variable {d : Degree}

def elevate (s : Descent ℚ d) : Descent ℚ d.elevate := ⟨s.origin, s.edge.elevate, s.coefficients⟩

theorem enter_elevate (s : Descent ℚ d) (half : UInt32) (q : Quadrant) :
    s.elevate.enter half q = (s.enter half q).elevate :=
  congrArg (Descent.mk _ · _) (s.edge.elevate_translate _).symm

theorem update_elevate (s : Descent ℚ d) (half : UInt32) (q : Quadrant) :
    s.elevate.update half q = (s.update half q).elevate :=
  congrArg (fun m : Moments ℚ => Descent.mk _ _ (s.coefficients.accumulate (m.project q)))
    (s.edge.moments_elevate _)

theorem dispatch_elevate (s : Descent ℚ d) (half : UInt32) (q : Quadrant) :
    s.elevate.dispatch half q.index = (s.dispatch half q.index).elevate := by
  rw [dispatch_index, dispatch_index, enter_elevate, update_elevate]

end Descent

theorem degree_formulas_agree (r : ℚ) (a b c : Point ℚ) :
    (Edge.quad a (.lerp (1 / 2) a b) b).moments r = (Edge.line a b).moments r ∧
    (Edge.cubic a (.lerp (2 / 3) a b) (.lerp (1 / 3) b c) c).moments r =
      (Edge.quad a b c).moments r ∧
    (Edge.cubic a (.lerp (1 / 3) a b) (.lerp (2 / 3) a b) b).moments r =
      (Edge.line a b).moments r ∧
    ∀ {d : Degree} (s : Descent ℚ d) (half : UInt32) (q : Quadrant),
      s.elevate.dispatch half q.index = (s.dispatch half q.index).elevate := by
  have hquad := (Edge.line a b).moments_elevate r
  have hcubic := (Edge.quad a b c).moments_elevate r
  have htwice := (Edge.line a b).elevate.moments_elevate r
  rw [Edge.elevate_elevate_line] at htwice
  exact ⟨hquad, hcubic, htwice.trans hquad, fun s half q => s.dispatch_elevate half q⟩

end WaveletRaster
