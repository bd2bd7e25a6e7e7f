import Mathlib
import WaveletRaster.Job.Basic
import WaveletRaster.Proofs.Binary.Exact
import WaveletRaster.Proofs.Dispatch.Path

/-! Exact descent. Along an axis that a step moves, points of the half it enters lie between one and
two half-extents, and there the subtraction of the half-extent is not rounded. So points that stay
inside their cells move by whole numbers, in lockstep with the origin. -/

namespace WaveletRaster

def InFurtherHalf (half : UInt32) (x : Binary32) : Prop :=
  ∃ v ∈ x.toRat?, (half.toNat : ℚ) ≤ v ∧ v ≤ 2 * half.toNat

instance (half : UInt32) (x : Binary32) : Decidable (InFurtherHalf half x) :=
  inferInstanceAs (Decidable (∃ v ∈ x.toRat?, (half.toNat : ℚ) ≤ v ∧ v ≤ 2 * half.toNat))

def Step.Contains (t : Step) (p : Point Binary32) : Prop :=
  (t.quadrant.isRight → InFurtherHalf t.half p.x) ∧ (t.quadrant.isBottom → InFurtherHalf t.half p.y)

instance (t : Step) (p : Point Binary32) : Decidable (t.Contains p) :=
  inferInstanceAs (Decidable (_ ∧ _))

theorem Step.toRat?_add {x : Binary32} {side : Quadrant → Bool} {t : Step}
    (hhalf : t.half.toNat ≤ Limits.maxHalf) (hx : side t.quadrant → InFurtherHalf t.half x) :
    (x + -Binary.ofNat (t.distance side).toNat).toRat? =
      x.toRat?.map (· - ((t.distance side).toNat : ℚ)) := by
  by_cases hside : side t.quadrant
  · obtain ⟨v, hv, hle, hge⟩ := hx hside
    rw [distance, if_pos hside, Option.mem_def.mp hv]
    exact Binary.toRat?_add_neg_ofNat hhalf (by decide) hv hle hge
  · rw [distance, if_neg hside, UInt32.toNat_zero, Binary.add_neg_ofNat_zero]
    simp

namespace Edge
variable {d : Degree}

def values (e : Edge Binary32 d) : Edge (Option ℚ) d := e.map (·.map Binary.toRat?)

def moveBack (e : Edge (Option ℚ) d) (dx dy : ℕ) : Edge (Option ℚ) d :=
  e.map fun p => ⟨p.x.map (· - (dx : ℚ)), p.y.map (· - (dy : ℚ))⟩

theorem moveBack_zero (e : Edge (Option ℚ) d) : e.moveBack 0 0 = e := by
  cases e <;> simp [moveBack, map]

theorem moveBack_moveBack (e : Edge (Option ℚ) d) (dx dy dx' dy' : ℕ) :
    (e.moveBack dx dy).moveBack dx' dy' = e.moveBack (dx + dx') (dy + dy') := by
  rw [moveBack, moveBack, moveBack, map_map]
  refine map_congr fun p _ => ?_
  simp [Option.map_map, Function.comp_def, sub_sub]

/-- The edge stays inside the cells along the path: at each level the half-extent is one whose
multiples are exact, and every control point lies where the step leads. -/
def StaysInside : List Step → Edge Binary32 d → Prop
  | [], _ => True
  | t :: path, e =>
    t.half.toNat ≤ Limits.maxHalf ∧ (∀ p ∈ e.points, t.Contains p) ∧ StaysInside path (e.step t)

instance : (path : List Step) → (e : Edge Binary32 d) → Decidable (StaysInside path e)
  | [], _ => .isTrue trivial
  | t :: path, e =>
    have := instDecidableStaysInside path (e.step t)
    inferInstanceAs (Decidable (_ ∧ _ ∧ _))

theorem values_step {e : Edge Binary32 d} {t : Step} (hhalf : t.half.toNat ≤ Limits.maxHalf)
    (he : ∀ p ∈ e.points, t.Contains p) :
    (e.step t).values = e.values.moveBack (t.distance Quadrant.isRight).toNat
      (t.distance Quadrant.isBottom).toNat := by
  rw [step, enter, translate, values, values, moveBack, map_map, map_map]
  refine map_congr fun p hp => ?_
  have hx := Step.toRat?_add hhalf (he p hp).1
  have hy := Step.toRat?_add hhalf (he p hp).2
  exact congrArg₂ Point.mk hx hy

theorem StaysInside.append {e : Edge Binary32 d} {front back : List Step}
    (h : StaysInside (front ++ back) e) : StaysInside back (front.foldl step e) := by
  induction front generalizing e with
  | nil => exact h
  | cons t front ih => exact ih h.2.2

theorem values_foldl_step {e : Edge Binary32 d} {path : List Step} (h : StaysInside path e) :
    (path.foldl step e).values =
      e.values.moveBack (travel Quadrant.isRight path) (travel Quadrant.isBottom path) := by
  induction path generalizing e with
  | nil => exact (moveBack_zero _).symm
  | cons t path ih =>
    obtain ⟨hhalf, he, hrest⟩ := h
    rw [List.foldl_cons, ih hrest, values_step hhalf he, moveBack_moveBack]
    rfl

end Edge

theorem Descent.lockstep {d : Degree} (s : Descent Binary32 d) (path : List Step)
    (h : s.edge.StaysInside path) :
    let last := path.foldl step s
    (∀ front t back, path = front ++ t :: back →
      let before := front.foldl step s
      (before.step t).edge.values = before.edge.values.moveBack
        (t.distance Quadrant.isRight).toNat (t.distance Quadrant.isBottom).toNat) ∧
    last.edge.values =
      s.edge.values.moveBack (travel Quadrant.isRight path) (travel Quadrant.isBottom path) ∧
    last.origin.x.toInt = (s.origin.x.toInt - travel Quadrant.isRight path).bmod (2 ^ 32) ∧
    last.origin.y.toInt = (s.origin.y.toInt - travel Quadrant.isBottom path).bmod (2 ^ 32) := by
  intro last
  have horigin : last.origin = path.foldl Origin.step s.origin := s.origin_foldl_step path
  have hedge : last.edge = path.foldl Edge.step s.edge := s.edge_foldl_step path
  refine ⟨?_, ?_, ?_, ?_⟩
  · rintro front t back rfl before
    have hbefore : before.edge = front.foldl Edge.step s.edge := s.edge_foldl_step front
    have hinside : before.edge.StaysInside (t :: back) := hbefore ▸ h.append
    obtain ⟨hhalf, hcontains, -⟩ := hinside
    rw [before.step_eq]
    exact Edge.values_step hhalf hcontains
  · rw [hedge]
    exact Edge.values_foldl_step h
  · rw [horigin, Origin.toInt_x_foldl_step]
  · rw [horigin, Origin.toInt_y_foldl_step]

def unevenPath : List Step := [⟨16777216, .bottomRight⟩, ⟨3, .topRight⟩, ⟨2, .bottomLeft⟩]

theorem Descent.lockstep_uneven :
    let p (x y : Nat) : Point Binary32 := ⟨.ofNat x, .ofNat y⟩
    let s : Descent Binary32 .linear :=
      ⟨⟨5, -2147483648⟩, .line (p 16777222 16777220) (p 16777220 16777218), .zero⟩
    let last := unevenPath.foldl step s
    s.edge.StaysInside unevenPath ∧ last.edge.values = .line ⟨some 3, some 2⟩ ⟨some 1, some 0⟩ ∧
      last.origin.x.toInt = -16777214 ∧ last.origin.y.toInt = 2130706430 := by
  intro p s last
  have hinside : s.edge.StaysInside unevenPath := by decide +kernel
  obtain ⟨-, hedge, hx, hy⟩ := s.lockstep unevenPath hinside
  exact ⟨hinside, hedge.trans (by decide +kernel), hx.trans (by decide), hy.trans (by decide)⟩

end WaveletRaster
