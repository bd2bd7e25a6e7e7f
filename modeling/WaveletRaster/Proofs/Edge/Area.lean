import WaveletRaster.Proofs.Binary.Rounded
import WaveletRaster.Proofs.Edge.Reversal
import WaveletRaster.Proofs.Job.Overflow

/-! Areas between stored points. The products of coordinates fit the working precision, so that an
area is rounded only once, when the products are subtracted, and keeps its sign. Where points
coincide the area is its own opposite, and with it every moment of an edge that is one point. -/

namespace WaveletRaster
open Arithmetic (ofNat ratio)
open Binary (Format)

namespace Point

def HasValue (p : Point Binary32) (v : Point ℚ) : Prop :=
  p.x.toRat? = some v.x ∧ p.y.toRat? = some v.y

theorem exists_hasValue {p : Point Binary32} (hp : p.isFinite) : ∃ v, p.HasValue v := by
  obtain ⟨hx, hy⟩ := Bool.and_eq_true_iff.mp hp
  obtain ⟨x, hx⟩ := Binary.isFinite_iff_toRat?.mp hx
  obtain ⟨y, hy⟩ := Binary.isFinite_iff_toRat?.mp hy
  exact ⟨⟨x, y⟩, hx, hy⟩

theorem toRat?_convert_mul {x y : Binary32} {v w : ℚ} (hx : x.toRat? = some v)
    (hy : y.toRat? = some w) : (x.convert * y.convert : Binary64).toRat? = some (v * w) :=
  Binary.toRat?_convert_mul_convert hx hy (by decide) (by decide) (by decide)

variable {a b : Point Binary32} {v w : Point ℚ}

theorem rounds_determinant (ha : a.HasValue v) (hb : b.HasValue w) :
    (a.determinant b : Binary64).Rounds (v.x * w.y - v.y * w.x) :=
  Binary.rounds_sub (by decide) (toRat?_convert_mul ha.1 hb.2) (toRat?_convert_mul ha.2 hb.1)

theorem isFinite_determinant (ha : a.isFinite) (hb : b.isFinite) :
    (a.determinant b : Binary64).isFinite :=
  (atMost_cross (atMost_widen ha) (atMost_widen hb)).isFinite

theorem exists_int_eq_area (ha : a.HasValue v) (hb : b.HasValue w) :
    ∃ i : ℤ, (v.x * w.y - v.y * w.x) * 2 ^ Format.double.scale = i := by
  obtain ⟨_, _, _, _, hx⟩ := Binary.toRat?_eq_some_iff.mp (toRat?_convert_mul ha.1 hb.2)
  obtain ⟨_, _, _, _, hy⟩ := Binary.toRat?_eq_some_iff.mp (toRat?_convert_mul ha.2 hb.1)
  rw [sub_mul, hx, hy, ← Int.cast_sub]
  exact ⟨_, rfl⟩

theorem exists_sign_determinant_eq (ha : a.isFinite) (hb : b.isFinite) (hv : a.HasValue v)
    (hw : b.HasValue w) : ∃ area, (a.determinant b : Binary64).toRat? = some area ∧
      SignType.sign area = SignType.sign (v.x * w.y - v.y * w.x) := by
  obtain ⟨i, hi⟩ := exists_int_eq_area hv hw
  exact (rounds_determinant hv hw).exists_sign_eq (isFinite_determinant ha hb) hi

end Point

namespace Moments

theorem opposite_ofCubic_self (scale : Binary64) (p : Point Binary64) :
    (ofCubic scale p p p p).Opposite (ofCubic scale p p p p) := by
  obtain ⟨hkx, hky⟩ := opposite_firstOrder scale p p
  have hcross := Point.opposite_cross p p
  have hdouble := (hcross.add hcross).mul_left (ofNat 2)
  have hareas := ((((hdouble.add hcross).add hcross).add hcross).mul_left (ofNat 3)).add hcross
  have hcommon := (hareas.mul_left (ratio 1 80)).mul_right (scale * scale)
  have hcorners : (p.corner - p.corner).Opposite (p.corner - p.corner) :=
    Binary.opposite_sub_swap _ _
  have hdiff := (hcorners.mul_left (ratio 10 80)).mul_right (scale * scale)
  exact ⟨hkx, hky, hcommon.add hdiff, hcommon.sub hdiff⟩

end Moments

namespace Edge
variable {d : Degree} {e : Edge Binary32 d} {p : Point Binary32}

def IsPoint (e : Edge Binary32 d) (p : Point Binary32) : Prop := ∀ a ∈ e.points, a = p

theorem IsPoint.enter (h : e.IsPoint p) (half : UInt32) (q : Quadrant) :
    (e.enter half q).IsPoint (p.translate (q.shift half)) := by
  unfold Edge.enter Edge.translate IsPoint
  rw [points_map, List.forall_mem_map]
  intro a ha
  rw [h a ha]

theorem IsPoint.isFinite (h : e.IsPoint p) (hp : p.isFinite) : e.isFinite := by
  rw [isFinite_iff]
  intro a ha
  rwa [h a ha]

theorem IsPoint.opposite_moments (h : e.IsPoint p) (scale : Binary64) :
    (e.moments scale).Opposite (e.moments scale) := by
  cases e with
  | line a b =>
    simp only [IsPoint, points, List.forall_mem_cons] at h
    obtain ⟨rfl, rfl, -⟩ := h
    exact Moments.opposite_ofLine scale b.widen b.widen
  | quad a b c =>
    simp only [IsPoint, points, List.forall_mem_cons] at h
    obtain ⟨rfl, rfl, rfl, -⟩ := h
    exact Moments.opposite_ofQuad scale c.widen c.widen c.widen
  | cubic a b c d =>
    simp only [IsPoint, points, List.forall_mem_cons] at h
    obtain ⟨rfl, rfl, rfl, rfl, -⟩ := h
    exact Moments.opposite_ofCubic_self scale d.widen

variable {half : UInt32}

theorem IsPoint.exists_moment_eq_zero (h : e.IsPoint p) (hp : p.isFinite) (hhalf : 0 < half) :
    ∀ m ∈ (e.moments (nodeScale half)).toList, ∃ s, m = Binary.zero s := by
  have hopposite := h.opposite_moments (nodeScale half)
  have hbound := atMost_moments (h.isFinite hp) (atMost_nodeScale hhalf)
  simp only [Moments.toList, List.forall_mem_cons]
  exact ⟨hopposite.kx.exists_eq_zero hbound.kx.isFinite,
    hopposite.ky.exists_eq_zero hbound.ky.isFinite, hopposite.lx.exists_eq_zero hbound.lx.isFinite,
    hopposite.ly.exists_eq_zero hbound.ly.isFinite, List.forall_mem_nil _⟩

theorem IsPoint.exists_project_eq_zero (h : e.IsPoint p) (hp : p.isFinite) (hhalf : 0 < half)
    (q : Quadrant) :
    ∀ x ∈ ((e.moments (nodeScale half)).project q).toList, ∃ s, x = Binary.zero s := by
  have hopposite := (h.opposite_moments (nodeScale half)).project q
  have hbound := atMost_moments (h.isFinite hp) (atMost_nodeScale hhalf)
  have hfinite := hbound.isFinite_project (by decide) q
  simp only [Coefficients.toList, List.forall_mem_cons] at hfinite ⊢
  obtain ⟨hh, hv, hd, -⟩ := hfinite
  exact ⟨hopposite.horizontal.exists_eq_zero hh, hopposite.vertical.exists_eq_zero hv,
    hopposite.diagonal.exists_eq_zero hd, List.forall_mem_nil _⟩

end Edge

/-- Of the slots that hold numbers, none is changed by more than the sign of a zero. -/
def Coefficients.IsKept (before after : Coefficients Binary32) : Prop :=
  List.Forall₂ (fun x y => x.isNaN = false → y.equals x) before.toList after.toList

theorem Coefficients.isKept_accumulate (c : Coefficients Binary32) {delta : Coefficients Binary64}
    (hdelta : ∀ x ∈ delta.toList, ∃ s, x = Binary.zero s) : c.IsKept (c.accumulate delta) := by
  have hslot {x : Binary32} {y : Binary64} (hy : ∃ s, y = Binary.zero s) (hx : x.isNaN = false) :
      (Precision.narrow (Precision.widen x + y) : Binary32).equals x := by
    obtain ⟨s, rfl⟩ := hy
    exact Binary.equals_convert_add_zero hx s (by decide) (by decide) (by decide) (by decide)
  simp only [toList, List.forall_mem_cons] at hdelta
  obtain ⟨hh, hv, hd, -⟩ := hdelta
  exact .cons (hslot hh) (.cons (hslot hv) (.cons (hslot hd) .nil))

theorem areas_keep_their_sign :
    (∀ a b : Point Binary32, a.isFinite → b.isFinite →
      ∃ v w : Point ℚ, a.HasValue v ∧ b.HasValue w ∧
        (a.widen.x * b.widen.y : Binary64).toRat? = some (v.x * w.y) ∧
        (a.widen.y * b.widen.x : Binary64).toRat? = some (v.y * w.x) ∧
        (a.determinant b : Binary64).Rounds (v.x * w.y - v.y * w.x) ∧
        (∀ y : Binary64, y.Rounds (v.x * w.y - v.y * w.x) → y.equals (a.determinant b)) ∧
        (∃ area, (a.determinant b : Binary64).toRat? = some area ∧
          SignType.sign area = SignType.sign (v.x * w.y - v.y * w.x)) ∧
        (a.widen.corner : Binary64).toRat? = some (v.x * v.y)) ∧
    ∀ {d : Degree} (e : Edge Binary32 d) (p : Point Binary32) (half : UInt32),
      e.IsPoint p → p.isFinite → 0 < half →
        (∀ m ∈ (e.moments (nodeScale half)).toList, m.equals (.zero false)) ∧
        ∀ (origin : Origin) (c : Coefficients Binary32) (q : Quadrant),
          c.IsKept (Descent.dispatch ⟨origin, e, c⟩ half q.index).coefficients := by
  constructor
  · intro a b ha hb
    obtain ⟨v, hv⟩ := Point.exists_hasValue ha
    obtain ⟨w, hw⟩ := Point.exists_hasValue hb
    have hrounds := Point.rounds_determinant hv hw
    exact ⟨v, w, hv, hw, Point.toRat?_convert_mul hv.1 hw.2, Point.toRat?_convert_mul hv.2 hw.1,
      hrounds, fun y hy => hy.equals hrounds, Point.exists_sign_determinant_eq ha hb hv hw,
      Point.toRat?_convert_mul hv.1 hv.2⟩
  · intro d e p half he hp hhalf
    constructor
    · intro m hm
      obtain ⟨s, rfl⟩ := he.exists_moment_eq_zero hp hhalf m hm
      cases s <;> rfl
    · intro origin c q
      rw [Descent.dispatch_index]
      have hmoved : (p.translate (q.shift half)).isFinite :=
        Point.isFinite_translate hp (Point.atMost_shift q half)
      exact c.isKept_accumulate ((he.enter half q).exists_project_eq_zero hmoved hhalf q)

theorem areas_keep_their_sign_extreme :
    let least : Binary32 := .finite false 1 (by decide)
    let largest : Binary32 := .ofNat (2 ^ 128 - 2 ^ 104)
    let a : Point Binary32 := ⟨least, .zero true⟩
    let b : Point Binary32 := ⟨.zero true, least⟩
    let corner : Point Binary32 := ⟨-largest, largest⟩
    let e : Edge Binary32 .cubic := .cubic corner corner corner corner
    let c : Coefficients Binary32 := ⟨.zero true, least, .infinity true⟩
    (∃ area, (a.determinant b : Binary64).toRat? = some area ∧ SignType.sign area = 1) ∧
    least * least = .zero false ∧
    (∀ m ∈ (e.moments (nodeScale 4294967295)).toList, m.equals (.zero false)) ∧
    c.IsKept (Descent.dispatch ⟨⟨0, 0⟩, e, c⟩ 4294967295 3).coefficients := by
  intro least largest a b corner e c
  obtain ⟨hareas, hpoints⟩ := areas_keep_their_sign
  obtain ⟨v, w, hv, hw, -, -, -, -, ⟨area, harea, hsign⟩, -⟩ :=
    hareas a b (by decide +kernel) (by decide +kernel)
  have hcorner : e.IsPoint corner := by simp [Edge.IsPoint, Edge.points, e]
  obtain ⟨hmoments, hkept⟩ := hpoints e corner 4294967295 hcorner (by decide +kernel) (by decide)
  refine ⟨⟨area, harea, ?_⟩, by decide +kernel, hmoments, hkept ⟨0, 0⟩ c .bottomRight⟩
  have hleast : least.toRat? = some (1 / 2 ^ 149) := by decide +kernel
  have hzero : (Binary.zero true : Binary32).toRat? = some 0 := by decide +kernel
  have hvx : v.x = 1 / 2 ^ 149 := Option.some.inj (hv.1.symm.trans hleast)
  have hvy : v.y = 0 := Option.some.inj (hv.2.symm.trans hzero)
  have hwy : w.y = 1 / 2 ^ 149 := Option.some.inj (hw.2.symm.trans hleast)
  rw [hsign, hvx, hvy, hwy, zero_mul, sub_zero]
  exact sign_pos (by norm_num)

end WaveletRaster
