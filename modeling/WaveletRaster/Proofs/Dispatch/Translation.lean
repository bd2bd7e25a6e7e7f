import WaveletRaster.Descent
import WaveletRaster.Proofs.Binary.Rounded

/-! The move into a quadrant, number by number. A negative zero is added along an axis on which the
frame stays, and this leaves every number as it is, the negative zero included. Along the others the
half-extent is rounded once to a coordinate and the difference once more. -/

namespace WaveletRaster

/-- What the move makes of a coordinate, on an axis along which the frame goes on by `distance` or
stays. Equal numbers have equal bits. -/
inductive MovesBack (distance : Binary32) : Bool → Binary32 → Binary32 → Prop
  | stays (x : Binary32) : MovesBack distance false x x
  | rounded {x : Binary32} {v w : ℚ} (value : x.toRat? = some v) (length : distance.toRat? = some w)
    (once : (x - distance).Rounds (v - w)) : MovesBack distance true x (x - distance)
  | notFinite {x : Binary32} (noValue : x.toRat? = none) : MovesBack distance true x x

namespace Binary
variable {f : Format}

theorem sub_of_toRat?_eq_none {x y : Binary f} (hx : x.toRat? = none) (hy : y.isFinite) :
    x - y = x := by
  cases x with
  | finite s m h => cases hx
  | nan => rfl
  | infinity s =>
    cases y with
    | finite t n h => rfl
    | _ => cases hy

protected theorem sub_eq_add_neg (x y : Binary f) : x - y = x + -y := rfl

theorem isFinite_ofNat_toNat (n : UInt32) : (ofNat n.toNat : Binary32).isFinite :=
  (atMost_ofNat (k := 32) n.toNat_lt.le (by decide)).isFinite

end Binary

theorem Quadrant.shift_eq (q : Quadrant) (half : UInt32) :
    (q.shift half : Point Binary32) =
      ⟨-Binary.ofNat (if q.isRight then half else 0).toNat,
        -Binary.ofNat (if q.isBottom then half else 0).toNat⟩ := rfl

theorem movesBack_add_neg (side : Bool) (half : UInt32) (x : Binary32) :
    MovesBack (.ofNat half.toNat) side x
      (x + -Binary.ofNat (if side then half else 0).toNat) := by
  cases side with
  | false =>
    rw [if_neg (by decide), UInt32.toNat_zero, Binary.add_neg_ofNat_zero]
    exact .stays x
  | true =>
    rw [if_pos rfl]
    have hfinite := Binary.isFinite_ofNat_toNat half
    obtain ⟨w, hw⟩ := Binary.isFinite_iff_toRat?.mp hfinite
    rw [← Binary.sub_eq_add_neg]
    cases hx : x.toRat? with
    | some v => exact .rounded hx hw (Binary.rounds_sub (by decide) hx hw)
    | none =>
      rw [Binary.sub_of_toRat?_eq_none hx hfinite]
      exact .notFinite hx

namespace Edge
variable {d : Degree}

theorem movesBack_enter (e : Edge Binary32 d) (half : UInt32) (q : Quadrant) :
    List.Forall₂ (fun p p' => MovesBack (.ofNat half.toNat) q.isRight p.x p'.x ∧
      MovesBack (.ofNat half.toNat) q.isBottom p.y p'.y) e.points (e.enter half q).points := by
  unfold enter translate
  rw [points_map, List.forall₂_map_right_iff, List.forall₂_same]
  intro p _
  exact ⟨movesBack_add_neg q.isRight half p.x, movesBack_add_neg q.isBottom half p.y⟩

theorem enter_eq_self (e : Edge Binary32 d) {half : UInt32} {q : Quadrant}
    (h : q = .topLeft ∨ half = 0) : e.enter half q = e := by
  have hdistance (side : Bool) (hside : side = false ∨ half = 0) :
      (if side then half else 0) = 0 := by
    rcases hside with rfl | rfl
    · rfl
    · exact ite_self 0
  have hright := hdistance q.isRight (h.imp_left (by rintro rfl; rfl))
  have hbottom := hdistance q.isBottom (h.imp_left (by rintro rfl; rfl))
  apply points_injective
  unfold enter translate
  rw [points_map, Quadrant.shift_eq, hright, hbottom, UInt32.toNat_zero]
  apply List.map_id''
  intro p
  show (⟨p.x + _, p.y + _⟩ : Point Binary32) = p
  rw [Binary.add_neg_ofNat_zero, Binary.add_neg_ofNat_zero]

end Edge

namespace Origin

theorem x_enter (o : Origin) (half : UInt32) (q : Quadrant) :
    (o.enter half q).x = if q.isRight then o.x - half.toInt32 else o.x := by
  show o.x - (if q.isRight then half else 0).toInt32 = _
  split_ifs
  · rfl
  · exact Int32.sub_zero o.x

theorem y_enter (o : Origin) (half : UInt32) (q : Quadrant) :
    (o.enter half q).y = if q.isBottom then o.y - half.toInt32 else o.y := by
  show o.y - (if q.isBottom then half else 0).toInt32 = _
  split_ifs
  · rfl
  · exact Int32.sub_zero o.y

theorem enter_eq_self (o : Origin) {half : UInt32} {q : Quadrant} (h : q = .topLeft ∨ half = 0) :
    o.enter half q = o := by
  have hx := o.x_enter half q
  have hy := o.y_enter half q
  rcases h with rfl | rfl
  · exact congrArg₂ mk hx hy
  · rw [show (0 : UInt32).toInt32 = 0 from rfl, Int32.sub_zero, ite_self] at hx hy
    exact congrArg₂ mk hx hy

end Origin

theorem only_selected_axes_move {d : Degree} (s : Descent Binary32 d) (half : UInt32)
    (q : Quadrant) :
    let distance : Binary32 := .ofNat half.toNat
    distance.Rounds half.toNat ∧ ∀ t ∈ [s.enter half q, s.dispatch half q.index],
      t.origin.x = (if q.isRight then s.origin.x - half.toInt32 else s.origin.x) ∧
      t.origin.y = (if q.isBottom then s.origin.y - half.toInt32 else s.origin.y) ∧
      List.Forall₂ (fun p p' => MovesBack distance q.isRight p.x p'.x ∧
        MovesBack distance q.isBottom p.y p'.y) s.edge.points t.edge.points ∧
      (q = .topLeft ∨ half = 0 → t.origin = s.origin ∧ t.edge = s.edge) := by
  intro distance
  refine ⟨Binary.rounds_ofNat (by decide) half.toNat, ?_⟩
  intro t ht
  obtain ⟨horigin, hedge⟩ : t.origin = s.origin.enter half q ∧ t.edge = s.edge.enter half q := by
    rw [s.dispatch_index] at ht
    simp only [List.mem_cons, List.not_mem_nil, or_false] at ht
    rcases ht with rfl | rfl
    · exact ⟨rfl, rfl⟩
    · exact ⟨rfl, rfl⟩
  rw [horigin, hedge]
  refine ⟨s.origin.x_enter half q, s.origin.y_enter half q, s.edge.movesBack_enter half q, ?_⟩
  intro h
  exact ⟨s.origin.enter_eq_self h, s.edge.enter_eq_self h⟩

theorem only_selected_axes_move_rounded :
    let s : Descent Binary32 .linear :=
      ⟨⟨3, -5⟩, .line ⟨.zero true, .zero true⟩ ⟨.infinity false, .nan⟩, .zero⟩
    let distance : Binary32 := .ofNat 16777217
    let t := s.dispatch 16777217 1
    distance.Rounds 16777217 ∧ distance = .ofNat 16777216 ∧ t.origin.y = -5 ∧
    List.Forall₂ (fun p p' => MovesBack distance true p.x p'.x ∧ MovesBack distance false p.y p'.y)
      s.edge.points t.edge.points ∧
    t.edge = .line ⟨-distance, .zero true⟩ ⟨.infinity false, .nan⟩ ∧
    (s.enter 0 .topRight).origin = s.origin ∧ (s.enter 0 .topRight).edge = s.edge := by
  intro s distance t
  obtain ⟨hrounds, hmoved⟩ := only_selected_axes_move s 16777217 .topRight
  obtain ⟨-, hy, hpoints, -⟩ := hmoved t (List.mem_cons_of_mem _ (List.mem_cons_self ..))
  obtain ⟨-, -, -, hkept⟩ := (only_selected_axes_move s 0 .topRight).2 _ (List.mem_cons_self ..)
  exact ⟨hrounds, by decide +kernel, hy, hpoints, by decide +kernel, hkept (.inr rfl)⟩

end WaveletRaster
