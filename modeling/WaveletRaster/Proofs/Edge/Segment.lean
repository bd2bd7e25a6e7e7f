import Mathlib
import WaveletRaster.Proofs.Job.Problem

/-! Segments and the lists of their control points. A list that makes a segment is the list of its
points, from either end; one that does not is refused for its first point that is not finite, and
for its length only when there is no such point. An outline segment, which nothing checks, is what
its rounded points make if they are finite. -/

namespace WaveletRaster.Segment

structure FirstNonFinite {α : Type} [Arithmetic α] (points : List (Point α)) (index : Nat) :
    Prop where
  not_finite : ∃ p, points[index]? = some p ∧ ¬p.isFinite
  finite_before : ∀ p ∈ points.take index, p.isFinite

section
variable {α : Type} [Arithmetic α] {points : List (Point α)} {s : Segment α} {e : EdgeError}

theorem findIdx?_eq_some_iff {i : Nat} :
    points.findIdx? (!·.isFinite) = some i ↔ FirstNonFinite points i := by
  simp only [List.findIdx?_eq_some_iff_getElem, Bool.not_eq_true', Bool.not_eq_false]
  constructor
  · rintro ⟨hi, hbad, hbefore⟩
    refine ⟨⟨points[i], List.getElem?_eq_getElem hi, by simpa using hbad⟩, fun p hp => ?_⟩
    obtain ⟨j, hj, rfl⟩ := List.mem_take_iff_getElem.mp hp
    exact hbefore j (lt_of_lt_of_le hj (min_le_left ..))
  · rintro ⟨⟨p, hp, hbad⟩, hbefore⟩
    obtain ⟨hi, rfl⟩ := List.getElem?_eq_some_iff.mp hp
    refine ⟨hi, by simpa using hbad, fun j hj => hbefore _ ?_⟩
    exact List.mem_take_iff_getElem.mpr ⟨j, by omega, rfl⟩

theorem exists_ofPoints_iff : (∃ s, ofPoints points = .ok s) ↔
    (∀ p ∈ points, p.isFinite) ∧ points.length ∈ [2, 3, 4] := by
  rw [← exists_points_eq_iff, ← exists_and_left]
  exact exists_congr fun s => ofPoints_eq_ok_iff

theorem ofPoints_of_firstNonFinite {i : Nat} (h : FirstNonFinite points i) :
    ofPoints points = .error (.nonFiniteCoordinate i) := by
  rw [ofPoints, findIdx?_eq_some_iff.mpr h]

theorem ofPoints_of_length_notMem (hfinite : ∀ p ∈ points, p.isFinite)
    (hlength : points.length ∉ [2, 3, 4]) :
    ofPoints points = .error (.unsupportedDegree points.length) := by
  cases hs : ofPoints points with
  | ok s => exact absurd (exists_ofPoints_iff.mp ⟨s, hs⟩).2 hlength
  | error e =>
    rcases of_ofPoints_eq_error hs with ⟨i, p, hp, hbad, -⟩ | ⟨-, -, rfl⟩
    · exact absurd (hfinite p (List.mem_of_getElem? hp)) hbad
    · rfl

theorem ofPoints_eq_error_iff : ofPoints points = .error e ↔
    (∃ i, FirstNonFinite points i ∧ e = .nonFiniteCoordinate i) ∨
    (∀ p ∈ points, p.isFinite) ∧ points.length ∉ [2, 3, 4] ∧
      e = .unsupportedDegree points.length := by
  constructor
  · intro h
    rcases of_ofPoints_eq_error h with ⟨i, p, hp, hbad, hleast, rfl⟩ | hcount
    · refine .inl ⟨i, ⟨⟨p, hp, hbad⟩, fun p' hp' => ?_⟩, rfl⟩
      obtain ⟨j, hj, rfl⟩ := List.mem_take_iff_getElem.mp hp'
      by_contra hbad'
      have hle := hleast j _ (List.getElem?_eq_getElem (by omega)) hbad'
      omega
    · exact .inr hcount
  · rintro (⟨i, hi, rfl⟩ | ⟨hfinite, hlength, rfl⟩)
    · exact ofPoints_of_firstNonFinite hi
    · exact ofPoints_of_length_notMem hfinite hlength

theorem exists_firstNonFinite (h : ¬∀ p ∈ points, p.isFinite) : ∃ i, FirstNonFinite points i := by
  cases hs : ofPoints points with
  | ok s => exact absurd (ofPoints_eq_ok_iff.mp hs).1 h
  | error e =>
    rcases ofPoints_eq_error_iff.mp hs with ⟨i, hi, -⟩ | ⟨hfinite, -⟩
    · exact ⟨i, hi⟩
    · exact absurd hfinite h

theorem ofPoints_points (h : ∀ p ∈ s.points, p.isFinite) : ofPoints s.points = .ok s :=
  ofPoints_eq_ok_iff.mpr ⟨h, rfl⟩

omit [Arithmetic α] in
theorem points_reversed (s : Segment α) : s.reversed.points = s.points.reverse :=
  s.edge.points_reversed

theorem ofPoints_reversed (h : ∀ p ∈ s.points, p.isFinite) :
    ofPoints s.reversed.points = .ok s.reversed :=
  ofPoints_points fun p hp => h p (List.mem_reverse.mp (s.points_reversed ▸ hp))

omit [Arithmetic α] in
theorem reversed_reversed (s : Segment α) : s.reversed.reversed = s := by
  rw [reversed, reversed, Edge.reversed_reversed]

structure Describes {α : Type} (s : Segment α) (points : List (Point α)) : Prop where
  points_eq : s.points = points
  head? : points.head? = some s.first
  getLast? : points.getLast? = some s.last
  pointCount : points.length = s.pointCount
  degree : points.length = s.degree.value + 1

omit [Arithmetic α] in
theorem describes_points (s : Segment α) : s.Describes s.points := by
  obtain ⟨d, e⟩ := s
  cases e <;> exact ⟨rfl, rfl, rfl, rfl, rfl⟩

end

section
variable {S W : Type} [Arithmetic S] [Arithmetic W] [Precision S W]

theorem points_narrow (curve : Segment W) :
    (curve.narrow : Segment S).points = curve.points.map Point.narrow :=
  curve.edge.points_map _

end

theorem segments_are_their_points :
    (∀ points : List (Point Binary32),
      ((∃ s, ofPoints points = .ok s) ↔
        (∀ p ∈ points, p.isFinite) ∧ points.length ∈ [2, 3, 4]) ∧
      (∀ s, ofPoints points = .ok s → s.Describes points ∧ ofPoints s.points = .ok s ∧
        s.reversed.points = points.reverse ∧ ofPoints s.reversed.points = .ok s.reversed) ∧
      ∀ e, ofPoints points = .error e ↔
        (∃ i, FirstNonFinite points i ∧ e = .nonFiniteCoordinate i) ∨
        (∀ p ∈ points, p.isFinite) ∧ points.length ∉ [2, 3, 4] ∧
          e = .unsupportedDegree points.length) ∧
    (∀ s : Segment Binary32, s.reversed.reversed = s) ∧
    ∀ curve : Segment Binary64,
      let points : List (Point Binary32) := curve.points.map Point.narrow
      ((∀ p ∈ points, p.isFinite) → ofPoints points = .ok curve.narrow) ∧
      ((¬∀ p ∈ points, p.isFinite) →
        ∃ i, FirstNonFinite points i ∧ ofPoints points = .error (.nonFiniteCoordinate i)) := by
  refine ⟨fun points => ⟨exists_ofPoints_iff, fun s hs => ?_, fun e => ofPoints_eq_error_iff⟩,
    reversed_reversed, fun curve => ?_⟩
  · obtain ⟨hfinite, rfl⟩ := ofPoints_eq_ok_iff.mp hs
    exact ⟨s.describes_points, hs, s.points_reversed, ofPoints_reversed hfinite⟩
  · intro points
    constructor
    · intro hfinite
      exact ofPoints_eq_ok_iff.mpr ⟨hfinite, curve.points_narrow⟩
    · intro hbad
      obtain ⟨i, hi⟩ := exists_firstNonFinite hbad
      exact ⟨i, hi, ofPoints_of_firstNonFinite hi⟩

theorem segments_are_their_points_overflowing :
    let p (n : Nat) : Point Binary32 := ⟨.ofNat n, .ofNat (n * n)⟩
    let curve (n : Nat) : Segment Binary64 :=
      quad ⟨.ofNat 1, .ofNat 2⟩ ⟨.ofNat n, .ofNat 3⟩ ⟨.ofNat 4, .ofNat n⟩
    let rounded (n : Nat) : List (Point Binary32) := (curve n).points.map Point.narrow
    (quad (p 1) (p 2) (p 3)).Describes [p 1, p 2, p 3] ∧
    ofPoints [p 3, p 2, p 1] = .ok (quad (p 3) (p 2) (p 1)) ∧
    FirstNonFinite [p 1, p 2, ⟨.nan, .zero true⟩, p 4, ⟨.infinity true, .nan⟩] 2 ∧
    ofPoints (rounded (2 ^ 24 + 1)) = .ok (curve (2 ^ 24 + 1)).narrow ∧
    ∃ i, FirstNonFinite (rounded (2 ^ 128)) i ∧
      ofPoints (rounded (2 ^ 128)) = .error (.nonFiniteCoordinate i) := by
  intro p curve rounded
  obtain ⟨hlists, -, hcurves⟩ := segments_are_their_points
  obtain ⟨-, hok, -⟩ := hlists [p 1, p 2, p 3]
  obtain ⟨hdescribes, -, -, hreversed⟩ := hok (quad (p 1) (p 2) (p 3)) (by decide +kernel)
  obtain ⟨-, -, herror⟩ := hlists [p 1, p 2, ⟨.nan, .zero true⟩, p 4, ⟨.infinity true, .nan⟩]
  obtain ⟨i, hi, heq⟩ | ⟨-, -, ⟨⟩⟩ := (herror (.nonFiniteCoordinate 2)).mp (by decide +kernel)
  obtain rfl := EdgeError.nonFiniteCoordinate.inj heq
  exact ⟨hdescribes, hreversed, hi, (hcurves (curve (2 ^ 24 + 1))).1 (by decide +kernel),
    (hcurves (curve (2 ^ 128))).2 (by decide +kernel)⟩

end WaveletRaster.Segment
