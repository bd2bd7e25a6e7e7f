import Mathlib
import WaveletRaster.Proofs.Job.Validation

/-! Problems of a job. Problems of every kind can occur together and at any place; validation names
the one that comes first in the order of the checks, and accepts the job when there is none. -/

namespace WaveletRaster

def EdgeError.rank : EdgeError → ℕ ×ₗ ℕ
  | invalidQuadrant _ => toLex (0, 0)
  | nonFiniteCoordinate point => toLex (1, point)
  | unsupportedDegree _ => toLex (2, 0)
  | invalidHalfExtent _ => toLex (3, 0)

/-- Where the check that finds a problem stands among all checks: identifier, half-extent,
coefficients, number of edges, then the edges one after the other. -/
def ValidationError.rank : ValidationError → ℕ ×ₗ ℕ ×ₗ ℕ ×ₗ ℕ
  | unsupportedVersion _ => toLex (0, ⊥)
  | emptyJobList => toLex (1, ⊥)
  | tooManyJobs _ => toLex (2, ⊥)
  | emptyJobId => toLex (3, ⊥)
  | invalidHalfExtent _ => toLex (4, ⊥)
  | nonFiniteCoefficients => toLex (5, ⊥)
  | tooManyEdges _ => toLex (6, ⊥)
  | edge index source => toLex (7, toLex (index, source.rank))

/-- A problem before which no other comes. -/
structure IsFirst {ε ρ : Type} [LE ρ] (rank : ε → ρ) (HasProblem : ε → Prop) (e : ε) : Prop where
  holds : HasProblem e
  le : ∀ e', HasProblem e' → rank e ≤ rank e'

theorem eq_error_iff_isFirst {ε ρ β : Type} [PartialOrder ρ] {rank : ε → ρ} {HasProblem : ε → Prop}
    {x : Except ε β} (hok : ∀ b, x = .ok b → ∀ e, ¬HasProblem e)
    (herror : ∀ e, x = .error e → IsFirst rank HasProblem e)
    (hinj : ∀ {e e'}, HasProblem e → HasProblem e' → rank e = rank e' → e = e') {e : ε} :
    x = .error e ↔ IsFirst rank HasProblem e := by
  refine ⟨herror e, fun h => ?_⟩
  cases x with
  | ok b => exact absurd h.holds (hok b rfl e)
  | error e' =>
    have h' := herror e' rfl
    have hrank := le_antisymm (h'.le e h.holds) (h.le e' h'.holds)
    exact congrArg Except.error (hinj h'.holds h.holds hrank)

theorem exists_forall₂_iff {β γ : Type} {R : β → γ → Prop} {xs : List β} :
    (∃ ys, List.Forall₂ R xs ys) ↔ ∀ x ∈ xs, ∃ y, R x y := by
  induction xs with
  | nil => simp
  | cons x xs ih =>
    rw [List.forall_mem_cons, ← ih]
    constructor
    · rintro ⟨_, _ | ⟨hx, hxs⟩⟩
      exact ⟨⟨_, hx⟩, _, hxs⟩
    · rintro ⟨⟨y, hy⟩, ys, hys⟩
      exact ⟨y :: ys, .cons hy hys⟩

theorem Segment.exists_points_eq_iff {α : Type} {points : List (Point α)} :
    (∃ s : Segment α, s.points = points) ↔ points.length ∈ [2, 3, 4] := by
  constructor
  · rintro ⟨⟨d, e⟩, rfl⟩
    cases e <;> simp [Segment.points, Edge.points]
  · intro h
    simp only [List.mem_cons, List.not_mem_nil, or_false] at h
    rcases h with h | h | h
    · obtain ⟨a, b, rfl⟩ := List.length_eq_two.mp h
      exact ⟨line a b, rfl⟩
    · obtain ⟨a, b, c, rfl⟩ := List.length_eq_three.mp h
      exact ⟨quad a b c, rfl⟩
    · obtain ⟨a, b, c, d, rfl⟩ := List.length_eq_four.mp h
      exact ⟨cubic a b c d, rfl⟩

variable {α : Type} [Arithmetic α]

theorem Segment.of_ofPoints_eq_error {points : List (Point α)} {e : EdgeError}
    (h : ofPoints points = .error e) :
    (∃ i p, points[i]? = some p ∧ ¬p.isFinite ∧
      (∀ j p', points[j]? = some p' → ¬p'.isFinite → i ≤ j) ∧ e = .nonFiniteCoordinate i) ∨
    (∀ p ∈ points, p.isFinite) ∧ points.length ∉ [2, 3, 4] ∧
      e = .unsupportedDegree points.length := by
  rw [ofPoints] at h
  cases hfind : points.findIdx? (!·.isFinite) with
  | some i =>
    rw [hfind] at h
    cases h
    obtain ⟨hi, hbad, hbefore⟩ := List.findIdx?_eq_some_iff_getElem.mp hfind
    refine .inl ⟨i, points[i], List.getElem?_eq_getElem hi, by simpa using hbad, ?_, rfl⟩
    intro j p' hj hbad'
    obtain ⟨hlength, rfl⟩ := List.getElem?_eq_some_iff.mp hj
    by_contra! hlt
    exact hbefore j hlt (by simpa using hbad')
  | none =>
    have hfinite : ∀ p ∈ points, p.isFinite := by simpa using List.findIdx?_eq_none_iff.mp hfind
    rw [hfind] at h
    cases hs : ofControlPoints? points with
    | some s => simp [hs] at h
    | none =>
      have hlength : points.length ∉ [2, 3, 4] := by
        rw [← exists_points_eq_iff]
        simp [← ofControlPoints?_eq_some_iff, hs]
      simp only [hs, Except.error.injEq] at h
      exact .inr ⟨hfinite, hlength, h.symm⟩

namespace EdgePiece

inductive HasProblem (piece : EdgePiece α) : EdgeError → Prop
  | quadrant (h : 3 < piece.quadrant) : HasProblem piece (.invalidQuadrant piece.quadrant)
  | point {i : Nat} {p : Point α} (hp : piece.points[i]? = some p) (h : ¬p.isFinite) :
    HasProblem piece (.nonFiniteCoordinate i)
  | degree (h : piece.points.length ∉ [2, 3, 4]) :
    HasProblem piece (.unsupportedDegree piece.points.length)

theorem HasProblem.eq_of_rank_eq {piece : EdgePiece α} {e e' : EdgeError} (h : piece.HasProblem e)
    (h' : piece.HasProblem e') (hrank : e.rank = e'.rank) : e = e' := by
  cases h <;> cases h' <;> simp_all [EdgeError.rank]

theorem exists_segment_iff {piece : EdgePiece α} :
    (∃ s, piece.segment = .ok s) ↔ piece.quadrant ≤ 3 ∧ (∀ p ∈ piece.points, p.isFinite) ∧
      piece.points.length ∈ [2, 3, 4] := by
  rw [← Segment.exists_points_eq_iff]
  simp only [Prod.exists, segment_eq_ok_iff]
  constructor
  · rintro ⟨q, s, hq, hfinite, hs⟩
    exact ⟨hq ▸ q.index_le, hfinite, s, hs⟩
  · rintro ⟨hquadrant, hfinite, s, hs⟩
    obtain ⟨q, hq⟩ := Quadrant.exists_index_eq hquadrant
    exact ⟨q, s, hq, hfinite, hs⟩

theorem not_hasProblem {piece : EdgePiece α} {s : Quadrant × Segment α}
    (h : piece.segment = .ok s) (e : EdgeError) : ¬piece.HasProblem e := by
  obtain ⟨hquadrant, hfinite, hlength⟩ := exists_segment_iff.mp ⟨s, h⟩
  intro hproblem
  cases hproblem with
  | quadrant hbad => exact UInt32.not_lt.mpr hquadrant hbad
  | point hp hbad => exact hbad (hfinite _ (List.mem_of_getElem? hp))
  | degree hbad => exact hbad hlength

theorem isFirst_of_segment_eq_error {piece : EdgePiece α} {e : EdgeError}
    (h : piece.segment = .error e) : IsFirst EdgeError.rank piece.HasProblem e := by
  rw [segment, bind_eq_error_iff] at h
  rcases h with h | ⟨q, hq, h⟩
  · rw [Quadrant.ofIndex] at h
    split at h
    · cases h
    · rename_i hnone
      cases h
      refine ⟨.quadrant ((Quadrant.ofIndex?_eq_none_iff _).mp hnone), fun e' h' => ?_⟩
      cases h' <;> simp [EdgeError.rank, Prod.Lex.toLex_le_toLex]
  · have hquadrant : piece.quadrant ≤ 3 := Quadrant.ofIndex_eq_ok_iff.mp hq ▸ q.index_le
    rw [bind_eq_error_iff] at h
    rcases h with h | ⟨_, _, ⟨⟩⟩
    rcases Segment.of_ofPoints_eq_error h with
      ⟨i, p, hp, hbad, hleast, rfl⟩ | ⟨hfinite, hlength, rfl⟩
    · refine ⟨.point hp hbad, fun e' h' => ?_⟩
      cases h' with
      | quadrant hbad' => exact absurd hquadrant (UInt32.not_le.mpr hbad')
      | point hp' hbad' =>
        simpa [EdgeError.rank, Prod.Lex.toLex_le_toLex] using hleast _ _ hp' hbad'
      | degree => simp [EdgeError.rank, Prod.Lex.toLex_le_toLex]
    · refine ⟨.degree hlength, fun e' h' => ?_⟩
      cases h' with
      | quadrant hbad' => exact absurd hquadrant (UInt32.not_le.mpr hbad')
      | point hp' hbad' => exact absurd (hfinite _ (List.mem_of_getElem? hp')) hbad'
      | degree => exact le_rfl

end EdgePiece

theorem exists_of_mapM_segmentAt_eq_error {pieces : List (EdgePiece α)} {start : Nat}
    {e : ValidationError}
    (h : (pieces.zipIdx start).mapM (fun (piece, index) => piece.segmentAt index) = .error e) :
    ∃ i piece source, pieces[i]? = some piece ∧ piece.segment = .error source ∧
      e = .edge (start + i) source ∧
      ∀ j < i, ∀ piece', pieces[j]? = some piece' → ∃ s, piece'.segment = .ok s := by
  induction pieces generalizing start with
  | nil => cases h
  | cons piece pieces ih =>
    rw [List.zipIdx_cons, List.mapM_cons, bind_eq_error_iff] at h
    rcases h with h | ⟨s, hs, h⟩
    · obtain ⟨source, hsource, rfl⟩ := EdgePiece.segmentAt_eq_error_iff.mp h
      exact ⟨0, piece, source, rfl, hsource, rfl, fun j hj => absurd hj (Nat.not_lt_zero j)⟩
    · rw [bind_eq_error_iff] at h
      rcases h with h | ⟨_, _, ⟨⟩⟩
      obtain ⟨i, piece', source, hi, hsource, rfl, hbefore⟩ := ih h
      refine ⟨i + 1, piece', source, hi, hsource, by rw [Nat.add_right_comm, Nat.add_assoc], ?_⟩
      intro j hj
      cases j with
      | zero =>
        rintro _ ⟨⟩
        exact ⟨s, EdgePiece.segmentAt_eq_ok_iff.mp hs⟩
      | succ j => exact hbefore j (Nat.lt_of_succ_lt_succ hj)

namespace Job

inductive HasProblem (job : Job α) : ValidationError → Prop
  | id (h : job.id = "") : HasProblem job .emptyJobId
  | half (h : job.half = 0 ∨ 2 ^ 24 < job.half.toNat) :
    HasProblem job (.invalidHalfExtent job.half)
  | coefficients (h : ∃ c ∈ job.coefficients.toList, ¬Arithmetic.isFinite c) :
    HasProblem job .nonFiniteCoefficients
  | edgeCount (h : 100000 < job.edges.length) : HasProblem job (.tooManyEdges job.edges.length)
  | edge {i : Nat} {piece : EdgePiece α} {e : EdgeError} (hpiece : job.edges[i]? = some piece)
    (h : piece.HasProblem e) : HasProblem job (.edge i e)

theorem HasProblem.eq_of_rank_eq {job : Job α} {e e' : ValidationError} (h : job.HasProblem e)
    (h' : job.HasProblem e') (hrank : e.rank = e'.rank) : e = e' := by
  cases h with
  | edge hpiece h =>
    cases h' with
    | edge hpiece' h' =>
      simp only [ValidationError.rank, EmbeddingLike.apply_eq_iff_eq, Prod.mk.injEq, true_and]
        at hrank
      obtain ⟨rfl, hrank⟩ := hrank
      obtain rfl := Option.some.inj (hpiece.symm.trans hpiece')
      rw [h.eq_of_rank_eq h' hrank]
    | _ => simp [ValidationError.rank] at hrank
  | _ => cases h' <;> simp_all [ValidationError.rank]

theorem exists_segments_iff {job : Job α} :
    (∃ segments, job.segments = .ok segments) ↔ job.id ≠ "" ∧ job.half ≠ 0 ∧
      job.half.toNat ≤ 2 ^ 24 ∧ (∀ c ∈ job.coefficients.toList, Arithmetic.isFinite c) ∧
      job.edges.length ≤ 100000 ∧ ∀ piece ∈ job.edges, piece.quadrant ≤ 3 ∧
        (∀ p ∈ piece.points, p.isFinite) ∧ piece.points.length ∈ [2, 3, 4] := by
  have hedges : (∃ segments, List.Forall₂ (fun piece s => EdgePiece.segment piece = .ok s) job.edges
      segments) ↔ ∀ piece ∈ job.edges, ∃ s, piece.segment = .ok s := exists_forall₂_iff
  simp only [segments_eq_ok_iff, exists_and_left, hedges, EdgePiece.exists_segment_iff,
    validateHeader_eq_ok_iff, Coefficients.all, List.all_eq_true, and_assoc]
  rfl

theorem isFirst_of_validateHeader_eq_error {job : Job α} {e : ValidationError}
    (h : job.validateHeader = .error e) : IsFirst ValidationError.rank job.HasProblem e := by
  unfold validateHeader at h
  split_ifs at h with hid hhalf hcoefficients hcount
  · cases h
    refine ⟨.id (String.isEmpty_iff.mp hid), fun e' h' => ?_⟩
    cases h' <;> simp [ValidationError.rank, Prod.Lex.toLex_le_toLex]
  · cases h
    refine ⟨.half hhalf, fun e' h' => ?_⟩
    cases h' with
    | id h' => exact absurd (String.isEmpty_iff.mpr h') hid
    | _ => simp [ValidationError.rank, Prod.Lex.toLex_le_toLex]
  · cases h
    refine ⟨.coefficients (by simpa [Coefficients.all] using hcoefficients), fun e' h' => ?_⟩
    cases h' with
    | id h' => exact absurd (String.isEmpty_iff.mpr h') hid
    | half h' => exact absurd h' hhalf
    | _ => simp [ValidationError.rank, Prod.Lex.toLex_le_toLex]
  · cases h
    refine ⟨.edgeCount hcount, fun e' h' => ?_⟩
    cases h' with
    | id h' => exact absurd (String.isEmpty_iff.mpr h') hid
    | half h' => exact absurd h' hhalf
    | coefficients h' => exact absurd (by simpa [Coefficients.all] using h') hcoefficients
    | _ => simp [ValidationError.rank, Prod.Lex.toLex_le_toLex]

theorem not_hasProblem {job : Job α} {segments : List (Quadrant × Segment α)}
    (h : job.segments = .ok segments) (e : ValidationError) : ¬job.HasProblem e := by
  obtain ⟨hid, hhalf, hmax, hcoefficients, hcount, -⟩ := exists_segments_iff.mp ⟨segments, h⟩
  have hedges := exists_forall₂_iff.mp ⟨segments, (segments_eq_ok_iff.mp h).2⟩
  intro hproblem
  cases hproblem with
  | id h => exact hid h
  | half h => exact h.elim hhalf hmax.not_gt
  | coefficients h =>
    obtain ⟨c, hc, hbad⟩ := h
    exact hbad (hcoefficients c hc)
  | edgeCount h => exact hcount.not_gt h
  | edge hpiece h =>
    obtain ⟨s, hs⟩ := hedges _ (List.mem_of_getElem? hpiece)
    exact EdgePiece.not_hasProblem hs _ h

theorem isFirst_of_segments_eq_error {job : Job α} {e : ValidationError}
    (h : job.segments = .error e) : IsFirst ValidationError.rank job.HasProblem e := by
  rw [Job.segments, bind_eq_error_iff] at h
  rcases h with h | ⟨_, hheader, h⟩
  · exact isFirst_of_validateHeader_eq_error h
  · obtain ⟨i, piece, source, hi, hsource, rfl, hbefore⟩ := exists_of_mapM_segmentAt_eq_error h
    rw [Nat.zero_add]
    have hfirst := EdgePiece.isFirst_of_segment_eq_error hsource
    refine ⟨.edge hi hfirst.holds, fun e' h' => ?_⟩
    obtain ⟨hid, hhalf, hmax, hcoefficients, hcount⟩ := validateHeader_eq_ok_iff.mp hheader
    cases h' with
    | id h' => exact absurd h' hid
    | half h' => exact absurd h' (not_or.mpr ⟨hhalf, hmax.not_gt⟩)
    | coefficients h' =>
      exact absurd (by simpa [Coefficients.all] using h') (not_not.mpr hcoefficients)
    | edgeCount h' => exact absurd h' hcount.not_gt
    | @edge j piece' source' hj h' =>
      simp only [ValidationError.rank, Prod.Lex.toLex_le_toLex, lt_irrefl, true_and, false_or]
      rcases lt_trichotomy i j with hlt | rfl | hgt
      · exact .inl hlt
      · obtain rfl := Option.some.inj (hi.symm.trans hj)
        exact .inr ⟨rfl, hfirst.le _ h'⟩
      · obtain ⟨s, hs⟩ := hbefore j hgt piece' hj
        exact absurd h' (EdgePiece.not_hasProblem hs _)

end Job

theorem Job.segments_name_first_problem (job : Job Binary32) :
    ((∃ segments, job.segments = .ok segments) ↔ job.id ≠ "" ∧ job.half ≠ 0 ∧
      job.half.toNat ≤ 2 ^ 24 ∧ (∀ c ∈ job.coefficients.toList, c.isFinite) ∧
      job.edges.length ≤ 100000 ∧ ∀ piece ∈ job.edges, piece.quadrant ≤ 3 ∧
        (∀ p ∈ piece.points, p.isFinite) ∧ piece.points.length ∈ [2, 3, 4]) ∧
    (∀ segments, job.segments = .ok segments →
      List.Forall₂ (fun piece (s : Quadrant × Segment Binary32) =>
        s.1.index = piece.quadrant ∧ s.2.points = piece.points) job.edges segments) ∧
    ∀ e, job.segments = .error e ↔ IsFirst ValidationError.rank job.HasProblem e := by
  refine ⟨exists_segments_iff, fun segments h => ?_, fun e => ?_⟩
  · refine (segments_eq_ok_iff.mp h).2.imp fun piece s hs => ?_
    obtain ⟨hindex, -, hpoints⟩ := EdgePiece.segment_eq_ok_iff.mp hs
    exact ⟨hindex, hpoints⟩
  · exact eq_error_iff_isFirst (fun _ => not_hasProblem) (fun _ => isFirst_of_segments_eq_error)
      HasProblem.eq_of_rank_eq

def faultyJob : Job Binary32 :=
  let p : Point Binary32 := ⟨.ofNat 1, .ofNat 2⟩
  { id := "faulty", half := 2, origin := ⟨0, 0⟩, coefficients := .zero
    edges := [⟨1, [p, p]⟩, ⟨3, [p, ⟨.nan, p.y⟩, ⟨.infinity true, .nan⟩, p, p]⟩, ⟨4, []⟩] }

theorem Job.segments_name_first_problem_faulty :
    faultyJob.segments = .error (.edge 1 (.nonFiniteCoordinate 1)) ∧
      IsFirst ValidationError.rank faultyJob.HasProblem (.edge 1 (.nonFiniteCoordinate 1)) := by
  have hsegments : faultyJob.segments = .error (.edge 1 (.nonFiniteCoordinate 1)) := by
    decide +kernel
  exact ⟨hsegments, (faultyJob.segments_name_first_problem.2.2 _).mp hsegments⟩

end WaveletRaster
