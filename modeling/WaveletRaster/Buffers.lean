import WaveletRaster.Segment

/-! Dispatch on memory that the caller owns: a point buffer of any length, an origin and a
coefficient buffer. Each of them may be missing, and so may the pointer to it in a single call. -/

namespace WaveletRaster

/-- Which of the pointers of a call are set; the others are null. -/
structure Pointers where
  origin : Bool
  points : Bool
  coefficients : Bool
  deriving DecidableEq

structure Buffers (S : Type) where
  origin : Option Origin
  points : Option (List (Point S))
  coefficients : Option (Coefficients S)
  deriving DecidableEq

namespace Buffers

variable {S W : Type} [Arithmetic S] [Arithmetic W] [Precision S W]

def split? {α : Type} : (d : Degree) → List (Point α) → Option (Edge α d × List (Point α))
  | .linear, a :: b :: rest => some (.line a b, rest)
  | .quadratic, a :: b :: c :: rest => some (.quad a b c, rest)
  | .cubic, a :: b :: c :: d :: rest => some (.cubic a b c d, rest)
  | _, _ => none

/-- Dispatches the edge at the front of the point buffer. Points behind it are not touched, and
nothing happens when a buffer is missing. -/
def dispatch (d : Degree) (b : Buffers S) (half index : UInt32) : Buffers S :=
  match b with
  | ⟨some origin, some points, some coefficients⟩ =>
    match split? d points with
    | none => b
    | some (edge, rest) =>
      let after := Descent.dispatch ⟨origin, edge, coefficients⟩ half index
      ⟨some after.origin, some (after.edge.points ++ rest), some after.coefficients⟩
  | _ => b

def reached (b : Buffers S) (given : Pointers) : Buffers S :=
  { origin := if given.origin then b.origin else none
    points := if given.points then b.points else none
    coefficients := if given.coefficients then b.coefficients else none }

def writtenBack (after before : Buffers S) : Buffers S :=
  { origin := after.origin <|> before.origin
    points := after.points <|> before.points
    coefficients := after.coefficients <|> before.coefficients }

def dispatchThrough (given : Pointers) (d : Degree) (b : Buffers S) (half index : UInt32) :
    Buffers S :=
  ((b.reached given).dispatch d half index).writtenBack b

omit [Arithmetic S] in
theorem writtenBack_reached (b : Buffers S) (given : Pointers) :
    (b.reached given).writtenBack b = b := by
  have hfield {α : Type} (found : Bool) (x : Option α) :
      ((if found then x else none) <|> x) = x := by
    cases found <;> cases x <;> rfl
  simp only [writtenBack, reached, hfield]

theorem dispatch_reached (b : Buffers S) {given : Pointers} (h : given ≠ ⟨true, true, true⟩)
    (d : Degree) (half index : UInt32) :
    (b.reached given).dispatch d half index = b.reached given := by
  have hset {α : Type} {found : Bool} {x : Option α} {y : α}
      (hx : (if found then x else none) = some y) : found = true := by
    cases found with
    | false => cases hx
    | true => rfl
  rw [dispatch]
  intro origin points coefficients hreached
  obtain ⟨horigin, hpoints, hcoefficients⟩ := mk.inj hreached
  obtain ⟨_, _, _⟩ := given
  exact h (Pointers.mk.injEq .. ▸ ⟨hset horigin, hset hpoints, hset hcoefficients⟩)

theorem dispatchThrough_eq (b : Buffers S) (given : Pointers) (d : Degree) (half index : UInt32) :
    b.dispatchThrough given d half index =
      if given = ⟨true, true, true⟩ then b.dispatch d half index else b := by
  rw [dispatchThrough]
  by_cases hgiven : given = ⟨true, true, true⟩
  · rw [if_pos hgiven]
    subst hgiven
    have hall : b.reached ⟨true, true, true⟩ = b := rfl
    rw [hall]
    unfold dispatch
    split
    · split
      · rfl
      · rfl
    · exact writtenBack_reached b ⟨true, true, true⟩
  · rw [if_neg hgiven, b.dispatch_reached hgiven, writtenBack_reached]

omit [Arithmetic S] in
theorem eq_of_split? {d : Degree} {points rest : List (Point S)} {e : Edge S d}
    (h : split? d points = some (e, rest)) : points = e.points ++ rest := by
  unfold split? at h
  split at h <;> cases h <;> rfl

end Buffers
end WaveletRaster
