import Mathlib
import WaveletRaster.Text.Basic

/-! Texts cut at separators and into lines. Cutting at every occurrence of a separator gives the one
list of parts without separators that the separators join to the text; cutting at the first
occurrence gives what stands on both sides of it. What ends in a line feed can be cut off in front:
the lines behind it are those of what is left. -/

namespace WaveletRaster.Text
variable {α : Type}

theorem splitOn_eq (isSeparator : α → Bool) (xs : List α) :
    splitOn isSeparator xs = xs.splitOnP isSeparator := by
  have key (pieces : List (List α)) (current : List α) :
      let last := xs.foldl (fun acc x =>
        if isSeparator x then (acc.2.reverse :: acc.1, []) else (acc.1, x :: acc.2))
          (pieces, current)
      (last.2.reverse :: last.1).reverse =
        pieces.reverse ++ xs.splitOnPPrepend isSeparator current := by
    induction xs generalizing pieces current with
    | nil => simp
    | cons x xs ih =>
      rw [List.foldl_cons, List.splitOnPPrepend_cons_eq_if]
      split_ifs with hx
      · simp [ih]
      · exact ih pieces (x :: current)
  exact key [] []

section
variable {lineFeed carriageReturn : α}

def EndsLine (lineFeed : α) (xs : List α) : Prop := ∀ x ∈ xs.getLast?, x = lineFeed

theorem endsLine_iff {xs : List α} :
    EndsLine lineFeed xs ↔ xs = [] ∨ ∃ front, xs = front ++ [lineFeed] := by
  cases xs using List.reverseRecOn with
  | nil => simp [EndsLine]
  | append_singleton front x => simp [EndsLine]

variable [DecidableEq α]

theorem lines_nil : lines lineFeed carriageReturn [] = [] := rfl

theorem lines_append_cons (front back : List α) :
    lines lineFeed carriageReturn (front ++ lineFeed :: back) =
      lines lineFeed carriageReturn (front ++ [lineFeed]) ++ lines lineFeed carriageReturn back := by
  have hsplit (back : List α) : splitOn (· = lineFeed) (front ++ lineFeed :: back) =
      splitOn (· = lineFeed) front ++ splitOn (· = lineFeed) back := by
    simp only [splitOn_eq]
    exact List.splitOnP_append_cons front back (by simp)
  have hback : splitOn (· = lineFeed) back ≠ [] := by
    rw [splitOn_eq]
    exact List.splitOnP_ne_nil _ _
  obtain ⟨complete, unfinished, hpieces⟩ := (List.eq_nil_or_concat' _).resolve_left hback
  have hnone : splitOn (· = lineFeed) ([] : List α) = [[]] := rfl
  by_cases hempty : unfinished = []
  · simp [lines, hsplit, hpieces, hnone, hempty]
  · simp [lines, hsplit, hpieces, hnone, hempty]

theorem lines_append {front : List α} (hfront : EndsLine lineFeed front) (back : List α) :
    lines lineFeed carriageReturn (front ++ back) =
      lines lineFeed carriageReturn front ++ lines lineFeed carriageReturn back := by
  obtain rfl | ⟨front, rfl⟩ := endsLine_iff.mp hfront
  · rw [lines_nil, List.nil_append, List.nil_append]
  · rw [List.append_assoc, List.singleton_append, lines_append_cons]

theorem lines_flatMap {pieces : List (List α)}
    (h : ∀ piece ∈ pieces, lineFeed ∉ piece ∧ carriageReturn ∉ piece) :
    lines lineFeed carriageReturn (pieces.flatMap (· ++ [lineFeed])) = pieces := by
  induction pieces with
  | nil => rfl
  | cons piece pieces ih =>
    obtain ⟨⟨hfeed, hreturn⟩, hpieces⟩ := List.forall_mem_cons.mp h
    have hsplit : splitOn (· = lineFeed) (piece ++ [lineFeed]) = [piece, []] := by
      rw [splitOn_eq, List.splitOnP_append_cons_of_forall_mem]
      · rfl
      · exact fun x hx => decide_eq_false fun heq => hfeed (heq ▸ hx)
      · exact decide_eq_true rfl
    have hkept : piece.getLast? ≠ some carriageReturn :=
      fun hlast => hreturn (List.mem_of_getLast? hlast)
    have hfirst : lines lineFeed carriageReturn (piece ++ [lineFeed]) = [piece] := by
      simp [lines, hsplit, hkept]
    have hends : EndsLine lineFeed (piece ++ [lineFeed]) := endsLine_iff.mpr (Or.inr ⟨piece, rfl⟩)
    rw [List.flatMap_cons, lines_append hends, hfirst, ih hpieces, List.singleton_append]

end

section
variable {isSeparator : α → Bool} {xs front back : List α} {x : α}

theorem splitFirst?_append_cons (hfront : ∀ y ∈ front, isSeparator y = false)
    (hx : isSeparator x) : splitFirst? isSeparator (front ++ x :: back) = some (front, back) := by
  have hpos : ∀ y ∈ front, (!isSeparator y) = true := by simpa using hfront
  have hdrop : (front ++ x :: back).dropWhile (!isSeparator ·) = x :: back := by
    simp [List.dropWhile_append_of_pos hpos, hx]
  have htake : (front ++ x :: back).takeWhile (!isSeparator ·) = front := by
    simp [List.takeWhile_append_of_pos hpos, hx]
  rw [splitFirst?, hdrop, htake]

theorem splitFirst?_eq_none_iff :
    splitFirst? isSeparator xs = none ↔ ∀ y ∈ xs, isSeparator y = false := by
  have hdrop : (xs.dropWhile (!isSeparator ·)) = [] ↔ ∀ y ∈ xs, isSeparator y = false := by
    rw [List.dropWhile_eq_nil_iff]
    simp
  rw [← hdrop, splitFirst?]
  split <;> simp_all

theorem splitFirst?_eq_some_iff : splitFirst? isSeparator xs = some (front, back) ↔
    (∀ y ∈ front, isSeparator y = false) ∧ ∃ x, isSeparator x ∧ xs = front ++ x :: back := by
  constructor
  · intro h
    rw [splitFirst?] at h
    split at h
    · cases h
    · rename_i x rest hrest
      cases h
      refine ⟨fun y hy => by simpa using List.mem_takeWhile_imp hy, x, ?_, ?_⟩
      · have hhead := List.head?_dropWhile_not (!isSeparator ·) xs
        simpa [hrest] using hhead
      · rw [← hrest, List.takeWhile_append_dropWhile]
  · rintro ⟨hfront, x, hx, rfl⟩
    exact splitFirst?_append_cons hfront hx

theorem split_induction (isSeparator : α → Bool) {motive : List α → Prop}
    (whole : ∀ xs, (∀ y ∈ xs, isSeparator y = false) → motive xs)
    (cut : ∀ front x back, (∀ y ∈ front, isSeparator y = false) → isSeparator x → motive back →
      motive (front ++ x :: back)) (xs : List α) : motive xs := by
  induction hn : xs.length using Nat.strongRecOn generalizing xs with
  | ind n ih =>
    cases h : splitFirst? isSeparator xs with
    | none => exact whole xs (splitFirst?_eq_none_iff.mp h)
    | some pair =>
      obtain ⟨hfront, x, hx, rfl⟩ := splitFirst?_eq_some_iff.mp h
      refine cut _ x _ hfront hx (ih _ ?_ _ rfl)
      simp only [List.length_append, List.length_cons] at hn
      omega

theorem splitOn_eq_singleton (h : ∀ y ∈ xs, isSeparator y = false) :
    splitOn isSeparator xs = [xs] := by
  rw [splitOn_eq, List.splitOnP_eq_singleton h]

theorem splitOn_append_cons (hx : isSeparator x) : splitOn isSeparator (front ++ x :: back) =
    splitOn isSeparator front ++ splitOn isSeparator back := by
  simp only [splitOn_eq]
  exact List.splitOnP_append_cons front back hx

theorem splitOn_first (hfront : ∀ y ∈ front, isSeparator y = false) (hx : isSeparator x) :
    splitOn isSeparator (front ++ x :: back) = front :: splitOn isSeparator back := by
  rw [splitOn_append_cons hx, splitOn_eq_singleton hfront, List.singleton_append]

end

/-- The parts are joined to the list by one separator between each two, and hold none themselves. -/
inductive Joined (separator : α) : List (List α) → List α → Prop
  | single {part : List α} (h : separator ∉ part) : Joined separator [part] part
  | cons {part : List α} {parts : List (List α)} {xs : List α} (h : separator ∉ part)
    (hparts : Joined separator parts xs) :
    Joined separator (part :: parts) (part ++ separator :: xs)

theorem Joined.count [DecidableEq α] {separator : α} {parts : List (List α)} {xs : List α}
    (h : Joined separator parts xs) : xs.count separator + 1 = parts.length := by
  induction h with
  | single h => rw [List.count_eq_zero_of_not_mem h, List.length_singleton]
  | cons h _ ih =>
    rw [List.count_append, List.count_eq_zero_of_not_mem h, List.count_cons_self, List.length_cons,
      Nat.zero_add, ih]

section
variable [DecidableEq α] {separator : α} {parts : List (List α)} {xs : List α}

theorem eq_false_of_notMem (h : separator ∉ xs) : ∀ y ∈ xs, decide (y = separator) = false :=
  fun _ hy => decide_eq_false (ne_of_mem_of_not_mem hy h)

theorem notMem_of_eq_false (h : ∀ y ∈ xs, decide (y = separator) = false) : separator ∉ xs :=
  fun hmem => of_decide_eq_false (h _ hmem) rfl

theorem joined_splitOn (separator : α) (xs : List α) :
    Joined separator (splitOn (· = separator) xs) xs := by
  induction xs using split_induction (· = separator) with
  | whole xs h =>
    rw [splitOn_eq_singleton h]
    exact .single (notMem_of_eq_false h)
  | cut front x back hfront hx ih =>
    rw [splitOn_first hfront hx, of_decide_eq_true hx]
    exact .cons (notMem_of_eq_false hfront) ih

theorem splitOn_eq_iff : splitOn (· = separator) xs = parts ↔ Joined separator parts xs := by
  constructor
  · rintro rfl
    exact joined_splitOn separator xs
  · intro h
    induction h with
    | single h => exact splitOn_eq_singleton (eq_false_of_notMem h)
    | cons h _ ih => rw [splitOn_first (eq_false_of_notMem h) (decide_eq_true rfl), ih]

end
end WaveletRaster.Text
