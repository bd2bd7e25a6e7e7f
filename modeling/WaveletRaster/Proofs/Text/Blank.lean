import Mathlib
import WaveletRaster.Proofs.Text.Split
import WaveletRaster.Text.Basic

/-! White space in texts. Trimming takes away all of it at both ends and nothing else. The words of
a text are the ones that white space, of any kind and amount, separates in it. -/

namespace WaveletRaster.Text

/-- The text without the white space around it. -/
structure Trimmed (core cs : List Char) : Prop where
  padded : ∃ before after : List Char, (∀ c ∈ before, isBlank c) ∧ (∀ c ∈ after, isBlank c) ∧
    cs = before ++ core ++ after
  head : ∀ c ∈ core.head?, isBlank c = false
  last : ∀ c ∈ core.getLast?, isBlank c = false

theorem dropWhile_isBlank_append {before cs : List Char} (hbefore : ∀ c ∈ before, isBlank c)
    (hhead : ∀ c ∈ cs.head?, isBlank c = false) : (before ++ cs).dropWhile isBlank = cs := by
  rw [List.dropWhile_append_of_pos hbefore]
  cases cs with
  | nil => rfl
  | cons c cs => rw [List.dropWhile_cons, hhead c rfl, if_neg Bool.false_ne_true]

theorem head?_dropWhile_isBlank (cs : List Char) :
    ∀ c ∈ (cs.dropWhile isBlank).head?, isBlank c = false := by
  intro c hc
  have h := List.head?_dropWhile_not isBlank cs
  rwa [Option.mem_def.mp hc] at h

theorem trim_of_forall {cs : List Char} (h : ∀ c ∈ cs, isBlank c) : trim cs = [] := by
  rw [trim, List.dropWhile_eq_nil_iff.mpr h]
  rfl

theorem trim_append {before core after : List Char} (hbefore : ∀ c ∈ before, isBlank c)
    (hafter : ∀ c ∈ after, isBlank c) (hhead : ∀ c ∈ core.head?, isBlank c = false)
    (hlast : ∀ c ∈ core.getLast?, isBlank c = false) : trim (before ++ core ++ after) = core := by
  cases core with
  | nil =>
    rw [List.append_nil]
    exact trim_of_forall (List.forall_mem_append.mpr ⟨hbefore, hafter⟩)
  | cons c core =>
    have hfront : (before ++ (c :: core ++ after)).dropWhile isBlank = c :: core ++ after :=
      dropWhile_isBlank_append hbefore hhead
    have hback :
        (after.reverse ++ (c :: core).reverse).dropWhile isBlank = (c :: core).reverse := by
      refine dropWhile_isBlank_append (fun c hc => hafter c (List.mem_reverse.mp hc)) ?_
      rwa [List.head?_reverse]
    rw [trim, List.append_assoc, hfront, List.reverse_append, hback, List.reverse_reverse]

theorem trimmed_trim (cs : List Char) : Trimmed (trim cs) cs := by
  set back := cs.dropWhile isBlank with hback
  set after := (back.reverse.takeWhile isBlank).reverse with hafter
  have hfront : cs = cs.takeWhile isBlank ++ back := List.takeWhile_append_dropWhile.symm
  have htrim : back = trim cs ++ after := by
    rw [trim, hafter, ← List.reverse_append, List.takeWhile_append_dropWhile, List.reverse_reverse]
  refine ⟨⟨cs.takeWhile isBlank, after, fun c hc => List.mem_takeWhile_imp hc, ?_, ?_⟩, ?_, ?_⟩
  · exact fun c hc => List.mem_takeWhile_imp (List.mem_reverse.mp hc)
  · rw [List.append_assoc, ← htrim]
    exact hfront
  · intro c hc
    refine head?_dropWhile_isBlank cs c ?_
    rw [← hback, htrim, List.head?_append, Option.mem_def.mp hc]
    rfl
  · intro c hc
    rw [trim, List.getLast?_reverse] at hc
    exact head?_dropWhile_isBlank _ c hc

theorem trim_eq_iff {cs core : List Char} : trim cs = core ↔ Trimmed core cs := by
  constructor
  · rintro rfl
    exact trimmed_trim cs
  · rintro ⟨⟨before, after, hbefore, hafter, rfl⟩, hhead, hlast⟩
    exact trim_append hbefore hafter hhead hlast

theorem trim_eq_self {cs : List Char} (h : ∀ c ∈ cs, isBlank c = false) : trim cs = cs :=
  trim_eq_iff.mpr ⟨⟨[], [], by simp, by simp, by simp⟩,
    fun c hc => h c (List.mem_of_head? hc), fun c hc => h c (List.mem_of_getLast? hc)⟩

def Padded {β : Type} (R : List Char → β → Prop) (cs : List Char) (b : β) : Prop :=
  ∃ core, Trimmed core cs ∧ R core b

theorem padded_iff {β : Type} {R : List Char → β → Prop} {cs : List Char} {b : β} :
    Padded R cs b ↔ R (trim cs) b := by
  constructor
  · rintro ⟨core, hcore, h⟩
    rwa [trim_eq_iff.mpr hcore]
  · intro h
    exact ⟨_, trimmed_trim cs, h⟩

structure IsWord (word : List Char) : Prop where
  ne_nil : word ≠ []
  solid : ∀ c ∈ word, isBlank c = false

/-- The words stand in the text in this order. There is white space between each two, and there may
be more of it anywhere but inside of them. -/
inductive Spaced : List (List Char) → List Char → Prop
  | nil : Spaced [] []
  | blank {words : List (List Char)} {cs : List Char} {c : Char} (hc : isBlank c)
    (h : Spaced words cs) : Spaced words (c :: cs)
  | last {word : List Char} (hword : IsWord word) : Spaced [word] word
  | word {word : List Char} {words : List (List Char)} {cs : List Char} {c : Char}
    (hword : IsWord word) (hc : isBlank c) (h : Spaced words cs) :
    Spaced (word :: words) (word ++ c :: cs)

theorem Spaced.isWord {words : List (List Char)} {cs : List Char} (h : Spaced words cs) :
    ∀ word ∈ words, IsWord word := by
  induction h with
  | nil => simp
  | blank _ _ ih => exact ih
  | last hword => simpa using hword
  | word hword _ _ ih => exact List.forall_mem_cons.mpr ⟨hword, ih⟩

theorem words_append_cons {c : Char} (hc : isBlank c) (front back : List Char) :
    words (front ++ c :: back) = words front ++ words back := by
  rw [words, splitOn_append_cons hc, List.filter_append]
  rfl

theorem words_cons {c : Char} (hc : isBlank c) (cs : List Char) : words (c :: cs) = words cs :=
  words_append_cons hc [] cs

theorem words_of_isWord {word : List Char} (h : IsWord word) : words word = [word] := by
  have hne : (!word.isEmpty) = true := by simpa using h.ne_nil
  rw [words, splitOn_eq_singleton h.solid, List.filter_singleton, hne]
  rfl

theorem spaced_words (cs : List Char) : Spaced (words cs) cs := by
  induction cs using split_induction isBlank with
  | whole cs h =>
    cases cs with
    | nil => exact .nil
    | cons c cs =>
      have hword : IsWord (c :: cs) := ⟨List.cons_ne_nil c cs, h⟩
      rw [words_of_isWord hword]
      exact .last hword
  | cut front c back hfront hc ih =>
    rw [words_append_cons hc]
    cases front with
    | nil => exact .blank hc ih
    | cons c' front =>
      have hword : IsWord (c' :: front) := ⟨List.cons_ne_nil c' front, hfront⟩
      rw [words_of_isWord hword]
      exact .word hword hc ih

theorem words_eq_iff {cs : List Char} {ws : List (List Char)} : words cs = ws ↔ Spaced ws cs := by
  constructor
  · rintro rfl
    exact spaced_words cs
  · intro h
    induction h with
    | nil => rfl
    | blank hc _ ih => rw [words_cons hc, ih]
    | last hword => exact words_of_isWord hword
    | word hword hc _ ih =>
      rw [words_append_cons hc, words_of_isWord hword, ih, List.singleton_append]

end WaveletRaster.Text
