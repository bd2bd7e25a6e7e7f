import Mathlib
import WaveletRaster.Proofs.Json.Reader

/-! Values that were read from a text can be written on a line of their own. Their tokens are those
of the text, and a space behind each of them keeps them apart, so that strings may stay as they were
spelled. -/

namespace WaveletRaster.Json

open Decimal (Numeral)

theorem le_of_hexValue? {c : Char} {n : Nat} (h : hexValue? c = some n) : ' ' ≤ c := by
  unfold hexValue? at h
  split_ifs at h with hdigit hlower hupper
  · exact le_trans (by decide) hdigit.1
  · exact le_trans (by decide) hlower.1
  · exact le_trans (by decide) hupper.1

theorem le_of_unescapeLetter? {c d : Char} (h : unescapeLetter? c = some d) : ' ' ≤ c := by
  unfold unescapeLetter? at h
  split_ifs at h with hself
  · rcases hself with rfl | rfl | rfl <;> decide
  all_goals
    subst_vars
    decide

theorem le_of_codesOnto? {reversed codes : List Nat} {body : List Char}
    (h : codesOnto? reversed body = some codes) : ∀ c ∈ body, ' ' ≤ c := by
  fun_induction codesOnto? reversed body with
  | case1 => exact nofun
  | case2 _ a b c d _ _ _ _ _ hd hc hb ha ih =>
    simp only [List.forall_mem_cons]
    exact ⟨by decide, by decide, le_of_hexValue? ha, le_of_hexValue? hb, le_of_hexValue? hc,
      le_of_hexValue? hd, ih h⟩
  | case4 _ c _ _ _ hc ih =>
    simp only [List.forall_mem_cons]
    exact ⟨by decide, le_of_unescapeLetter? hc, ih h⟩
  | case7 _ c _ _ _ hc ih =>
    exact List.forall_mem_cons.mpr ⟨not_lt.mp fun hlt => hc (Or.inr hlt), ih h⟩
  | case3 | case5 | case6 => cases h

theorem le_of_isWellFormed {body : List Char} (h : isWellFormed body) : ∀ c ∈ body, ' ' ≤ c := by
  obtain ⟨codes, hcodes⟩ := Option.isSome_iff_exists.mp h
  exact le_of_codesOnto? hcodes

theorem isPlainWhole_of_ofChars? {cs : List Char} {n : Numeral} (h : Numeral.ofChars? cs = some n) :
    Numeral.isPlainWhole n.whole := by
  unfold Numeral.ofChars? at h
  generalize (if cs.head? = some '-' then (true, cs.tail) else (false, cs)) = signed at h
  simp only [Option.bind_eq_bind] at h
  split_ifs at h with hplain
  obtain ⟨fraction, -, h⟩ := Option.bind_eq_some_iff.mp h
  obtain ⟨exponent, -, h⟩ := Option.bind_eq_some_iff.mp h
  cases h
  simpa using hplain

/-- Written anywhere, the token is read back; its characters may stand on one line. -/
structure Token.IsLegible (t : Token) : Prop where
  reads : ∀ read, ∃ l, t.chars.foldlM Lexer.step? ⟨.none, read⟩ = some l ∧
    l.finish? = some (t :: read)
  printable : t.chars.all (' ' ≤ ·)

namespace Token

theorem IsLegible.ofMark {t : Token} (ht : t.isMark) : t.IsLegible where
  reads read := ⟨⟨.none, t :: read⟩, Lexer.foldlM_mark rfl ht, rfl⟩
  printable := by
    cases t <;> first
      | rfl
      | cases ht

theorem IsLegible.null : IsLegible .null where
  reads read := Lexer.foldlM_scalar read .null
  printable := rfl

theorem IsLegible.bool (b : Bool) : IsLegible (.bool b) where
  reads read := Lexer.foldlM_scalar read (.bool b)
  printable := by cases b <;> rfl

theorem IsLegible.number {n : Numeral} (h : Numeral.isPlainWhole n.whole) :
    IsLegible (.number n) where
  reads read := Lexer.foldlM_scalar read (.number h)
  printable := by
    refine List.all_eq_true.mpr fun c hc => decide_eq_true ?_
    have hchar := Lexer.isNumberChar_of_mem_chars hc
    simp only [Lexer.isNumberChar, Lexer.isNumberStart, Bool.or_eq_true, decide_eq_true_eq] at hchar
    rcases hchar with ((((hdigit | rfl) | rfl) | rfl) | rfl) | rfl
    · simp only [Char.isDigit, Bool.and_eq_true, decide_eq_true_eq] at hdigit
      exact le_trans (by decide) hdigit.1
    all_goals decide

end Token

namespace Lexer

/-- A string in progress would be read the same way behind any other tokens. -/
def IsMovable : Run → Prop
  | .quoted reversed escaped => ∀ read, ('"' :: reversed.reverse).foldlM step? ⟨.none, read⟩ =
      some ⟨.quoted reversed escaped, read⟩
  | _ => True

structure IsSound (l : Lexer) : Prop where
  run : IsMovable l.run
  tokens : ∀ t ∈ l.tokens, t.IsLegible

theorem isMovable_snoc {reversed : List Char} {escaped next : Bool} {c : Char}
    (h : IsMovable (.quoted reversed escaped))
    (hstep : ∀ read, step? ⟨.quoted reversed escaped, read⟩ c =
      some ⟨.quoted (c :: reversed) next, read⟩) : IsMovable (.quoted (c :: reversed) next) := by
  intro read
  rw [List.reverse_cons, ← List.cons_append, List.foldlM_append, h read]
  simp [hstep]

theorem isLegible_string {reversed : List Char} (h : IsMovable (.quoted reversed false))
    (hbody : isWellFormed reversed.reverse) : (Token.string reversed.reverse).IsLegible where
  reads read := by
    refine ⟨⟨.none, .string reversed.reverse :: read⟩, ?_, rfl⟩
    rw [Token.chars, List.foldlM_append, h read]
    simp [step?, hbody]
  printable := by
    have hprintable : reversed.reverse.all (' ' ≤ ·) := by
      simpa using le_of_isWellFormed hbody
    rw [Token.chars, List.all_append, List.all_cons, hprintable]
    rfl

theorem isSound_start? {tokens : List Token} (h : ∀ t ∈ tokens, t.IsLegible) {c : Char} {l : Lexer}
    (hstart : start? tokens c = some l) : l.IsSound := by
  unfold start? at hstart
  split_ifs at hstart
  · cases hstart
    exact ⟨trivial, h⟩
  · cases hstart
    exact ⟨fun _ => rfl, h⟩
  · cases hstart
    exact ⟨trivial, h⟩
  · cases hstart
    exact ⟨trivial, h⟩
  · obtain ⟨t, hmark, rfl⟩ := Option.map_eq_some_iff.mp hstart
    refine ⟨trivial, List.forall_mem_cons.mpr ⟨.ofMark ?_, h⟩⟩
    unfold Token.ofMark? at hmark
    split_ifs at hmark <;> cases hmark <;> rfl

theorem isLegible_finish? {l : Lexer} (h : l.IsSound) {tokens : List Token}
    (hfinish : l.finish? = some tokens) : ∀ t ∈ tokens, t.IsLegible := by
  unfold finish? at hfinish
  split at hfinish
  · cases hfinish
    exact h.tokens
  · obtain ⟨t, hword, rfl⟩ := Option.map_eq_some_iff.mp hfinish
    refine List.forall_mem_cons.mpr ⟨?_, h.tokens⟩
    unfold Token.ofWord? at hword
    split_ifs at hword
    · cases hword
      exact .null
    · cases hword
      exact .bool true
    · cases hword
      exact .bool false
  · obtain ⟨n, hnumber, rfl⟩ := Option.map_eq_some_iff.mp hfinish
    exact List.forall_mem_cons.mpr ⟨.number (isPlainWhole_of_ofChars? hnumber), h.tokens⟩
  · cases hfinish

theorem isSound_step? {l next : Lexer} (h : l.IsSound) {c : Char} (hstep : l.step? c = some next) :
    next.IsSound := by
  have hend (hnext : l.finish?.bind (start? · c) = some next) : next.IsSound := by
    obtain ⟨tokens, hfinish, hstart⟩ := Option.bind_eq_some_iff.mp hnext
    exact isSound_start? (isLegible_finish? h hfinish) hstart
  obtain ⟨run, tokens⟩ := l
  cases run with
  | none => exact isSound_start? h.tokens hstep
  | word cs =>
    simp only [step?] at hstep
    split_ifs at hstep
    · cases hstep
      exact ⟨trivial, h.tokens⟩
    · exact hend hstep
  | number cs =>
    simp only [step?] at hstep
    split_ifs at hstep
    · cases hstep
      exact ⟨trivial, h.tokens⟩
    · exact hend hstep
  | quoted cs escaped =>
    cases escaped with
    | true =>
      cases hstep
      exact ⟨isMovable_snoc h.run fun _ => rfl, h.tokens⟩
    | false =>
      simp only [step?] at hstep
      split_ifs at hstep with hquote hbody
      · cases hstep
        exact ⟨trivial, List.forall_mem_cons.mpr ⟨isLegible_string h.run hbody, h.tokens⟩⟩
      · cases hstep
        exact ⟨isMovable_snoc h.run fun _ => if_neg hquote, h.tokens⟩

theorem isSound_foldlM {l last : Lexer} (h : l.IsSound) {cs : List Char}
    (hfold : cs.foldlM step? l = some last) : last.IsSound := by
  induction cs generalizing l with
  | nil =>
    cases hfold
    exact h
  | cons c cs ih =>
    rw [List.foldlM_cons] at hfold
    obtain ⟨next, hstep, hrest⟩ := Option.bind_eq_some_iff.mp hfold
    exact ih (isSound_step? h hstep) hrest

end Lexer

theorem isLegible_of_tokens? {cs : List Char} {ts : List Token} (h : tokens? cs = some ts) :
    ∀ t ∈ ts, t.IsLegible := by
  obtain ⟨last, hfold, h⟩ := Option.bind_eq_some_iff.mp h
  obtain ⟨reversed, hfinish, h⟩ := Option.bind_eq_some_iff.mp h
  cases h
  have hstart : Lexer.IsSound ⟨.none, []⟩ := ⟨trivial, nofun⟩
  have hlast := Lexer.isSound_foldlM hstart hfold
  exact fun t ht => Lexer.isLegible_finish? hlast hfinish t (List.mem_reverse.mp ht)

def spaced (ts : List Token) : List Char := ts.flatMap fun t => t.chars ++ [' ']

theorem Lexer.step?_space {l : Lexer} {read : List Token} (h : l.finish? = some read) :
    l.step? ' ' = some ⟨.none, read⟩ := by
  obtain ⟨run, tokens⟩ := l
  have hstart : (finish? ⟨run, tokens⟩).bind (start? · ' ') = some ⟨.none, read⟩ := by
    rw [h]
    rfl
  cases run with
  | none =>
    cases h
    rfl
  | word | number => exact hstart
  | quoted => cases h

theorem foldlM_spaced {ts : List Token} (h : ∀ t ∈ ts, t.IsLegible) (read : List Token) :
    (spaced ts).foldlM Lexer.step? ⟨.none, read⟩ = some ⟨.none, ts.reverse ++ read⟩ := by
  induction ts generalizing read with
  | nil => rfl
  | cons t ts ih =>
    obtain ⟨ht, hts⟩ := List.forall_mem_cons.mp h
    have hfirst : (t.chars ++ [' ']).foldlM Lexer.step? ⟨.none, read⟩ = some ⟨.none, t :: read⟩ := by
      obtain ⟨l, hfold, hfinish⟩ := ht.reads read
      rw [List.foldlM_append, hfold]
      simp [Lexer.step?_space hfinish]
    rw [spaced, List.flatMap_cons, List.foldlM_append, hfirst, List.reverse_cons, List.append_assoc]
    exact ih hts (t :: read)

theorem tokens?_spaced {ts : List Token} (h : ∀ t ∈ ts, t.IsLegible) :
    tokens? (spaced ts) = some ts := by
  rw [tokens?, foldlM_spaced h, List.append_nil]
  simp [Lexer.finish?]

theorem le_of_mem_spaced {ts : List Token} (h : ∀ t ∈ ts, t.IsLegible) {c : Char}
    (hc : c ∈ spaced ts) : ' ' ≤ c := by
  obtain ⟨t, ht, hc⟩ := List.mem_flatMap.mp hc
  rcases List.mem_append.mp hc with hc | hc
  · exact of_decide_eq_true (List.all_eq_true.mp (h t ht).printable c hc)
  · exact (List.mem_singleton.mp hc).ge

def line (v : Json) : String := String.ofList (spaced v.tokens)

/-- Whatever is part of a value that was read can stand on a line of its own. -/
theorem parse?_line {text : String} {whole part : Json} (h : parse? text = some whole)
    (hpart : part.tokens ⊆ whole.tokens) :
    parse? part.line = some part ∧ ∀ c ∈ part.line.toList, ' ' ≤ c := by
  obtain ⟨ts, hlex, hread⟩ := Option.bind_eq_some_iff.mp h
  obtain rfl := ofTokens?_eq_some_iff.mp hread
  have hlegible : ∀ t ∈ part.tokens, t.IsLegible :=
    fun t ht => isLegible_of_tokens? hlex t (hpart ht)
  rw [line, String.toList_ofList]
  refine ⟨?_, fun c hc => le_of_mem_spaced hlegible hc⟩
  rw [parse?, String.toList_ofList, tokens?_spaced hlegible]
  exact ofTokens?_eq_some_iff.mpr rfl

theorem tokens_subset_array {items : List Json} {v : Json} (hv : v ∈ items) :
    v.tokens ⊆ (array items).tokens := by
  obtain rfl | ⟨front, last, rfl⟩ := List.eq_nil_or_concat' items
  · cases hv
  · have htokens : (array (front ++ [last])).tokens =
        .openBracket :: (front.flatMap itemTokens ++ (last.tokens ++ [.closeBracket])) := by
      rw [tokens, tokensOnto, itemsOnto_append_singleton]
    intro t ht
    rw [htokens]
    rcases List.mem_append.mp hv with hv | hv
    · have hitem : t ∈ itemTokens v := List.mem_append_left _ ht
      exact List.mem_cons_of_mem _ (List.mem_append_left _ (List.mem_flatMap_of_mem hv hitem))
    · obtain rfl := List.mem_singleton.mp hv
      simp [ht]

theorem tokens_subset_object {entries : List (List Char × Json)} {e : List Char × Json}
    (he : e ∈ entries) : e.2.tokens ⊆ (object entries).tokens := by
  obtain rfl | ⟨front, ⟨k, v⟩, rfl⟩ := List.eq_nil_or_concat' entries
  · cases he
  · have htokens : (object (front ++ [(k, v)])).tokens = .openBrace ::
        (front.flatMap entryTokens ++ (.string k :: .colon :: (v.tokens ++ [.closeBrace]))) := by
      rw [tokens, tokensOnto, entriesOnto_append_singleton]
    intro t ht
    rw [htokens]
    rcases List.mem_append.mp he with he | he
    · have hentry : t ∈ entryTokens e := by simp [entryTokens, itemTokens, ht]
      exact List.mem_cons_of_mem _ (List.mem_append_left _ (List.mem_flatMap_of_mem he hentry))
    · obtain rfl := List.mem_singleton.mp he
      simp [ht]

theorem forall₂_of_mapM_eq_some {β γ : Type} {f : β → Option γ} {xs : List β} {ys : List γ}
    (h : xs.mapM f = some ys) : List.Forall₂ (fun x y => f x = some y) xs ys := by
  induction xs generalizing ys with
  | nil =>
    cases h
    exact .nil
  | cons x xs ih =>
    rw [List.mapM_cons] at h
    obtain ⟨y, hy, h⟩ := Option.bind_eq_some_iff.mp h
    obtain ⟨rest, hrest, h⟩ := Option.bind_eq_some_iff.mp h
    cases h
    exact .cons hy (ih hrest)

theorem exists_of_mapM_eq_some {β γ : Type} {f : β → Option γ} {xs : List β} {ys : List γ}
    (h : xs.mapM f = some ys) {y : γ} (hy : y ∈ ys) : ∃ x ∈ xs, f x = some y := by
  obtain ⟨i, hi, rfl⟩ := List.mem_iff_getElem.mp hy
  have hall := forall₂_of_mapM_eq_some h
  have hlt : i < xs.length := hall.length_eq ▸ hi
  exact ⟨xs[i], List.getElem_mem hlt, hall.get hlt hi⟩

theorem tokens_subset_of_fields? {names : List String} {v part : Json} {fields : List (Option Json)}
    (h : v.fields? names = some fields) (hpart : some part ∈ fields) : part.tokens ⊆ v.tokens := by
  unfold fields? at h
  split at h
  · split_ifs at h
    cases h
    obtain ⟨w, hw, heq⟩ := List.mem_map.mp hpart
    cases heq
    exact tokens_subset_array hw
  · obtain ⟨named, hnamed, h⟩ := Option.bind_eq_some_iff.mp h
    obtain ⟨name, -, hname⟩ := exists_of_mapM_eq_some h hpart
    have hmem : ∃ k, (k, part) ∈ named := by
      split at hname
      · cases hname
      · rename_i k w hfilter
        cases hname
        exact ⟨k, List.mem_of_mem_filter (hfilter ▸ List.mem_singleton_self _)⟩
      · cases hname
    obtain ⟨k, hk⟩ := hmem
    obtain ⟨e, he, heq⟩ := exists_of_mapM_eq_some hnamed hk
    obtain ⟨_, -, heq⟩ := Option.bind_eq_some_iff.mp heq
    cases heq
    exact tokens_subset_object he
  · cases h

end WaveletRaster.Json
