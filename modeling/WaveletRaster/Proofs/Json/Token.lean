import Mathlib
import WaveletRaster.Json.Token
import WaveletRaster.Proofs.Decimal.Numeral
import WaveletRaster.Proofs.Json.Quoted

/-! Tokens written without blanks read back. A numeral or a word goes on until the mark behind it,
so what follows a scalar has to start with one. -/

namespace WaveletRaster.Json

open Decimal (Digit Numeral)

namespace Token

def isMark : Token → Bool
  | openBrace | closeBrace | openBracket | closeBracket | comma | colon => true
  | _ => false

inductive Scalar : Token → Prop where
  | null : Scalar .null
  | bool (b : Bool) : Scalar (.bool b)
  | number {n : Numeral} (h : Numeral.isPlainWhole n.whole) : Scalar (.number n)
  | string (s : String) : Scalar (.string (escape s))

end Token

def StartsWithMark (ts : List Token) : Prop := ∀ t ∈ ts.head?, t.isMark

theorem startsWithMark_cons {t : Token} (ht : t.isMark) (ts : List Token) :
    StartsWithMark (t :: ts) := by
  rintro _ ⟨⟩
  exact ht

/-- Tokens that can be told apart without blanks between them. -/
inductive Spelled : List Token → Prop where
  | nil : Spelled []
  | mark {t : Token} {ts : List Token} (ht : t.isMark) (rest : Spelled ts) : Spelled (t :: ts)
  | scalar {t : Token} {ts : List Token} (ht : t.Scalar) (hnext : StartsWithMark ts)
    (rest : Spelled ts) : Spelled (t :: ts)

namespace Lexer

theorem foldlM_mark {l : Lexer} {read : List Token} (hl : l.finish? = some read) {t : Token}
    (ht : t.isMark) : t.chars.foldlM step? l = some ⟨.none, t :: read⟩ := by
  obtain ⟨c, hchars, hstart, hword, hnumber⟩ : ∃ c, t.chars = [c] ∧
      (∀ tokens, start? tokens c = some ⟨.none, t :: tokens⟩) ∧
      isWordChar c = false ∧ isNumberChar c = false := by
    cases t <;> first
      | exact ⟨_, rfl, fun _ => rfl, rfl, rfl⟩
      | cases ht
  obtain ⟨run, tokens⟩ := l
  rw [hchars]
  cases run with
  | none =>
    cases hl
    simp [step?, hstart]
  | word => simp [step?, hl, hword, hstart]
  | number => simp [step?, hl, hnumber, hstart]
  | quoted => cases hl

theorem foldlM_number (read : List Token) (reversed cs : List Char)
    (hcs : ∀ c ∈ cs, isNumberChar c) :
    cs.foldlM step? ⟨.number reversed, read⟩ = some ⟨.number (cs.reverse ++ reversed), read⟩ := by
  induction cs generalizing reversed with
  | nil => rfl
  | cons c cs ih =>
    obtain ⟨hc, hcs⟩ := List.forall_mem_cons.mp hcs
    have hstep : step? ⟨.number reversed, read⟩ c = some ⟨.number (c :: reversed), read⟩ := by
      simp [step?, hc]
    rw [List.foldlM_cons, hstep]
    simp [ih _ hcs]

theorem step?_quoted {read : List Token} {reversed : List Char} {c : Char} (hquote : c ≠ '"')
    (hslash : c ≠ '\\') :
    step? ⟨.quoted reversed false, read⟩ c = some ⟨.quoted (c :: reversed) false, read⟩ := by
  simp [step?, hquote, hslash]

theorem foldlM_escapeChar (read : List Token) (reversed : List Char) (c : Char) :
    (escapeChar c).foldlM step? ⟨.quoted reversed false, read⟩ =
      some ⟨.quoted ((escapeChar c).reverse ++ reversed) false, read⟩ := by
  unfold escapeChar
  split_ifs with hquote hslash _ _ _ _ _ hcontrol
  on_goal 8 =>
    have hc : c.toNat < 32 := hcontrol
    have hhex : ∀ n : Fin 16, hexDigit n ≠ '"' ∧ hexDigit n ≠ '\\' := by decide
    have hhigh := hhex ⟨c.toNat / 16, by omega⟩
    have hlow := hhex ⟨c.toNat % 16, by omega⟩
    simp [step?, hhigh, hlow]
  on_goal 8 => simp [step?_quoted hquote hslash]
  all_goals rfl

theorem foldlM_flatMap_escapeChar (read : List Token) (reversed cs : List Char) :
    (cs.flatMap escapeChar).foldlM step? ⟨.quoted reversed false, read⟩ =
      some ⟨.quoted ((cs.flatMap escapeChar).reverse ++ reversed) false, read⟩ := by
  induction cs generalizing reversed with
  | nil => rfl
  | cons c cs ih =>
    rw [List.flatMap_cons, List.foldlM_append, foldlM_escapeChar, Option.bind_eq_bind,
      Option.bind_some, ih, List.reverse_append, List.append_assoc]

theorem isNumberChar_of_mem_chars {n : Numeral} {c : Char} (hc : c ∈ n.chars) : isNumberChar c := by
  have hdigit : ∀ d : Digit, isNumberChar d.char := by decide
  have hdigits (ds : List Digit) : ∀ c ∈ ds.map Digit.char, isNumberChar c := by
    simpa using fun d _ => hdigit d
  rw [Numeral.chars_eq, List.mem_append, List.mem_append, List.mem_append] at hc
  rcases hc with hsign | hwhole | hfraction | hexponent
  · split_ifs at hsign
    · rw [List.mem_singleton.mp hsign]
      rfl
    · cases hsign
  · exact hdigits _ c hwhole
  · rw [Numeral.fractionChars] at hfraction
    split_ifs at hfraction
    · cases hfraction
    · rcases List.mem_cons.mp hfraction with rfl | hfraction
      · rfl
      · exact hdigits _ c hfraction
  · cases he : n.exponent with
    | none =>
      rw [he] at hexponent
      cases hexponent
    | some e =>
      rw [he] at hexponent
      rcases List.mem_cons.mp hexponent with rfl | hexponent
      · rfl
      rcases List.mem_cons.mp hexponent with rfl | hexponent
      · split_ifs <;> rfl
      · exact hdigits _ c hexponent

theorem exists_chars_eq_cons {n : Numeral} (h : Numeral.isPlainWhole n.whole) :
    ∃ c cs, n.chars = c :: cs ∧ isNumberStart c := by
  rw [Numeral.chars_eq]
  cases n.negative with
  | true => exact ⟨_, _, rfl, rfl⟩
  | false =>
    cases hwhole : n.whole with
    | nil =>
      rw [hwhole] at h
      cases h
    | cons d ds =>
      have hdigit : ∀ d : Digit, isNumberStart d.char := by decide
      exact ⟨_, _, rfl, hdigit d⟩

theorem start?_number (read : List Token) {c : Char} (hc : isNumberStart c) :
    start? read c = some ⟨.number [c], read⟩ := by
  have hblank : isBlank c = false := by
    refine Bool.eq_false_iff.mpr fun hblank => ?_
    simp only [isBlank, Bool.or_eq_true, decide_eq_true_eq] at hblank
    rcases hblank with ((rfl | rfl) | rfl) | rfl <;> cases hc
  have hquote : c ≠ '"' := by
    rintro rfl
    cases hc
  rw [start?, hblank, if_neg Bool.false_ne_true, if_neg hquote, if_pos hc]

theorem foldlM_scalar (read : List Token) {t : Token} (ht : t.Scalar) :
    ∃ l, t.chars.foldlM step? ⟨.none, read⟩ = some l ∧ l.finish? = some (t :: read) := by
  cases ht with
  | null => exact ⟨_, rfl, rfl⟩
  | bool b => cases b <;> exact ⟨_, rfl, rfl⟩
  | number h =>
    rename_i n
    obtain ⟨c, cs, hchars, hc⟩ := exists_chars_eq_cons h
    have hcs : ∀ d ∈ cs, isNumberChar d := fun d hd =>
      isNumberChar_of_mem_chars (n := n) (hchars ▸ List.mem_cons_of_mem c hd)
    refine ⟨⟨.number (cs.reverse ++ [c]), read⟩, ?_, ?_⟩
    · have hstart : step? ⟨.none, read⟩ c = some ⟨.number [c], read⟩ := start?_number read hc
      rw [Token.chars, hchars, List.foldlM_cons, hstart]
      exact foldlM_number read [c] cs hcs
    · have hread : (cs.reverse ++ [c]).reverse = n.chars := by simp [hchars]
      simp only [finish?, hread, Numeral.ofChars?_chars h, Option.map_some]
  | string s =>
    refine ⟨⟨.none, .string (escape s) :: read⟩, ?_, rfl⟩
    have hstart : step? ⟨.none, read⟩ '"' = some ⟨.quoted [] false, read⟩ := rfl
    have hbody : (escape s).foldlM step? ⟨.quoted [] false, read⟩ =
        some ⟨.quoted ((escape s).reverse ++ []) false, read⟩ :=
      foldlM_flatMap_escapeChar read [] s.toList
    rw [Token.chars, List.cons_append, List.foldlM_cons, hstart, Option.bind_eq_bind,
      Option.bind_some, List.foldlM_append, hbody]
    simp [step?, isWellFormed_escape]

theorem foldlM_spelled {ts : List Token} (hts : Spelled ts) {l : Lexer} {read : List Token}
    (hl : l.finish? = some read) (hrun : l.run = .none ∨ StartsWithMark ts) :
    ∃ l', (ts.flatMap Token.chars).foldlM step? l = some l' ∧
      l'.finish? = some (ts.reverse ++ read) := by
  -- the invariant is on `finish?`: a scalar leaves its run to be ended by the mark behind it
  induction hts generalizing l read with
  | nil => exact ⟨l, rfl, hl⟩
  | mark ht rest ih =>
    rename_i t ts
    obtain ⟨l', hfold, hfinish⟩ := ih (l := ⟨.none, t :: read⟩) rfl (Or.inl rfl)
    refine ⟨l', ?_, by simpa using hfinish⟩
    rw [List.flatMap_cons, List.foldlM_append, foldlM_mark hl ht]
    exact hfold
  | scalar ht hnext rest ih =>
    rename_i t ts
    have hnone : l.run = .none := by
      refine hrun.resolve_right fun hmark => ?_
      have : t.isMark := hmark t rfl
      cases ht <;> cases this
    obtain ⟨run, tokens⟩ := l
    obtain rfl : run = .none := hnone
    cases hl
    obtain ⟨l₁, hchars, hfinish₁⟩ := foldlM_scalar tokens ht
    obtain ⟨l', hfold, hfinish⟩ := ih hfinish₁ (Or.inr hnext)
    refine ⟨l', ?_, by simpa using hfinish⟩
    rw [List.flatMap_cons, List.foldlM_append, hchars]
    exact hfold

end Lexer

theorem tokens?_flatMap_chars {ts : List Token} (hts : Spelled ts) :
    tokens? (ts.flatMap Token.chars) = some ts := by
  obtain ⟨l, hfold, hfinish⟩ :=
    Lexer.foldlM_spelled hts (l := ⟨.none, []⟩) rfl (Or.inl rfl)
  simp [tokens?, hfold, hfinish]

end WaveletRaster.Json
