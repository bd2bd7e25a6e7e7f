import Mathlib
import WaveletRaster.Proofs.Json.Text

/-! The reader accepts the tokens of a value and nothing else, so a value that was read has the
tokens that were read. -/

namespace WaveletRaster.Json

mutual

theorem tokensOnto_eq (v : Json) (tail : List Token) : tokensOnto v tail = v.tokens ++ tail := by
  match v with
  | .null => rfl
  | .bool _ => rfl
  | .number _ => rfl
  | .string _ => rfl
  | .array items =>
    rw [tokens, tokensOnto, tokensOnto, itemsOnto_eq, itemsOnto_eq items [_]]
    simp
  | .object entries =>
    rw [tokens, tokensOnto, tokensOnto, entriesOnto_eq, entriesOnto_eq entries [_]]
    simp
termination_by sizeOf v

theorem itemsOnto_eq (items : List Json) (tail : List Token) :
    itemsOnto items tail = itemsOnto items [] ++ tail := by
  match items with
  | [] => rfl
  | [v] => exact tokensOnto_eq v tail
  | v :: w :: rest =>
    rw [itemsOnto, itemsOnto, tokensOnto_eq, tokensOnto_eq v, itemsOnto_eq (w :: rest)]
    simp
termination_by sizeOf items

theorem entriesOnto_eq (entries : List (List Char × Json)) (tail : List Token) :
    entriesOnto entries tail = entriesOnto entries [] ++ tail := by
  match entries with
  | [] => rfl
  | [(k, v)] =>
    rw [entriesOnto, entriesOnto, tokensOnto_eq, tokensOnto_eq v []]
    simp
  | (k, v) :: e :: rest =>
    rw [entriesOnto, entriesOnto, tokensOnto_eq, tokensOnto_eq v, entriesOnto_eq (e :: rest)]
    simp
termination_by sizeOf entries

end

def itemTokens (v : Json) : List Token := v.tokens ++ [.comma]

def entryTokens (e : List Char × Json) : List Token := .string e.1 :: .colon :: itemTokens e.2

theorem itemsOnto_append_singleton (items : List Json) (v : Json) (tail : List Token) :
    itemsOnto (items ++ [v]) tail = items.flatMap itemTokens ++ (v.tokens ++ tail) := by
  induction items with
  | nil => exact tokensOnto_eq v tail
  | cons w items ih =>
    obtain ⟨x, rest, hrest⟩ := List.exists_cons_of_ne_nil (List.concat_ne_nil v items)
    rw [List.cons_append, hrest, itemsOnto, ← hrest, ih, tokensOnto_eq]
    simp [itemTokens]

theorem entriesOnto_append_singleton (entries : List (List Char × Json)) (k : List Char) (v : Json)
    (tail : List Token) : entriesOnto (entries ++ [(k, v)]) tail =
      entries.flatMap entryTokens ++ (.string k :: .colon :: (v.tokens ++ tail)) := by
  induction entries with
  | nil => exact congrArg (.string k :: .colon :: ·) (tokensOnto_eq v tail)
  | cons e entries ih =>
    obtain ⟨x, rest, hrest⟩ := List.exists_cons_of_ne_nil (List.concat_ne_nil (k, v) entries)
    rw [List.cons_append, hrest, entriesOnto, ← hrest, ih, tokensOnto_eq]
    simp [entryTokens, itemTokens]

def Frame.tokens : Frame → List Token
  | .array items => .openBracket :: items.reverse.flatMap itemTokens
  | .object entries k =>
    .openBrace :: entries.reverse.flatMap entryTokens ++ [.string k, .colon]

def framesTokens (frames : List Frame) : List Token := frames.reverse.flatMap Frame.tokens

namespace Stage

def tokens : Stage → List Token
  | value frames _ => framesTokens frames
  | key entries frames _ => framesTokens frames ++ .openBrace :: entries.reverse.flatMap entryTokens
  | colon entries k frames =>
    framesTokens frames ++ .openBrace :: entries.reverse.flatMap entryTokens ++ [.string k]
  | done v frames => framesTokens frames ++ v.tokens

/-- Nothing was read of an array or object whose first item or entry is still due. -/
def IsFresh : Stage → Prop
  | value frames true => ∃ rest, frames = .array [] :: rest
  | key entries _ true => entries = []
  | _ => True

theorem beginValue?_eq_some {frames : List Frame} {first : Bool} {t : Token} {next : Stage}
    (h : beginValue? frames first t = some next) (hfresh : (value frames first).IsFresh) :
    next.IsFresh ∧ next.tokens = framesTokens frames ++ [t] := by
  cases t with
  | null | bool | number | string =>
    cases h
    exact ⟨trivial, rfl⟩
  | openBracket =>
    cases h
    exact ⟨⟨_, rfl⟩, by simp [tokens, framesTokens, Frame.tokens]⟩
  | openBrace =>
    cases h
    exact ⟨rfl, by simp [tokens]⟩
  | closeBracket =>
    cases first with
    | false => cases h
    | true =>
      obtain ⟨rest, rfl⟩ := hfresh
      cases h
      exact ⟨trivial, by simp [tokens, framesTokens, Frame.tokens]; rfl⟩
  | closeBrace | comma | colon => cases h

theorem afterValue?_eq_some {v : Json} {frames : List Frame} {t : Token} {next : Stage}
    (h : afterValue? v frames t = some next) :
    next.IsFresh ∧ next.tokens = framesTokens frames ++ v.tokens ++ [t] := by
  unfold afterValue? at h
  split at h
  · cases h
    exact ⟨trivial, by simp [tokens, framesTokens, Frame.tokens, itemTokens]⟩
  · cases h
    refine ⟨trivial, ?_⟩
    rw [tokens, Json.tokens, tokensOnto, List.reverse_cons, itemsOnto_append_singleton]
    simp [framesTokens, Frame.tokens]
  · cases h
    exact ⟨trivial, by simp [tokens, framesTokens, Frame.tokens, entryTokens, itemTokens]⟩
  · cases h
    refine ⟨trivial, ?_⟩
    rw [tokens, Json.tokens, tokensOnto, List.reverse_cons, entriesOnto_append_singleton]
    simp [framesTokens, Frame.tokens]
  · cases h

theorem step?_eq_some {stage next : Stage} {t : Token} (h : stage.step? t = some next)
    (hfresh : stage.IsFresh) : next.IsFresh ∧ next.tokens = stage.tokens ++ [t] := by
  unfold step? at h
  split at h
  · exact beginValue?_eq_some h hfresh
  · cases h
    exact ⟨trivial, rfl⟩
  · obtain rfl := hfresh
    cases h
    exact ⟨trivial, by simp [tokens]; rfl⟩
  · cases h
  · cases h
    exact ⟨trivial, by simp [tokens, framesTokens, Frame.tokens]⟩
  · cases h
  · exact afterValue?_eq_some h

theorem tokens_of_foldlM {ts : List Token} {stage last : Stage} (h : ts.foldlM step? stage = some last)
    (hfresh : stage.IsFresh) : last.tokens = stage.tokens ++ ts := by
  induction ts generalizing stage with
  | nil =>
    cases h
    exact (List.append_nil _).symm
  | cons t ts ih =>
    rw [List.foldlM_cons] at h
    obtain ⟨next, hstep, hrest⟩ := Option.bind_eq_some_iff.mp h
    obtain ⟨hnext, htokens⟩ := step?_eq_some hstep hfresh
    rw [ih hrest hnext, htokens, List.append_assoc, List.singleton_append]

end Stage

theorem ofTokens?_eq_some_iff {ts : List Token} {v : Json} : ofTokens? ts = some v ↔ ts = v.tokens := by
  constructor
  · intro h
    obtain ⟨last, hfold, hresult⟩ := Option.bind_eq_some_iff.mp h
    have hlast : last = .done v [] := by
      unfold Stage.result? at hresult
      split at hresult
      · cases hresult
        rfl
      · cases hresult
    have htokens := Stage.tokens_of_foldlM hfold trivial
    rw [hlast] at htokens
    exact htokens.symm
  · rintro rfl
    exact ofTokens?_tokens v

end WaveletRaster.Json
