import Mathlib
import WaveletRaster.Json.Record
import WaveletRaster.Proofs.Json.Token

/-! The written form of a value reads back as the value, if its numerals are plain and its texts
escaped. -/

namespace WaveletRaster.Json

open Decimal (Numeral)

namespace Stage

mutual

theorem foldlM_tokensOnto (v : Json) (frames : List Frame) (first : Bool) (tail : List Token) :
    (tokensOnto v tail).foldlM step? (value frames first) = tail.foldlM step? (done v frames) := by
  match v with
  | .null => rfl
  | .bool _ => rfl
  | .number _ => rfl
  | .string _ => rfl
  | .array [] => rfl
  | .array (v :: rest) => exact foldlM_itemsOnto v rest [] frames true tail
  | .object [] => rfl
  | .object ((k, v) :: rest) => exact foldlM_entriesOnto k v rest [] frames true tail
termination_by sizeOf v

theorem foldlM_itemsOnto (v : Json) (rest reversed : List Json) (frames : List Frame) (first : Bool)
    (tail : List Token) :
    (itemsOnto (v :: rest) (.closeBracket :: tail)).foldlM step?
        (value (.array reversed :: frames) first) =
      tail.foldlM step? (done (.array (reversed.reverse ++ v :: rest)) frames) := by
  match rest with
  | [] =>
    have hclose : step? (done v (.array reversed :: frames)) .closeBracket =
        some (done (.array (v :: reversed).reverse) frames) := rfl
    rw [itemsOnto, foldlM_tokensOnto, List.foldlM_cons, hclose, List.reverse_cons]
    rfl
  | w :: rest =>
    have hcomma : step? (done v (.array reversed :: frames)) .comma =
        some (value (.array (v :: reversed) :: frames) false) := rfl
    rw [itemsOnto, foldlM_tokensOnto, List.foldlM_cons, hcomma, Option.bind_eq_bind,
      Option.bind_some, foldlM_itemsOnto, List.reverse_cons, List.append_assoc,
      List.singleton_append]
termination_by sizeOf (v :: rest)

theorem foldlM_entriesOnto (k : List Char) (v : Json) (rest reversed : List (List Char × Json))
    (frames : List Frame) (first : Bool) (tail : List Token) :
    (entriesOnto ((k, v) :: rest) (.closeBrace :: tail)).foldlM step? (key reversed frames first) =
      tail.foldlM step? (done (.object (reversed.reverse ++ (k, v) :: rest)) frames) := by
  have hkey (ts : List Token) :
      (.string k :: .colon :: ts).foldlM step? (key reversed frames first) =
        ts.foldlM step? (value (.object reversed k :: frames) false) := rfl
  match rest with
  | [] =>
    have hclose : step? (done v (.object reversed k :: frames)) .closeBrace =
        some (done (.object ((k, v) :: reversed).reverse) frames) := rfl
    rw [entriesOnto, hkey, foldlM_tokensOnto, List.foldlM_cons, hclose, List.reverse_cons]
    rfl
  | (l, w) :: rest =>
    have hcomma : step? (done v (.object reversed k :: frames)) .comma =
        some (key ((k, v) :: reversed) frames false) := rfl
    rw [entriesOnto, hkey, foldlM_tokensOnto, List.foldlM_cons, hcomma, Option.bind_eq_bind,
      Option.bind_some, foldlM_entriesOnto, List.reverse_cons, List.append_assoc,
      List.singleton_append]
termination_by sizeOf ((k, v) :: rest)

end

end Stage

theorem ofTokens?_tokens (v : Json) : ofTokens? v.tokens = some v := by
  rw [ofTokens?, tokens, Stage.foldlM_tokensOnto]
  rfl

inductive Plain : Json → Prop where
  | null : Plain .null
  | bool (b : Bool) : Plain (.bool b)
  | number {n : Numeral} (h : Numeral.isPlainWhole n.whole) : Plain (.number n)
  | ofString (s : String) : Plain (.ofString s)
  | array {items : List Json} (h : ∀ v ∈ items, Plain v) : Plain (.array items)
  | ofFields {entries : List (String × Json)} (h : ∀ e ∈ entries, Plain e.2) :
    Plain (.ofFields entries)

/-- The tokens of `v` can be told apart in front of any others that can. -/
def IsSpelled (v : Json) : Prop :=
  ∀ {tail : List Token}, Spelled tail → StartsWithMark tail → Spelled (tokensOnto v tail)

theorem spelled_itemsOnto {items : List Json} (h : ∀ v ∈ items, v.IsSpelled) {tail : List Token}
    (hspelled : Spelled tail) (hmark : StartsWithMark tail) : Spelled (itemsOnto items tail) := by
  match items with
  | [] => exact hspelled
  | [v] => exact h v List.mem_cons_self hspelled hmark
  | v :: w :: rest =>
    obtain ⟨hv, hrest⟩ := List.forall_mem_cons.mp h
    exact hv (.mark rfl (spelled_itemsOnto hrest hspelled hmark)) (startsWithMark_cons rfl _)

theorem spelled_entriesOnto {entries : List (String × Json)} (h : ∀ e ∈ entries, e.2.IsSpelled)
    {tail : List Token} (hspelled : Spelled tail) (hmark : StartsWithMark tail) :
    Spelled (entriesOnto (entries.map fun (k, v) => (escape k, v)) tail) := by
  have hentry (k : String) {ts : List Token} (hts : Spelled ts) :
      Spelled (.string (escape k) :: .colon :: ts) :=
    .scalar (.string k) (startsWithMark_cons rfl _) (.mark rfl hts)
  match entries with
  | [] => exact hspelled
  | [(k, v)] => exact hentry k (h (k, v) List.mem_cons_self hspelled hmark)
  | (k, v) :: e :: rest =>
    obtain ⟨hv, hrest⟩ := List.forall_mem_cons.mp h
    have htail := spelled_entriesOnto hrest hspelled hmark
    exact hentry k (hv (.mark rfl htail) (startsWithMark_cons rfl _))

theorem Plain.isSpelled {v : Json} (h : v.Plain) : v.IsSpelled := by
  induction h with
  | null => exact fun hspelled hmark => .scalar .null hmark hspelled
  | bool b => exact fun hspelled hmark => .scalar (.bool b) hmark hspelled
  | number h => exact fun hspelled hmark => .scalar (.number h) hmark hspelled
  | ofString s => exact fun hspelled hmark => .scalar (.string s) hmark hspelled
  | array _ ih =>
    exact fun hspelled _ =>
      .mark rfl (spelled_itemsOnto ih (.mark rfl hspelled) (startsWithMark_cons rfl _))
  | ofFields _ ih =>
    exact fun hspelled _ =>
      .mark rfl (spelled_entriesOnto ih (.mark rfl hspelled) (startsWithMark_cons rfl _))

theorem Plain.parse?_text {v : Json} (h : v.Plain) : parse? v.text = some v := by
  have hspelled : Spelled v.tokens := h.isSpelled .nil nofun
  rw [parse?, text, String.toList_ofList, tokens?_flatMap_chars hspelled]
  exact ofTokens?_tokens v

end WaveletRaster.Json
