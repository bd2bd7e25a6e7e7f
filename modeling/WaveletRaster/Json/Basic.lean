import WaveletRaster.Json.Token

/-! JSON values as syntax: numbers keep their numeral and strings the body between their quotes,
escapes included. A value is written as its tokens, without blanks between them. The reader keeps
open arrays and objects on a stack, so texts may nest to any depth. -/

namespace WaveletRaster

inductive Json where
  | null
  | bool (value : Bool)
  | number (numeral : Decimal.Numeral)
  | string (body : List Char)
  | array (items : List Json)
  | object (entries : List (List Char × Json))

end WaveletRaster

namespace WaveletRaster.Json

mutual

def tokensOnto : Json → List Token → List Token
  | .null, tail => .null :: tail
  | .bool b, tail => .bool b :: tail
  | .number n, tail => .number n :: tail
  | .string s, tail => .string s :: tail
  | .array items, tail => .openBracket :: itemsOnto items (.closeBracket :: tail)
  | .object entries, tail => .openBrace :: entriesOnto entries (.closeBrace :: tail)

def itemsOnto : List Json → List Token → List Token
  | [], tail => tail
  | [v], tail => tokensOnto v tail
  | v :: w :: rest, tail => tokensOnto v (.comma :: itemsOnto (w :: rest) tail)

def entriesOnto : List (List Char × Json) → List Token → List Token
  | [], tail => tail
  | [(k, v)], tail => .string k :: .colon :: tokensOnto v tail
  | (k, v) :: e :: rest, tail =>
    .string k :: .colon :: tokensOnto v (.comma :: entriesOnto (e :: rest) tail)

end

def tokens (v : Json) : List Token := tokensOnto v []

def text (v : Json) : String := String.ofList (v.tokens.flatMap Token.chars)

/-- An open array with its items so far, or an open object with its entries so far and the key whose
value is being read; the last item and entry first. -/
inductive Frame where
  | array (items : List Json)
  | object (entries : List (List Char × Json)) (key : List Char)

/-- What the reader stands in front of: a value, a key (or the end, right after an opening bracket),
a colon, or what follows a complete value. -/
inductive Stage where
  | value (frames : List Frame) (first : Bool)
  | key (entries : List (List Char × Json)) (frames : List Frame) (first : Bool)
  | colon (entries : List (List Char × Json)) (key : List Char) (frames : List Frame)
  | done (value : Json) (frames : List Frame)

namespace Stage

def beginValue? (frames : List Frame) (first : Bool) : Token → Option Stage
  | .null => some (done .null frames)
  | .bool b => some (done (.bool b) frames)
  | .number n => some (done (.number n) frames)
  | .string s => some (done (.string s) frames)
  | .openBracket => some (value (.array [] :: frames) true)
  | .openBrace => some (key [] frames true)
  | .closeBracket =>
    match first, frames with
    | true, .array _ :: rest => some (done (.array []) rest)
    | _, _ => none
  | _ => none

def afterValue? (v : Json) : List Frame → Token → Option Stage
  | .array items :: rest, .comma => some (value (.array (v :: items) :: rest) false)
  | .array items :: rest, .closeBracket => some (done (.array (v :: items).reverse) rest)
  | .object entries k :: rest, .comma => some (key ((k, v) :: entries) rest false)
  | .object entries k :: rest, .closeBrace => some (done (.object ((k, v) :: entries).reverse) rest)
  | _, _ => none

def step? : Stage → Token → Option Stage
  | value frames first, t => beginValue? frames first t
  | key entries frames _, .string k => some (colon entries k frames)
  | key _ frames true, .closeBrace => some (done (.object []) frames)
  | key .., _ => none
  | colon entries k frames, .colon => some (value (.object entries k :: frames) false)
  | colon .., _ => none
  | done v frames, t => afterValue? v frames t

def result? : Stage → Option Json
  | done v [] => some v
  | _ => none

end Stage

def ofTokens? (ts : List Token) : Option Json := do
  (← ts.foldlM Stage.step? (.value [] false)).result?

def parse? (s : String) : Option Json := do ofTokens? (← tokens? s.toList)

end WaveletRaster.Json
