/-! String bodies: the text between the quotes of a JSON string, with its escapes. A body that is
well formed may still denote no text, when it escapes half of a surrogate pair. -/

namespace WaveletRaster.Json

def hexDigit (n : Nat) : Char := Char.ofNat (if n < 10 then 48 + n else 87 + n)

def hexValue? (c : Char) : Option Nat :=
  if '0' ≤ c ∧ c ≤ '9' then some (c.toNat - 48)
  else if 'a' ≤ c ∧ c ≤ 'f' then some (c.toNat - 87)
  else if 'A' ≤ c ∧ c ≤ 'F' then some (c.toNat - 55)
  else none

def escapeChar (c : Char) : List Char :=
  if c = '"' then ['\\', '"']
  else if c = '\\' then ['\\', '\\']
  else if c = '\x08' then ['\\', 'b']
  else if c = '\x0c' then ['\\', 'f']
  else if c = '\n' then ['\\', 'n']
  else if c = '\r' then ['\\', 'r']
  else if c = '\t' then ['\\', 't']
  else if c < ' ' then ['\\', 'u', '0', '0', hexDigit (c.toNat / 16), hexDigit (c.toNat % 16)]
  else [c]

def escape (s : String) : List Char := s.toList.flatMap escapeChar

def unescapeLetter? (c : Char) : Option Char :=
  if c = '"' ∨ c = '\\' ∨ c = '/' then some c
  else if c = 'b' then some '\x08'
  else if c = 'f' then some '\x0c'
  else if c = 'n' then some '\n'
  else if c = 'r' then some '\r'
  else if c = 't' then some '\t'
  else none

/-- The codes of a body in front of which `reversed` was read: a character gives its code point, a
four-digit escape its value. A raw control character and an unknown escape are refused. -/
def codesOnto? (reversed : List Nat) : List Char → Option (List Nat)
  | [] => some reversed.reverse
  | '\\' :: 'u' :: a :: b :: c :: d :: rest =>
    match hexValue? a, hexValue? b, hexValue? c, hexValue? d with
    | some a, some b, some c, some d =>
      codesOnto? ((((a * 16 + b) * 16 + c) * 16 + d) :: reversed) rest
    | _, _, _, _ => none
  | '\\' :: c :: rest =>
    match unescapeLetter? c with
    | some c => codesOnto? (c.toNat :: reversed) rest
    | none => none
  | c :: rest => if c = '\\' ∨ c < ' ' then none else codesOnto? (c.toNat :: reversed) rest

def codes? (body : List Char) : Option (List Nat) := codesOnto? [] body

def isHighSurrogate (n : Nat) : Bool := 0xD800 ≤ n && n < 0xDC00

def isLowSurrogate (n : Nat) : Bool := 0xDC00 ≤ n && n < 0xE000

/-- Joins surrogate pairs; half a pair is refused. -/
def joinOnto? (reversed : List Char) : List Nat → Option (List Char)
  | [] => some reversed.reverse
  | n :: rest =>
    if isLowSurrogate n then none
    else if isHighSurrogate n then
      match rest with
      | m :: rest =>
        if isLowSurrogate m then
          joinOnto? (Char.ofNat (0x10000 + (n - 0xD800) * 0x400 + (m - 0xDC00)) :: reversed) rest
        else none
      | [] => none
    else joinOnto? (Char.ofNat n :: reversed) rest

def isWellFormed (body : List Char) : Bool := (codes? body).isSome

def textOf? (body : List Char) : Option String := do
  return String.ofList (← joinOnto? [] (← codes? body))

end WaveletRaster.Json
