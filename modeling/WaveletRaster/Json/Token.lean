import WaveletRaster.Decimal.Numeral
import WaveletRaster.Json.Quoted

/-! Tokens of a JSON text. The lexer reads one character at a time and keeps the token that it is in
the middle of. -/

namespace WaveletRaster.Json

def isBlank (c : Char) : Bool := c = ' ' || c = '\t' || c = '\n' || c = '\r'

inductive Token where
  | openBrace
  | closeBrace
  | openBracket
  | closeBracket
  | comma
  | colon
  | null
  | bool (value : Bool)
  | number (numeral : Decimal.Numeral)
  | string (body : List Char)
  deriving DecidableEq

namespace Token

def chars : Token → List Char
  | openBrace => ['{']
  | closeBrace => ['}']
  | openBracket => ['[']
  | closeBracket => [']']
  | comma => [',']
  | colon => [':']
  | null => ['n', 'u', 'l', 'l']
  | bool true => ['t', 'r', 'u', 'e']
  | bool false => ['f', 'a', 'l', 's', 'e']
  | number n => n.chars
  | string body => '"' :: body ++ ['"']

def ofWord? (word : List Char) : Option Token :=
  if word = ['n', 'u', 'l', 'l'] then some null
  else if word = ['t', 'r', 'u', 'e'] then some (bool true)
  else if word = ['f', 'a', 'l', 's', 'e'] then some (bool false)
  else none

def ofMark? (c : Char) : Option Token :=
  if c = '{' then some openBrace
  else if c = '}' then some closeBrace
  else if c = '[' then some openBracket
  else if c = ']' then some closeBracket
  else if c = ',' then some comma
  else if c = ':' then some colon
  else none

end Token

/-- The characters read so far of the token that the lexer is in, the last one first. -/
inductive Run where
  | none
  | word (reversed : List Char)
  | number (reversed : List Char)
  | quoted (reversed : List Char) (escaped : Bool)
  deriving DecidableEq

structure Lexer where
  run : Run
  tokens : List Token
  deriving DecidableEq

namespace Lexer

def isWordChar (c : Char) : Bool := 'a' ≤ c && c ≤ 'z'

def isNumberStart (c : Char) : Bool := c.isDigit || c = '-'

def isNumberChar (c : Char) : Bool :=
  isNumberStart c || c = '+' || c = '.' || c = 'e' || c = 'E'

def start? (tokens : List Token) (c : Char) : Option Lexer :=
  if isBlank c then some ⟨.none, tokens⟩
  else if c = '"' then some ⟨.quoted [] false, tokens⟩
  else if isNumberStart c then some ⟨.number [c], tokens⟩
  else if isWordChar c then some ⟨.word [c], tokens⟩
  else (Token.ofMark? c).map fun t => ⟨.none, t :: tokens⟩

/-- Ends the run in progress; a string ends only at its quote. -/
def finish? (l : Lexer) : Option (List Token) :=
  match l.run with
  | .none => some l.tokens
  | .word cs => (Token.ofWord? cs.reverse).map (· :: l.tokens)
  | .number cs => (Decimal.Numeral.ofChars? cs.reverse).map (.number · :: l.tokens)
  | .quoted .. => none

def step? (l : Lexer) (c : Char) : Option Lexer :=
  match l.run with
  | .none => start? l.tokens c
  | .word cs =>
    if isWordChar c then some { l with run := .word (c :: cs) }
    else l.finish?.bind (start? · c)
  | .number cs =>
    if isNumberChar c then some { l with run := .number (c :: cs) }
    else l.finish?.bind (start? · c)
  | .quoted cs true => some { l with run := .quoted (c :: cs) false }
  | .quoted cs false =>
    if c = '"' then
      if isWellFormed cs.reverse then some ⟨.none, .string cs.reverse :: l.tokens⟩ else none
    else some { l with run := .quoted (c :: cs) (c = '\\') }

end Lexer

def tokens? (cs : List Char) : Option (List Token) := do
  let l ← cs.foldlM Lexer.step? ⟨.none, []⟩
  return (← l.finish?).reverse

end WaveletRaster.Json
