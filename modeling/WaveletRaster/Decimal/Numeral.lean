/-! Decimal digits, the most significant first, and numerals: a sign, the digits before and after the
point, and a power of ten. This module writes numerals and reads them back; leading zeros, bare
points and bare signs are refused. -/

namespace WaveletRaster.Decimal

abbrev Digit := Fin 10

namespace Digit

def zero : Digit := ⟨0, by decide⟩

def char (d : Digit) : Char := Char.ofNat (48 + d.val)

def ofChar? (c : Char) : Option Digit :=
  if h : 48 ≤ c.toNat ∧ c.toNat < 58 then some ⟨c.toNat - 48, by omega⟩ else none

theorem ofChar?_char (d : Digit) : ofChar? d.char = some d := by
  revert d
  decide

end Digit

def appendDigits (n : Nat) (ds : List Digit) : Nat := ds.foldl (fun n d => 10 * n + d.val) n

def valueOf (ds : List Digit) : Nat := appendDigits 0 ds

def digitsOnto (n : Nat) (tail : List Digit) : List Digit :=
  let front := ⟨n % 10, Nat.mod_lt _ (by decide)⟩ :: tail
  if n < 10 then front else digitsOnto (n / 10) front

def digitsOf (n : Nat) : List Digit := digitsOnto n []

theorem appendDigits_digitsOnto (n : Nat) (tail : List Digit) :
    appendDigits 0 (digitsOnto n tail) = appendDigits n tail := by
  induction n using Nat.strongRecOn generalizing tail with
  | ind n ih =>
    rw [digitsOnto]
    split
    · simp [appendDigits, Nat.mod_eq_of_lt ‹_›]
    · rw [ih (n / 10) (by omega)]
      simp only [appendDigits, List.foldl_cons]
      congr 1
      omega

theorem valueOf_digitsOf (n : Nat) : valueOf (digitsOf n) = n :=
  appendDigits_digitsOnto n []

theorem digitsOnto_ne_nil (n : Nat) (tail : List Digit) : digitsOnto n tail ≠ [] := by
  induction n using Nat.strongRecOn generalizing tail with
  | ind n ih =>
    rw [digitsOnto]
    split
    · simp
    · exact ih (n / 10) (by omega) _

structure Numeral where
  negative : Bool
  whole : List Digit
  fraction : List Digit
  exponent : Option Int
  deriving DecidableEq

namespace Numeral

def ofInt (i : Int) : Numeral := ⟨i < 0, digitsOf i.natAbs, [], none⟩

def isInteger (n : Numeral) : Bool := n.fraction.isEmpty && n.exponent.isNone

def exponentChars (e : Int) : List Char :=
  'e' :: (if e < 0 then '-' else '+') :: (digitsOf e.natAbs).map Digit.char

/-- The characters of a numeral; an exponent always carries its sign. -/
def chars (n : Numeral) : List Char :=
  (if n.negative then ['-'] else []) ++ n.whole.map Digit.char ++
    (if n.fraction.isEmpty then [] else '.' :: n.fraction.map Digit.char) ++
    (n.exponent.map exponentChars).getD []

def takeDigits : List Char → List Digit × List Char
  | [] => ([], [])
  | c :: cs =>
    match Digit.ofChar? c with
    | none => ([], c :: cs)
    | some d =>
      let (ds, rest) := takeDigits cs
      (d :: ds, rest)

def takeSign : List Char → Bool × List Char
  | '-' :: cs => (true, cs)
  | '+' :: cs => (false, cs)
  | cs => (false, cs)

def readFraction? : List Char → Option (List Digit × List Char)
  | '.' :: cs =>
    match takeDigits cs with
    | ([], _) => none
    | found => some found
  | cs => some ([], cs)

def readExponent? : List Char → Option (Option Int)
  | [] => some none
  | c :: cs =>
    if c = 'e' ∨ c = 'E' then
      let (negative, cs) := takeSign cs
      match takeDigits cs with
      | ([], _) | (_, _ :: _) => none
      | (ds, []) => some (some (if negative then -(valueOf ds : Int) else valueOf ds))
    else none

def isPlainWhole : List Digit → Bool
  | [] => false
  | [_] => true
  | d :: _ => d ≠ Digit.zero

def ofChars? (cs : List Char) : Option Numeral := do
  let (negative, cs) := if cs.head? = some '-' then (true, cs.tail) else (false, cs)
  let (whole, cs) := takeDigits cs
  if !isPlainWhole whole then none
  else
    let (fraction, cs) ← readFraction? cs
    let exponent ← readExponent? cs
    return { negative, whole, fraction, exponent }

end Numeral
end WaveletRaster.Decimal
