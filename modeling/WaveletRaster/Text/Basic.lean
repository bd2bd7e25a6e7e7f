import WaveletRaster.Text.Unprintable

/-! Texts cut at separators, into lines, and into the words between white space, as the Unicode
property of that name has it; and texts quoted in messages, so that every character of them can be
seen. -/

namespace WaveletRaster.Text

section
variable {α : Type}

def splitOn (isSeparator : α → Bool) (xs : List α) : List (List α) :=
  let (pieces, current) := xs.foldl (fun (pieces, current) x =>
    if isSeparator x then (current.reverse :: pieces, []) else (pieces, x :: current)) ([], [])
  (current.reverse :: pieces).reverse

def splitFirst? (isSeparator : α → Bool) (xs : List α) : Option (List α × List α) :=
  match xs.dropWhile (!isSeparator ·) with
  | [] => none
  | _ :: rest => some (xs.takeWhile (!isSeparator ·), rest)

/-- The lines of a text. A line ends at a line feed, and a carriage return right before it is
dropped; what stands behind the last line feed is a line unless it is empty. -/
def lines [DecidableEq α] (lineFeed carriageReturn : α) (xs : List α) : List (List α) :=
  let pieces := splitOn (· = lineFeed) xs
  let complete := pieces.dropLast.map fun piece =>
    if piece.getLast? = some carriageReturn then piece.dropLast else piece
  let unfinished := pieces.getLast?.getD []
  if unfinished.isEmpty then complete else complete ++ [unfinished]

end

def isBlank (c : Char) : Bool :=
  let n := c.toNat
  (0x09 ≤ n && n ≤ 0x0d) || n = 0x20 || n = 0x85 || n = 0xa0 || n = 0x1680 ||
    (0x2000 ≤ n && n ≤ 0x200a) || n = 0x2028 || n = 0x2029 || n = 0x202f || n = 0x205f || n = 0x3000

def trim (cs : List Char) : List Char :=
  ((cs.dropWhile isBlank).reverse.dropWhile isBlank).reverse

def words (cs : List Char) : List (List Char) := (splitOn isBlank cs).filter (!·.isEmpty)

def hexOnto (n : Nat) (tail : List Char) : List Char :=
  let digit := Char.ofNat (if n % 16 < 10 then 48 + n % 16 else 87 + n % 16)
  if n < 16 then digit :: tail else hexOnto (n / 16) (digit :: tail)

def quoteChar (c : Char) : List Char :=
  if c = '"' ∨ c = '\\' then ['\\', c]
  else if c = '\n' then ['\\', 'n']
  else if c = '\r' then ['\\', 'r']
  else if c = '\t' then ['\\', 't']
  else if c.toNat = 0 then ['\\', '0']
  else if isUnprintable c then '\\' :: 'u' :: '\x7b' :: hexOnto c.toNat ['\x7d']
  else [c]

def quoted (cs : List Char) : String := String.ofList ('"' :: cs.flatMap quoteChar ++ ['"'])

end WaveletRaster.Text
