import WaveletRaster.Coefficients
import WaveletRaster.Decimal.Integer
import WaveletRaster.Decimal.Literal
import WaveletRaster.Point
import WaveletRaster.Text.Basic

/-! Points, origins and coefficients as they are typed. Points are pairs separated by white space;
within a pair, an origin and a list of coefficients the separator is a comma. -/

namespace WaveletRaster

open Decimal (IntegerFault IntegerRange LiteralFault readLiteral)

/-- What is wrong with an operand; `text` is the part that is quoted in the message. -/
inductive OperandError where
  | notAPair (text : List Char)
  | badX (text : List Char) (fault : LiteralFault)
  | badY (text : List Char) (fault : LiteralFault)
  | badOriginX (fault : IntegerFault)
  | badOriginY (fault : IntegerFault)
  | badCoefficient (fault : LiteralFault)
  | coefficientCount (count : Nat)
  deriving DecidableEq

def OperandError.message : OperandError → String
  | notAPair text => s!"expected \"x,y\", got {Text.quoted text}"
  | badX text fault => s!"bad x in {Text.quoted text}: {fault.message}"
  | badY text fault => s!"bad y in {Text.quoted text}: {fault.message}"
  | badOriginX fault => s!"bad origin x: {fault.message}"
  | badOriginY fault => s!"bad origin y: {fault.message}"
  | badCoefficient fault => fault.message
  | coefficientCount count => s!"expected 3 coefficients, got {count}"

namespace Operand

def isComma (c : Char) : Bool := c = ','

def readPoint (text : List Char) : Except OperandError (Point Binary32) :=
  match Text.splitFirst? isComma text with
  | none => .error (.notAPair text)
  | some (x, y) => do
    let x ← (readLiteral (Text.trim x)).mapError (.badX text)
    let y ← (readLiteral (Text.trim y)).mapError (.badY text)
    return ⟨x, y⟩

def readPoints (text : String) : Except OperandError (List (Point Binary32)) :=
  (Text.words text.toList).mapM readPoint

def readOrigin (text : String) : Except OperandError Origin :=
  match (Text.splitOn isComma text.toList).map Text.trim with
  | [x, y] => do
    let x ← (IntegerRange.int32.read x).mapError .badOriginX
    let y ← (IntegerRange.int32.read y).mapError .badOriginY
    return ⟨Int32.ofInt x, Int32.ofInt y⟩
  | _ => .error (.notAPair text.toList)

def readCoefficients (text : String) : Except OperandError (Coefficients Binary32) := do
  let values ← (Text.splitOn isComma text.toList).mapM fun part =>
    (readLiteral (Text.trim part)).mapError .badCoefficient
  match values with
  | [h, v, d] => return ⟨h, v, d⟩
  | values => .error (.coefficientCount values.length)

end Operand
end WaveletRaster
