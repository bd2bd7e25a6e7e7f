import WaveletRaster.Command.Operand
import WaveletRaster.Job.Basic

/-! What can be asked for on the command line, and the options that say it. -/

namespace WaveletRaster

inductive Request where
  | moments (half : UInt32) (points : List (Point Binary32)) (verbose : Bool)
  | coeffs (half quadrant : UInt32) (origin : Origin) (points : List (Point Binary32))
      (coefficients : Coefficients Binary32) (verbose : Bool)
  | batch (input : Option String) (jobs : Nat) (verbose : Bool)
  | stream (verbose : Bool)
  | version
  deriving DecidableEq

inductive Command where
  | moments
  | coeffs
  | batch
  | stream
  | version
  deriving DecidableEq

inductive Key where
  | half
  | quadrant
  | origin
  | points
  | coeffs
  | input
  | jobs
  deriving DecidableEq

inductive Switch where
  | key (key : Key)
  | verbose
  | help
  deriving DecidableEq

namespace Key

def name : Key → String
  | half => "half"
  | quadrant => "quadrant"
  | origin => "origin"
  | points => "points"
  | coeffs => "coeffs"
  | input => "input"
  | jobs => "jobs"

def letter? : Key → Option Char
  | quadrant => some 'q'
  | points => some 'p'
  | input => some 'i'
  | _ => none

/-- Values of these options may begin with a hyphen: whatever follows the option is its value. -/
def takesHyphens : Key → Bool
  | origin | points | coeffs => true
  | half | quadrant | input | jobs => false

def usage (k : Key) : String := s!"--{k.name} <{k.name.toUpper}>"

end Key

namespace Switch

def name : Switch → String
  | key k => k.name
  | verbose => "verbose"
  | help => "help"

def letter? : Switch → Option Char
  | key k => k.letter?
  | verbose => some 'v'
  | help => some 'h'

end Switch

namespace Command

def all : List Command := [moments, coeffs, batch, stream, version]

def name : Command → String
  | moments => "moments"
  | coeffs => "coeffs"
  | batch => "batch"
  | stream => "stream"
  | version => "version"

def ofName? (name : String) : Option Command := all.find? (·.name = name)

def switches : Command → List Switch
  | moments => [.key .half, .key .points, .verbose, .help]
  | coeffs => [.key .half, .key .quadrant, .key .origin, .key .points, .key .coeffs, .verbose, .help]
  | batch => [.key .input, .key .jobs, .verbose, .help]
  | stream => [.verbose, .help]
  | version => [.help]

def switchNamed? (c : Command) (name : String) : Option Switch := c.switches.find? (·.name = name)

def switchLettered? (c : Command) (letter : Char) : Option Switch :=
  c.switches.find? (·.letter? = some letter)

end Command

inductive ValueError where
  | integer (fault : Decimal.IntegerFault)
  | outOfRange (value : Int) (least greatest : Nat)
  | operand (error : OperandError)
  deriving DecidableEq

def ValueError.message : ValueError → String
  | integer fault => fault.message
  | outOfRange value least greatest => s!"{value} is not in {least}..={greatest}"
  | operand error => error.message

/-- Why arguments were not accepted as a command. Help and the version are answers of this kind. -/
inductive ArgumentError where
  | helpRequested
  | versionRequested
  | commandMissing
  | unknownCommand
  | unknownArgument
  | valueMissing
  | requiredMissing
  | repeated
  | surplusValue
  | invalidValue (key : Key) (error : ValueError)
  deriving DecidableEq

structure OptionValues where
  half : Option UInt32 := none
  quadrant : Option UInt32 := none
  origin : Option Origin := none
  points : Option (List (Point Binary32)) := none
  coefficients : Option (Coefficients Binary32) := none
  input : Option String := none
  jobs : Option Nat := none
  verbose : Bool := false
  deriving DecidableEq

namespace OptionValues

def readRanged (least greatest : Nat) (text : String) : Except ValueError UInt32 := do
  let value ← (Decimal.IntegerRange.int64.read text.toList).mapError .integer
  if least ≤ value ∧ value ≤ greatest then return UInt32.ofNat value.toNat
  else .error (.outOfRange value least greatest)

def readJobs (text : String) : Except ValueError Nat := do
  let value ← (Decimal.IntegerRange.uint64.read text.toList).mapError .integer
  return value.toNat

def has (v : OptionValues) : Key → Bool
  | .half => v.half.isSome
  | .quadrant => v.quadrant.isSome
  | .origin => v.origin.isSome
  | .points => v.points.isSome
  | .coeffs => v.coefficients.isSome
  | .input => v.input.isSome
  | .jobs => v.jobs.isSome

def read (v : OptionValues) (key : Key) (text : String) : Except ValueError OptionValues :=
  match key with
  | .half => do return { v with half := some (← readRanged 1 Limits.maxHalf text) }
  | .quadrant => do return { v with quadrant := some (← readRanged 0 3 text) }
  | .origin => do return { v with origin := some (← (Operand.readOrigin text).mapError .operand) }
  | .points => do return { v with points := some (← (Operand.readPoints text).mapError .operand) }
  | .coeffs => do
    return { v with coefficients := some (← (Operand.readCoefficients text).mapError .operand) }
  | .input => .ok { v with input := some text }
  | .jobs => do return { v with jobs := some (← readJobs text) }

def set (v : OptionValues) (key : Key) (text : String) : Except ArgumentError OptionValues :=
  if v.has key then .error .repeated else (v.read key text).mapError (.invalidValue key)

def setVerbose (v : OptionValues) : Except ArgumentError OptionValues :=
  if v.verbose then .error .repeated else .ok { v with verbose := true }

def required {α : Type} (value : Option α) : Except ArgumentError α :=
  match value with
  | some x => .ok x
  | none => .error .requiredMissing

def request (v : OptionValues) : Command → Except ArgumentError Request
  | .moments => do return .moments (← required v.half) (← required v.points) v.verbose
  | .coeffs => do
    return .coeffs (← required v.half) (← required v.quadrant) (v.origin.getD .zero)
      (← required v.points) (v.coefficients.getD .zero) v.verbose
  | .batch => .ok (.batch v.input (v.jobs.getD 0) v.verbose)
  | .stream => .ok (.stream v.verbose)
  | .version => .ok .version

end OptionValues
end WaveletRaster
