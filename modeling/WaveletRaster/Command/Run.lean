import WaveletRaster.Command.Request
import WaveletRaster.Job.Json
import WaveletRaster.Job.Run

/-! Carrying out requests. A run reads the standard input and the named file, prints lines, and may
end with an error that has a cause. -/

namespace WaveletRaster

inductive FileFault where
  | notFound
  | notDirectory
  | isDirectory
  | nameTooLong
  | other (description : String)
  deriving DecidableEq

def FileFault.message : FileFault → String
  | notFound => "No such file or directory (os error 2)"
  | notDirectory => "Not a directory (os error 20)"
  | isDirectory => "Is a directory (os error 21)"
  | nameTooLong => "File name too long (os error 36)"
  | other description => description

/-- What a path leads to: nothing, or something whose size is told before it is read. Of a pipe, or
a file that grows, this is not the number of the bytes that are read. -/
inductive FileState where
  | missing (fault : FileFault)
  | present (size : Nat) (read : Except FileFault ByteArray)

namespace FileState

def contents (bytes : ByteArray) : FileState := present bytes.size (.ok bytes)

def unreadable (fault : FileFault) : FileState := present 0 (.error fault)

end FileState

structure Surroundings where
  input : ByteArray
  file : String → FileState

inductive RunError where
  | invalidEdge (cause : EdgeError)
  | refusedDispatch (error : EdgeError)
  | inputTooLarge (error : InputTooLarge)
  | unreadableInput
  | unreadableLine
  | missingFile (path : String) (fault : FileFault)
  | unreadableFile (path cause : String)
  | malformedSpec
  | invalidSpec (cause : ValidationError)
  deriving DecidableEq

namespace RunError

def notText : String := "stream did not contain valid UTF-8"

def message : RunError → String
  | invalidEdge _ => "Invalid edge"
  | refusedDispatch error => error.message
  | inputTooLarge error => error.message
  | unreadableInput => "Failed to read stdin"
  | unreadableLine => "Failed to read line from stdin"
  | missingFile path _ => s!"Failed to stat {path}"
  | unreadableFile path _ => s!"Failed to read {path}"
  | malformedSpec => "Failed to parse JSON job specification"
  | invalidSpec _ => "Job specification validation failed"

def cause? : RunError → Option String
  | invalidEdge cause => some cause.message
  | unreadableInput | unreadableLine => some notText
  | missingFile _ fault => some fault.message
  | unreadableFile _ cause => some cause
  | invalidSpec cause => some cause.message
  | refusedDispatch _ | inputTooLarge _ | malformedSpec => none

def indented (text : String) : String :=
  String.ofList ("    ".toList ++ text.toList.flatMap fun c =>
    if c = '\n' then '\n' :: "    ".toList else [c])

def report (e : RunError) : String :=
  match e.cause? with
  | none => s!"Error: {e.message}\n"
  | some cause => s!"Error: {e.message}\n\nCaused by:\n{indented cause}\n"

def reportLines (e : RunError) : List String :=
  (Text.lines '\n' '\r' e.report.toList).map String.ofList

end RunError

structure Outcome where
  lines : List String
  error : Option RunError
  deriving DecidableEq

namespace Outcome

def ofExcept : Except RunError (List String) → Outcome
  | .ok lines => ⟨lines, none⟩
  | .error e => ⟨[], some e⟩

end Outcome

def versionLine : String := "haarast 0.1.0"

def aboutLine : String := "Closed-form Haar wavelet coefficients for polygon edges"

def measureEdge (scale : Binary64) (points : List (Point Binary32)) :
    Except RunError (Moments Binary64) := do
  let s ← (Segment.ofPoints points).mapError .invalidEdge
  return s.moments scale

def momentsText (scale : Binary64) (m : Moments Binary64) : String :=
  let number (x : Binary64) : Json := .ofBinary .double x
  (Json.ofFields [("kx", number m.kx), ("ky", number m.ky), ("lx", number m.lx),
    ("ly", number m.ly), ("rscale", number scale)]).text

def runMoments (half : UInt32) (points : List (Point Binary32)) :
    Except RunError (List String) := do
  let scale : Binary64 := nodeScale half
  return [momentsText scale (← measureEdge scale points)]

def dispatchEdge (half quadrant : UInt32) (origin : Origin) (points : List (Point Binary32))
    (c : Coefficients Binary32) :
    Except RunError (Segment Binary32 × Origin × Coefficients Binary32) := do
  let s ← (Segment.ofPoints points).mapError .invalidEdge
  (s.tryDispatch half quadrant origin c).mapError .refusedDispatch

def dispatchText (quadrant : UInt32) (s : Segment Binary32) (origin : Origin)
    (c : Coefficients Binary32) : String :=
  let number (x : Binary32) : Json := .ofBinary .double (Precision.widen x)
  let point (p : Point Binary32) : Json := .array [number p.x, number p.y]
  (Json.ofFields [("coeffs", .ofList number c.toList), ("origin", origin.toJson),
    ("points", .ofList point s.points), ("quadrant", .ofInt quadrant.toNat)]).text

def runCoeffs (half quadrant : UInt32) (origin : Origin) (points : List (Point Binary32))
    (coefficients : Coefficients Binary32) : Except RunError (List String) := do
  let (s, origin, c) ← dispatchEdge half quadrant origin points coefficients
  return [dispatchText quadrant s origin c]

/-- The text of a specification. The size of a file is checked before its bytes are read as text,
that of the standard input afterwards. -/
def readSpecText (s : Surroundings) : Option String → Except RunError String
  | none =>
    match String.fromUTF8? s.input with
    | none => .error .unreadableInput
    | some text => do
      (checkInputSize text.utf8ByteSize).mapError .inputTooLarge
      return text
  | some path =>
    match s.file path with
    | .missing fault => .error (.missingFile path fault)
    | .present size read => do
      (checkInputSize size).mapError .inputTooLarge
      match read with
      | .error fault => .error (.unreadableFile path fault.message)
      | .ok bytes =>
        match String.fromUTF8? bytes with
        | none => .error (.unreadableFile path RunError.notText)
        | some text => return text

def runBatch (s : Surroundings) (input : Option String) : Except RunError (List String) := do
  let text ← readSpecText s input
  match JobSpec.parse? text with
  | none => .error .malformedSpec
  | some spec =>
    let results : List JobResult32 ← spec.run.mapError .invalidSpec
    return results.map JobResult.text

def inputLines (bytes : List UInt8) : List (List UInt8) := Text.lines 10 13 bytes

def runLine? (line : String) : Option JobResult32 :=
  if line.toList.all Text.isBlank then none else (Job.parse? line).map Job.run

/-- Jobs line by line. A line that is not text ends the run, after the results before it. -/
def runStream (lines : List (List UInt8)) : Outcome :=
  let texts := lines.map fun line => String.fromUTF8? ⟨line.toArray⟩
  let readable := (texts.takeWhile Option.isSome).filterMap id
  { lines := (readable.filterMap runLine?).map JobResult.text
    error := if texts.all Option.isSome then none else some .unreadableLine }

def Request.run (s : Surroundings) : Request → Outcome
  | .moments half points _ => .ofExcept (runMoments half points)
  | .coeffs half quadrant origin points coefficients _ =>
    .ofExcept (runCoeffs half quadrant origin points coefficients)
  | .batch input _ _ => .ofExcept (runBatch s input)
  | .stream _ => runStream (inputLines s.input.toList)
  | .version => ⟨[versionLine, aboutLine], none⟩

end WaveletRaster
