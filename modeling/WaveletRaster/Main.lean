import WaveletRaster.Command.Arguments
import WaveletRaster.Command.Run

/-! The program: reads its arguments, the standard input and the named file, and prints. The size of
a file is taken from its bytes. -/

open WaveletRaster

def usageLines : List String :=
  [aboutLine, "", "Usage: haarast <COMMAND>", "",
    "Commands: moments, coeffs, batch, stream, version, help"]

partial def readAll (stream : IO.FS.Stream) (bytes : ByteArray) : IO ByteArray := do
  let chunk ← stream.read 65536
  if chunk.isEmpty then return bytes else readAll stream (bytes ++ chunk)

def fileState (path : String) : IO FileState := do
  try
    return .contents (← IO.FS.readBinFile path)
  catch
    | .noFileOrDirectory .. => return .missing .notFound
    | .inappropriateType _ 21 _ => return .unreadable .isDirectory
    | .inappropriateType .. => return .missing .notDirectory
    | .invalidArgument .. => return .missing .nameTooLong
    | e => return .unreadable (.other (toString e))

def surroundings : Request → IO Surroundings
  | .batch (some path) _ _ => do
    let state ← fileState path
    return ⟨.empty, fun _ => state⟩
  | .batch none _ _ | .stream _ => do
    return ⟨← readAll (← IO.getStdin) .empty, fun _ => .missing .notFound⟩
  | _ => return ⟨.empty, fun _ => .missing .notFound⟩

def answerRequest (request : Request) : IO UInt32 := do
  let outcome := request.run (← surroundings request)
  outcome.lines.forM IO.println
  match outcome.error with
  | none => return 0
  | some e =>
    IO.eprint e.report
    return 1

def main (arguments : List String) : IO UInt32 := do
  match Request.ofArguments arguments with
  | .ok request => answerRequest request
  | .error .helpRequested => do
    usageLines.forM IO.println
    return 0
  | .error .versionRequested => do
    IO.println versionLine
    return 0
  | .error (.invalidValue key error) => do
    IO.eprintln s!"error: invalid value for '{key.usage}': {error.message}"
    return 2
  | .error _ => do
    usageLines.forM IO.eprintln
    return 2
