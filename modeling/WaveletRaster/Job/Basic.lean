import WaveletRaster.Segment

/-! Batch jobs, their results, and ceilings on everything in a job that scales work or memory. A job
describes one node: its half-extent, its origin, its coefficients so far, and the edge pieces that
fall into each of its quadrants. -/

namespace WaveletRaster.Limits

def maxInputBytes : Nat := 10 * 1024 * 1024

def maxJobs : Nat := 10000

def maxEdges : Nat := 100000

/-- Multiples of half-extents up to this one are exact in single precision. -/
def maxHalf : Nat := 1 <<< 24

end WaveletRaster.Limits

namespace WaveletRaster

structure InputTooLarge where
  bytes : Nat
  deriving DecidableEq

def InputTooLarge.message (e : InputTooLarge) : String :=
  s!"Input too large: {e.bytes} bytes (max: {Limits.maxInputBytes})"

def checkInputSize (bytes : Nat) : Except InputTooLarge Unit :=
  if Limits.maxInputBytes < bytes then .error ⟨bytes⟩ else .ok ()

structure EdgePiece (α : Type) where
  quadrant : UInt32
  points : List (Point α)
  deriving DecidableEq

structure Job (α : Type) where
  id : String
  half : UInt32
  origin : Origin
  coefficients : Coefficients α
  edges : List (EdgePiece α)
  deriving DecidableEq

structure JobSpec (α : Type) where
  version : String
  jobs : List (Job α)
  deriving DecidableEq

/-- An edge piece after its descent into its quadrant, and the moments that were projected. -/
structure EdgeReport (S W : Type) where
  quadrant : UInt32
  origin : Origin
  points : List (Point S)
  moments : Moments W
  deriving DecidableEq

/-- The result of a job. Coefficients and edges belong to a success, the error text to a failure. -/
structure JobResult (S W : Type) where
  id : String
  status : String
  coefficients : Option (Coefficients S)
  edges : Option (List (EdgeReport S W))
  error : Option String
  totalMilliseconds : W
  deriving DecidableEq

namespace JobResult

variable {S W : Type} [Arithmetic W]

def success (id : String) (coefficients : Coefficients S) (edges : List (EdgeReport S W)) :
    JobResult S W :=
  { id, status := "success", coefficients := some coefficients, edges := some edges, error := none
    totalMilliseconds := Arithmetic.ofNat 0 }

def failure (id message : String) : JobResult S W :=
  { id, status := "error", coefficients := none, edges := none, error := some message
    totalMilliseconds := Arithmetic.ofNat 0 }

def isSuccess (r : JobResult S W) : Bool := r.status = "success"

end JobResult
end WaveletRaster
