import WaveletRaster.Job.Basic

/-! Checking and running jobs. The first problem found is reported, in the order identifier,
half-extent, coefficients, number of edges, edges. Every edge of a job descends from a fresh copy of
the origin, and the coefficients pass from edge to edge. -/

namespace WaveletRaster

inductive ValidationError where
  | unsupportedVersion (version : String)
  | emptyJobList
  | tooManyJobs (count : Nat)
  | emptyJobId
  | invalidHalfExtent (half : UInt32)
  | nonFiniteCoefficients
  | tooManyEdges (count : Nat)
  | edge (index : Nat) (source : EdgeError)
  deriving DecidableEq

namespace ValidationError

def message : ValidationError → String
  | unsupportedVersion version => s!"Unsupported API version: {version}, expected '1.0'"
  | emptyJobList => "Jobs array is empty"
  | tooManyJobs count => s!"Too many jobs: {count} (max: {Limits.maxJobs})"
  | emptyJobId => "Job ID is empty"
  | invalidHalfExtent half => s!"Invalid half-extent: {half} (must be 1-{Limits.maxHalf})"
  | nonFiniteCoefficients => "Starting coefficients must be finite"
  | tooManyEdges count => s!"Too many edges: {count} (max: {Limits.maxEdges})"
  | edge index source => s!"Edge {index}: {source.message}"

end ValidationError

section
variable {α : Type} [Arithmetic α]

def EdgePiece.segment (piece : EdgePiece α) : Except EdgeError (Quadrant × Segment α) := do
  let q ← Quadrant.ofIndex piece.quadrant
  let s ← Segment.ofPoints piece.points
  return (q, s)

def EdgePiece.segmentAt (piece : EdgePiece α) (index : Nat) :
    Except ValidationError (Quadrant × Segment α) :=
  piece.segment.mapError (.edge index)

def Job.validateHeader (job : Job α) : Except ValidationError Unit :=
  if job.id.isEmpty then .error .emptyJobId
  else if job.half = 0 ∨ Limits.maxHalf < job.half.toNat then .error (.invalidHalfExtent job.half)
  else if !job.coefficients.all Arithmetic.isFinite then .error .nonFiniteCoefficients
  else if Limits.maxEdges < job.edges.length then .error (.tooManyEdges job.edges.length)
  else .ok ()

/-- Checks a job and gives its edges their types. -/
def Job.segments (job : Job α) : Except ValidationError (List (Quadrant × Segment α)) := do
  job.validateHeader
  job.edges.zipIdx.mapM fun (piece, index) => piece.segmentAt index

def Job.validate (job : Job α) : Except ValidationError Unit := do
  discard job.segments

def JobSpec.validateHeader (spec : JobSpec α) : Except ValidationError Unit :=
  if spec.version ≠ "1.0" then .error (.unsupportedVersion spec.version)
  else if spec.jobs.isEmpty then .error .emptyJobList
  else if Limits.maxJobs < spec.jobs.length then .error (.tooManyJobs spec.jobs.length)
  else .ok ()

def JobSpec.validate (spec : JobSpec α) : Except ValidationError Unit := do
  spec.validateHeader
  spec.jobs.forM Job.validate

end

section
variable {S W : Type} [Arithmetic S] [Arithmetic W] [Precision S W]

def Segment.visit (s : Segment S) (half : UInt32) (scale : W) (origin : Origin) (q : Quadrant)
    (c : Coefficients S) : EdgeReport S W × Coefficients S :=
  let (moved, origin, c) := s.dispatch half q.index origin c
  ({ quadrant := q.index, origin, points := moved.points, moments := moved.moments scale }, c)

def visitAll (half : UInt32) (origin : Origin) (segments : List (Quadrant × Segment S))
    (c : Coefficients S) : List (EdgeReport S W) × Coefficients S :=
  let scale : W := nodeScale half
  let (reversed, c) := segments.foldl (fun (reports, c) (q, s) =>
    let (report, c) := s.visit half scale origin q c
    (report :: reports, c)) ([], c)
  (reversed.reverse, c)

/-- Never fails: a problem with the job becomes its result. -/
def Job.run (job : Job S) : JobResult S W :=
  match job.segments with
  | .error e => .failure job.id s!"Validation failed: {e.message}"
  | .ok segments =>
    let (reports, c) := visitAll job.half job.origin segments job.coefficients
    .success job.id c reports

def JobSpec.run (spec : JobSpec S) : Except ValidationError (List (JobResult S W)) := do
  spec.validateHeader
  return spec.jobs.map Job.run

end
end WaveletRaster
