import WaveletRaster.Job.Basic
import WaveletRaster.Json.Record

/-! Jobs and results as JSON. -/

namespace WaveletRaster

open Json

abbrev Job32 := Job Binary32

abbrev JobSpec32 := JobSpec Binary32

abbrev EdgeReport32 := EdgeReport Binary32 Binary64

abbrev JobResult32 := JobResult Binary32 Binary64

def Origin.ofJson? : Json → Option Origin
  | .array [x, y] => do return ⟨← x.toInt32?, ← y.toInt32?⟩
  | _ => none

def Origin.toJson (o : Origin) : Json := .array [.ofInt o.x.toInt, .ofInt o.y.toInt]

def Point.ofJson? : Json → Option (Point Binary32)
  | .array [x, y] => do return ⟨← x.toBinary?, ← y.toBinary?⟩
  | _ => none

def Point.toJson (p : Point Binary32) : Json :=
  .array [.ofBinary .single p.x, .ofBinary .single p.y]

def Coefficients.ofJson? : Json → Option (Coefficients Binary32)
  | .array [h, v, d] => do return ⟨← h.toBinary?, ← v.toBinary?, ← d.toBinary?⟩
  | _ => none

def Coefficients.toJson (c : Coefficients Binary32) : Json := .ofList (.ofBinary .single) c.toList

def Moments.ofJson? : Json → Option (Moments Binary64)
  | .array [kx, ky, lx, ly] => do
    return ⟨← kx.toBinary?, ← ky.toBinary?, ← lx.toBinary?, ← ly.toBinary?⟩
  | _ => none

def Moments.toJson (m : Moments Binary64) : Json := .ofList (.ofBinary .double) m.toList

def EdgePiece.ofJson? (v : Json) : Option (EdgePiece Binary32) := do
  match ← v.fields? ["quadrant", "points"] with
  | [quadrant, points] =>
    return ⟨← required toUInt32? quadrant, ← required (toList? Point.ofJson?) points⟩
  | _ => none

def EdgePiece.toJson (e : EdgePiece Binary32) : Json :=
  .ofFields [("quadrant", .ofInt e.quadrant.toNat), ("points", .ofList Point.toJson e.points)]

def Job.ofJson? (v : Json) : Option Job32 := do
  match ← v.fields? ["id", "half", "origin", "coeffs", "edges"] with
  | [id, half, origin, coefficients, edges] =>
    return {
      id := ← required toString? id
      half := ← required toUInt32? half
      origin := ← withDefault .zero Origin.ofJson? origin
      coefficients := ← withDefault .zero Coefficients.ofJson? coefficients
      edges := ← required (toList? EdgePiece.ofJson?) edges }
  | _ => none

def Job.toJson (job : Job32) : Json :=
  .ofFields [("id", .ofString job.id), ("half", .ofInt job.half.toNat),
    ("origin", job.origin.toJson), ("coeffs", job.coefficients.toJson),
    ("edges", .ofList EdgePiece.toJson job.edges)]

def JobSpec.ofJson? (v : Json) : Option JobSpec32 := do
  match ← v.fields? ["version", "jobs"] with
  | [version, jobs] =>
    return ⟨← required toString? version, ← required (toList? Job.ofJson?) jobs⟩
  | _ => none

def JobSpec.toJson (spec : JobSpec32) : Json :=
  .ofFields [("version", .ofString spec.version), ("jobs", .ofList Job.toJson spec.jobs)]

def EdgeReport.ofJson? (v : Json) : Option EdgeReport32 := do
  match ← v.fields? ["quadrant", "origin", "points", "moments"] with
  | [quadrant, origin, points, moments] =>
    return {
      quadrant := ← required toUInt32? quadrant
      origin := ← required Origin.ofJson? origin
      points := ← required (toList? Point.ofJson?) points
      moments := ← required Moments.ofJson? moments }
  | _ => none

def EdgeReport.toJson (e : EdgeReport32) : Json :=
  .ofFields [("quadrant", .ofInt e.quadrant.toNat), ("origin", e.origin.toJson),
    ("points", .ofList Point.toJson e.points), ("moments", e.moments.toJson)]

def timingOfJson? (v : Json) : Option Binary64 := do
  match ← v.fields? ["total_ms"] with
  | [total] => required toBinary? total
  | _ => none

def JobResult.ofJson? (v : Json) : Option JobResult32 := do
  match ← v.fields? ["id", "status", "coeffs", "edges", "error", "timing"] with
  | [id, status, coefficients, edges, error, timing] =>
    return {
      id := ← required toString? id
      status := ← required toString? status
      coefficients := ← withDefault none (toOption? Coefficients.ofJson?) coefficients
      edges := ← withDefault none (toOption? (toList? EdgeReport.ofJson?)) edges
      error := ← withDefault none (toOption? toString?) error
      totalMilliseconds := ← required timingOfJson? timing }
  | _ => none

def JobResult.toJson (r : JobResult32) : Json :=
  .ofFields (
    [("id", .ofString r.id), ("status", .ofString r.status)] ++
    (r.coefficients.map fun c => ("coeffs", c.toJson)).toList ++
    (r.edges.map fun es => ("edges", .ofList EdgeReport.toJson es)).toList ++
    (r.error.map fun e => ("error", .ofString e)).toList ++
    [("timing", .ofFields [("total_ms", .ofBinary .double r.totalMilliseconds)])])

def Job.parse? (text : String) : Option Job32 := do Job.ofJson? (← Json.parse? text)

def JobSpec.parse? (text : String) : Option JobSpec32 := do JobSpec.ofJson? (← Json.parse? text)

def JobResult.parse? (text : String) : Option JobResult32 := do
  JobResult.ofJson? (← Json.parse? text)

def Job.text (job : Job32) : String := job.toJson.text

def JobSpec.text (spec : JobSpec32) : String := spec.toJson.text

def JobResult.text (r : JobResult32) : String := r.toJson.text

end WaveletRaster
