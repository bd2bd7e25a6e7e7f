import WaveletRaster.Binary.Interchange
import WaveletRaster.Buffers
import WaveletRaster.Main
import WaveletRaster.Proofs.Bezier.Curve
import WaveletRaster.Proofs.Bezier.Subdivision
import WaveletRaster.Proofs.Exact.Descent
import WaveletRaster.Proofs.Exact.Contour
import WaveletRaster.Proofs.Exact.Cut
import WaveletRaster.Proofs.Exact.Elevation
import WaveletRaster.Proofs.Acceptance
import WaveletRaster.Proofs.Job.Validation
import WaveletRaster.Proofs.Job.Problem
import WaveletRaster.Proofs.Job.Run
import WaveletRaster.Proofs.Job.Resume
import WaveletRaster.Proofs.Binary.Magnitude
import WaveletRaster.Proofs.Binary.Exact
import WaveletRaster.Proofs.Dispatch.EntryPoint
import WaveletRaster.Proofs.Dispatch.Path
import WaveletRaster.Proofs.Dispatch.Lockstep
import WaveletRaster.Proofs.Edge.Finite
import WaveletRaster.Proofs.Job.Spec
import WaveletRaster.Proofs.Decimal.Numeral
import WaveletRaster.Proofs.Json.Quoted
import WaveletRaster.Proofs.Json.Token
import WaveletRaster.Proofs.Json.Text
import WaveletRaster.Proofs.Json.Reader
import WaveletRaster.Proofs.Json.Legible
import WaveletRaster.Proofs.Json.Record
import WaveletRaster.Proofs.Job.Overflow
import WaveletRaster.Proofs.Job.Json
import WaveletRaster.Proofs.Job.RoundTrip
import WaveletRaster.Proofs.Text.Bytes
import WaveletRaster.Proofs.Command.Stream
import WaveletRaster.Proofs.Command.Batch
import WaveletRaster.Proofs.Exact.Reversal
import WaveletRaster.Proofs.Exact.Seam
import WaveletRaster.Proofs.Binary.Opposite
import WaveletRaster.Proofs.Edge.Reversal
import WaveletRaster.Proofs.Edge.Swap
import WaveletRaster.Proofs.Exact.Scale
import WaveletRaster.Proofs.Dispatch.Checked
import WaveletRaster.Proofs.Job.Order
import WaveletRaster.Proofs.Dispatch.Finite
import WaveletRaster.Proofs.Binary.Rounded
import WaveletRaster.Proofs.Dispatch.Translation
import WaveletRaster.Proofs.Edge.Area
import WaveletRaster.Proofs.Job.Calls
import WaveletRaster.Proofs.Command.OneShot
import WaveletRaster.Proofs.Command.Ranges
import WaveletRaster.Proofs.Dispatch.Frame
import WaveletRaster.Proofs.Edge.Segment
import WaveletRaster.Proofs.Text.Split
import WaveletRaster.Proofs.Text.Blank
import WaveletRaster.Proofs.Decimal.Literal
import WaveletRaster.Proofs.Decimal.Integer
import WaveletRaster.Proofs.Command.Points
import WaveletRaster.Proofs.Command.Tuple
import WaveletRaster.Proofs.Command.Scan
import WaveletRaster.Proofs.Command.Options
import WaveletRaster.Proofs.Command.SizeLimit
