import TensorInference.Binary.Arithmetic
import TensorInference.Binary.Format
import TensorInference.Binary.Shortest
import TensorInference.Bytes
import TensorInference.Bytes.Fingerprint
import TensorInference.CommandLine.Arguments
import TensorInference.CommandLine.Trial
import TensorInference.Files.Listing
import TensorInference.Files.Path
import TensorInference.Files.Tree
import TensorInference.Inference.Normalization
import TensorInference.Inference.Request
import TensorInference.Inference.Response
import TensorInference.Inference.Submission
import TensorInference.Interface.Argument
import TensorInference.Interface.Call
import TensorInference.Interface.Objects
import TensorInference.Json.Codec
import TensorInference.Json.Fault
import TensorInference.Json.Node
import TensorInference.Json.Numeral
import TensorInference.Json.Reader
import TensorInference.Json.Record
import TensorInference.Json.Text
import TensorInference.Json.Value
import TensorInference.Main
import TensorInference.Model.Config
import TensorInference.Model.ElementType
import TensorInference.Model.Labels
import TensorInference.Model.Repository
import TensorInference.Model.Shape
import TensorInference.Model.VersionPolicy
import TensorInference.OrderedMap
import TensorInference.Platform.AddSub
import TensorInference.Platform.Identity
import TensorInference.Platform.Program
import TensorInference.Platform.Registry
import TensorInference.Server.Action
import TensorInference.Server.Backend
import TensorInference.Server.Identifier
import TensorInference.Server.Metrics
import TensorInference.Server.Options
import TensorInference.Server.Session
import TensorInference.Server.State
import TensorInference.Server.StatusTable
import TensorInference.Server.Timer
import TensorInference.Server.Traffic
import TensorInference.Status
import TensorInference.Tensor.Elements
import TensorInference.Text.Lines
import TensorInference.Text.Numeral
import TensorInference.Text.Printable
import TensorInference.Text.Quoted
import TensorInference.Text.Utf8
import TensorInference.Wire.Message
import TensorInference.Wire.RequestHeader
import TensorInference.Wire.ResponseHeader
import TensorInference.Wire.ServerStatus
import TensorInference.Proofs.Model.Validation
import TensorInference.Proofs.Model.Volume
import TensorInference.Proofs.Outcomes
import TensorInference.Proofs.Inference.Assembly
import TensorInference.Proofs.Inference.Completion
import TensorInference.Proofs.Platform.Identity
import TensorInference.Proofs.Binary.Arithmetic
import TensorInference.Proofs.Platform.AddSub
import TensorInference.Proofs.Inference.Acceptance
import TensorInference.Proofs.Inference.Refusal
import TensorInference.Proofs.Server.Acceptance
import TensorInference.Proofs.Server.Counts
import TensorInference.Proofs.Server.ExactlyOnce
import TensorInference.Proofs.Server.Shutdown
import TensorInference.Proofs.Server.Readiness
import TensorInference.Proofs.Server.Routing
import TensorInference.Proofs.Server.Accounting
import TensorInference.Proofs.Server.Numbering
import TensorInference.Proofs.Platform.Kernel
import TensorInference.Proofs.Server.Standard
import TensorInference.Proofs.Server.Rewording
import TensorInference.Proofs.Server.Projection
import TensorInference.Proofs.Server.Batching
import TensorInference.Proofs.Platform.Calls
import TensorInference.Proofs.Platform.Sizes
import TensorInference.Proofs.Server.AllOrNothing
import TensorInference.Proofs.Binary.Shortest
import TensorInference.Proofs.Binary.TotalOrder
import TensorInference.Proofs.Binary.Rounding
import TensorInference.Proofs.Json.Text
import TensorInference.Proofs.Json.Numeral
import TensorInference.Proofs.Json.Reading
import TensorInference.Proofs.Json.Codec
import TensorInference.Proofs.Json.Record
import TensorInference.Proofs.Json.Truncation
import TensorInference.Proofs.Wire.RoundTrip
import TensorInference.Proofs.Wire.Truncation
import TensorInference.Proofs.Wire.Scores
import TensorInference.Proofs.Inference.Scores
import TensorInference.Proofs.Model.Scanning
import TensorInference.Proofs.Server.Isolation
import TensorInference.Proofs.Interface.Aftermath
import TensorInference.Proofs.Inference.NormalForm
import TensorInference.Proofs.Interface.Pieces
import TensorInference.Proofs.Inference.Operations
import TensorInference.Proofs.Wire.Unknown
import TensorInference.Proofs.Inference.Ranking
import TensorInference.Proofs.Inference.IntegerRanking
import TensorInference.Proofs.Model.Labels
import TensorInference.Proofs.Model.VersionDirectories
import TensorInference.Proofs.Server.Timers
import TensorInference.Proofs.Tensor.RoundTrip
import TensorInference.Proofs.Inference.Batches
