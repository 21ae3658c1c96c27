import SchemaPack.Json.Order
import SchemaPack.Json.Reader
import SchemaPack.Json.Printer
import SchemaPack.Schema.Dialect
import SchemaPack.Rules.Saturation
import SchemaPack.Canonical
import SchemaPack.Plan
import SchemaPack.Encoding.Reader
import SchemaPack.Compile
import SchemaPack.CommandLine.Run
import SchemaPack.Main
import SchemaPack.Proofs.Rules.FixedPoint
import SchemaPack.Proofs.Canonical.Idempotence
import SchemaPack.Proofs.Canonical.Termination
import SchemaPack.Proofs.Compile
import SchemaPack.Proofs.Plan.Stability
import SchemaPack.Proofs.Canonical.Applicability
import SchemaPack.Proofs.Plan.Exclusion
import SchemaPack.Proofs.Rules.Echo
import SchemaPack.Proofs.Rules.Order
import SchemaPack.Proofs.Plan.Settlement
import SchemaPack.Proofs.Schema.Evaluation
import SchemaPack.Proofs.Canonical.Superfluous
import SchemaPack.Proofs.Rules.Parts
import SchemaPack.Proofs.Schema.Reference
import SchemaPack.Proofs.Json.Pointer
import SchemaPack.Proofs.Rules.Paths
import SchemaPack.Proofs.Canonical.Origins
import SchemaPack.Proofs.Canonical.References
import SchemaPack.Proofs.Json.TotalOrder
import SchemaPack.Proofs.Canonical.Inertness
import SchemaPack.Proofs.Reordering
import SchemaPack.Proofs.Annotations
import SchemaPack.Proofs.Canonical.Shape
import SchemaPack.Proofs.Rejection
import SchemaPack.Proofs.Plan.Ranges
import SchemaPack.Proofs.Canonical.Bounds
import SchemaPack.Proofs.Canonical.Requirements
import SchemaPack.Proofs.Cessation
import SchemaPack.Proofs.Json.Deduplication
import SchemaPack.Proofs.Rules.Replay
import SchemaPack.Proofs.Literals
import SchemaPack.Proofs.Foreign
import SchemaPack.Proofs.Canonical.Identity
import SchemaPack.Proofs.Schema.Detection
import SchemaPack.Proofs.CommandLine.Fruitless
import SchemaPack.Proofs.Number.Cast
import SchemaPack.Proofs.CommandLine.Selection
