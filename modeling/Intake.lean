import Intake.Json.Parser
import Intake.Json.Printer
import Intake.Metadata.Compile
import Intake.Report.Errors
import Intake.Report.Stored
import Intake.Schema.Build
import Intake.Schema.Inspect
import Intake.Schema.Validate
import Intake.Proofs.Asking
import Intake.Proofs.Checks
import Intake.Proofs.FileInfo
import Intake.Proofs.Json.Sameness
import Intake.Proofs.Keyed
import Intake.Proofs.Metadata.Interpretation
import Intake.Proofs.Metadata.Selection
import Intake.Proofs.Metadata.Tolerance
import Intake.Proofs.Path
import Intake.Proofs.Path.Display
import Intake.Proofs.Reading.Record
import Intake.Proofs.Report.Recording
import Intake.Proofs.Report.Resolution
import Intake.Proofs.Schema.Additions
import Intake.Proofs.Schema.Branches
import Intake.Proofs.Schema.Conformance
import Intake.Proofs.Schema.Excerpts
import Intake.Proofs.Schema.FieldOrder
import Intake.Proofs.Schema.FormKeys
import Intake.Proofs.Schema.Irrelevance
import Intake.Proofs.Schema.Leaves
import Intake.Proofs.Schema.Locality
import Intake.Proofs.Schema.Positions
import Intake.Proofs.Schema.Projection
import Intake.Proofs.Schema.Questions
import Intake.Proofs.Schema.Recording
import Intake.Proofs.Schema.Relaxations
import Intake.Proofs.Schema.Relocation
import Intake.Proofs.Schema.Respect
import Intake.Proofs.Schema.Revalidation
import Intake.Proofs.Schema.Traversal
import Intake.Proofs.Schema.Trees
import Intake.Proofs.Schema.Values
import Intake.Proofs.Schema.Presentation
import Intake.Proofs.Schema.Files
import Intake.Proofs.Metadata.Grammar
import Intake.Proofs.Schema.Steps
import Intake.Proofs.Schema.Declarations
import Intake.Proofs.Report.FormErrors
import Intake.Proofs.Text.AddressForm
import Intake.Proofs.Numeric.Rounding
import Intake.Proofs.Schema.FileLimits
import Intake.Proofs.Schema.Bounds
import Intake.Proofs.Schema.TypedReading
import Intake.Proofs.Schema.WholeNumbers
