import ElementBinding.Binding
import ElementBinding.Installation
import ElementBinding.Main
import ElementBinding.Service
import ElementBinding.Signature.Reader
import ElementBinding.Proofs.Binding.Decision
import ElementBinding.Proofs.Binding.History
import ElementBinding.Proofs.Binding.RoundTrip
import ElementBinding.Proofs.Binding.Strictness
import ElementBinding.Proofs.Execution.ClassBody
import ElementBinding.Proofs.Execution.Constants
import ElementBinding.Proofs.Scan.Markers
import ElementBinding.Proofs.Pass.Account
import ElementBinding.Proofs.Pass.Check
import ElementBinding.Proofs.Pass.Digests
import ElementBinding.Proofs.Pass.Entered
import ElementBinding.Proofs.Pass.Exclusion
import ElementBinding.Proofs.Pass.Failures
import ElementBinding.Proofs.Pass.Frame
import ElementBinding.Proofs.Pass.Interrupted
import ElementBinding.Proofs.Pass.Isolation
import ElementBinding.Proofs.Pass.Mirror
import ElementBinding.Proofs.Pass.ModuleNames
import ElementBinding.Proofs.Pass.Parsing
import ElementBinding.Proofs.Pass.Retained
import ElementBinding.Proofs.Pass.Settling
import ElementBinding.Proofs.Pass.Stability
import ElementBinding.Proofs.Pass.UnitPaths
import ElementBinding.Proofs.TypeHint.Literals
import ElementBinding.Proofs.Unit.Meaning
import ElementBinding.Proofs.Naming.SnakeCase
import ElementBinding.Proofs.Text.Literal
import ElementBinding.Proofs.Unit.ViewIds
import ElementBinding.Proofs.FrontEnds
import ElementBinding.Proofs.Workspaces
