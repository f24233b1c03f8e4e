import Scriptlet.Engine
import Scriptlet.Json.Printer
import Scriptlet.Json.Reader
import Scriptlet.Proofs.Binding
import Scriptlet.Proofs.Environment.Ledger
import Scriptlet.Proofs.Evaluation.Activation
import Scriptlet.Proofs.Evaluation.Calls
import Scriptlet.Proofs.Evaluation.Counters
import Scriptlet.Proofs.Evaluation.Invocation
import Scriptlet.Proofs.Evaluation.Isolation
import Scriptlet.Proofs.Evaluation.Limits
import Scriptlet.Proofs.Evaluation.Place
import Scriptlet.Proofs.Evaluation.Termination
import Scriptlet.Proofs.Form.Depth
import Scriptlet.Proofs.Form.Nesting
import Scriptlet.Proofs.Form.Slice
import Scriptlet.Proofs.Form.Unclosed
import Scriptlet.Proofs.Json.RoundTrip
import Scriptlet.Proofs.Library.Division
import Scriptlet.Proofs.Library.Equality
import Scriptlet.Proofs.Reference.Session
import Scriptlet.Proofs.Resolution.Captures
import Scriptlet.Proofs.Resolution.Diagnostics
import Scriptlet.Proofs.Resolution.Extension
import Scriptlet.Proofs.Resolution.Extent
import Scriptlet.Proofs.Resolution.Free
import Scriptlet.Proofs.Resolution.Isolation
import Scriptlet.Proofs.Resolution.Naming
import Scriptlet.Proofs.Resolution.Recompiling
import Scriptlet.Proofs.Resolution.WellFormed
import Scriptlet.Proofs.Scope.Layers
import Scriptlet.Proofs.Value.Printed
