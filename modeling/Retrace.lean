import Retrace.Text.Lowercase
import Retrace.Text.Quoted
import Retrace.Text.Blank
import Retrace.Text.Integer
import Retrace.Json.Reader
import Retrace.Json.Printer
import Retrace.Error.Chain
import Retrace.Scope.Registry
import Retrace.Command.Draft
import Retrace.Event.Reporter
import Retrace.Stack
import Retrace.Engine.Host
import Retrace.Scenario.Reader
import Retrace.Scenario.Rehearsal
import Retrace.Ledger.Desk
import Retrace.Main
import Retrace.Proofs.Change
import Retrace.Proofs.Placement
import Retrace.Proofs.Status
import Retrace.Proofs.Outliving
import Retrace.Proofs.Jump
import Retrace.Proofs.Recency
import Retrace.Proofs.Reference
import Retrace.Proofs.Turns
import Retrace.Proofs.Settling
import Retrace.Proofs.Refinement
import Retrace.Proofs.Mirror
import Retrace.Proofs.Clearing
import Retrace.Proofs.Overtaking
import Retrace.Proofs.Background
import Retrace.Proofs.Audit
import Retrace.Proofs.Bookkeeping
import Retrace.Proofs.Awaited
import Retrace.Proofs.Balances
import Retrace.Proofs.Integrity
import Retrace.Proofs.Receipts
import Retrace.Proofs.Blocks
import Retrace.Proofs.Watching
import Retrace.Proofs.Trimming
import Retrace.Proofs.Registration
import Retrace.Proofs.Waiting
import Retrace.Proofs.Script
import Retrace.Proofs.Serving
import Retrace.Proofs.Walking
import Retrace.Proofs.Slots
import Retrace.Proofs.Uses
import Retrace.Proofs.Selection
import Retrace.Proofs.Refusals
import Retrace.Proofs.Starting
import Retrace.Proofs.Destinations
import Retrace.Proofs.Naming
import Retrace.Proofs.Resolution
import Retrace.Proofs.Reporting
import Retrace.Proofs.Bracketing
import Retrace.Proofs.Composing
import Retrace.Proofs.Grammar
import Retrace.Proofs.Transcript
import Retrace.Proofs.Positions
import Retrace.Proofs.Halting
import Retrace.Proofs.Documents
