import PegMatcher.Diagnostic
import PegMatcher.Engine.Basic
import PegMatcher.Engine.Cursor
import PegMatcher.Engine.Primitive
import PegMatcher.Fault
import PegMatcher.Fault.Family
import PegMatcher.Frame
import PegMatcher.Host.Action
import PegMatcher.Host.Extension
import PegMatcher.Limits
import PegMatcher.Log
import PegMatcher.Machine
import PegMatcher.Matcher
import PegMatcher.ParseError
import PegMatcher.Position
import PegMatcher.Proofs.Backtracking
import PegMatcher.Proofs.Balance
import PegMatcher.Proofs.Budget
import PegMatcher.Proofs.Caret
import PegMatcher.Proofs.Checkpoints
import PegMatcher.Proofs.Diagnosis
import PegMatcher.Proofs.Erasure
import PegMatcher.Proofs.Evaluation
import PegMatcher.Proofs.Expansion
import PegMatcher.Proofs.Expectations
import PegMatcher.Proofs.Furthest
import PegMatcher.Proofs.HighWater
import PegMatcher.Proofs.HostCalls
import PegMatcher.Proofs.Innermost
import PegMatcher.Proofs.Isolation
import PegMatcher.Proofs.JsonReading
import PegMatcher.Proofs.Keeping
import PegMatcher.Proofs.Lines
import PegMatcher.Proofs.Locality
import PegMatcher.Proofs.Nesting
import PegMatcher.Proofs.Outline
import PegMatcher.Proofs.Parsing
import PegMatcher.Proofs.Passes
import PegMatcher.Proofs.Progress
import PegMatcher.Proofs.Quoting
import PegMatcher.Proofs.Recognition
import PegMatcher.Proofs.RoundTrip
import PegMatcher.Proofs.Safety
import PegMatcher.Proofs.Shifting
import PegMatcher.Proofs.Simulation
import PegMatcher.Proofs.SingleLine
import PegMatcher.Proofs.Tandem
import PegMatcher.Proofs.Termination
import PegMatcher.Proofs.Trails
import PegMatcher.Proofs.Verdict
import PegMatcher.Proofs.Watching
import PegMatcher.Rendering
import PegMatcher.Rule
import PegMatcher.Session
import PegMatcher.Shape
import PegMatcher.Text.Grouped
import PegMatcher.Text.Printable
import PegMatcher.Text.Quoted
import PegMatcher.Text.Source
import PegMatcher.Tracker
import PegMatcher.Value
import PegMatcher.Value.Json
import PegMatcher.ValueStack
import PegMatcher.Vocabulary
