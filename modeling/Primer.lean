import Primer.Block
import Primer.CommandLine
import Primer.Console
import Primer.Console.Stream
import Primer.Cursor
import Primer.Decimal.Binary
import Primer.Decimal.Layout
import Primer.Decimal.Reading
import Primer.Decimal.Shortest
import Primer.Diagnostic
import Primer.Draws
import Primer.Environment
import Primer.Eval
import Primer.Eval.Control
import Primer.Eval.TopLevel
import Primer.Expr
import Primer.Expr.Parser
import Primer.Fault
import Primer.Files
import Primer.Kind
import Primer.Line
import Primer.Machine
import Primer.Main
import Primer.Native.Call
import Primer.Native.Character
import Primer.Native.Conversion
import Primer.Native.Draw
import Primer.Numeric.Integer
import Primer.Numeric.Remainder
import Primer.Operator
import Primer.Operator.Apply
import Primer.Operator.Arithmetic
import Primer.Operator.Order
import Primer.Operator.Power
import Primer.Position
import Primer.Program
import Primer.Session
import Primer.Shell
import Primer.Shell.Arguments
import Primer.Shell.Generator
import Primer.Stmt
import Primer.Stmt.Parser
import Primer.Table
import Primer.Text.Blank
import Primer.Text.Break
import Primer.Text.Cluster
import Primer.Text.Lines
import Primer.Text.Ranges
import Primer.Token
import Primer.Token.Scanner
import Primer.Value
import Primer.Proofs.Scaffold
import Primer.Proofs.Scaffold.Descent
import Primer.Proofs.Aligned
import Primer.Proofs.Aligned.Reading
import Primer.Proofs.Scaffold.Aligned
import Primer.Proofs.Extension
import Primer.Proofs.Aligned.Eval
import Primer.Proofs.OpenBlocks
import Primer.Proofs.Session.Agreement
import Primer.Proofs.Session.Completion
import Primer.Proofs.Session.Entries
import Primer.Proofs.Rendering.Stmt
import Primer.Proofs.Footprint
import Primer.Proofs.Footprint.Calls
import Primer.Proofs.Counting
import Primer.Proofs.Footprint.Sealing
import Primer.Proofs.Footprint.Isolation
import Primer.Proofs.Termination
import Primer.Proofs.Aligned.Program
import Primer.Proofs.Layout
import Primer.Proofs.Pointing.Scanner
import Primer.Proofs.Pointing
import Primer.Proofs.Pointing.Session
import Primer.Proofs.WellFormed
import Primer.Proofs.WellFormed.Parser
import Primer.Proofs.Clean
import Primer.Proofs.Simulation
import Primer.Proofs.Simulation.Depth
import Primer.Proofs.Simulation.Names
import Primer.Proofs.Simulation.Console
import Primer.Proofs.Simulation.Script
import Primer.Proofs.Soundness.Faults
import Primer.Proofs.Soundness.Flow
import Primer.Proofs.Soundness
import Primer.Proofs.Carried
import Primer.Proofs.Outcome
import Primer.Proofs.Drawing
import Primer.Proofs.Requests
import Primer.Proofs.Rules
import Primer.Proofs.Fragment
import Primer.Proofs.Means
import Primer.Proofs.Echo
import Primer.Proofs.Grammar
import Primer.Proofs.Grammar.Completeness
import Primer.Proofs.Integer
import Primer.Proofs.Exactness
import Primer.Proofs.Counting.Progression
import Primer.Proofs.Pattern
import Primer.Proofs.Pattern.Splitting
import Primer.Proofs.Pattern.Spelling
import Primer.Proofs.Exactness.Power
import Primer.Proofs.Written
import Primer.Proofs.Rounding
import Primer.Proofs.Conversion
import Primer.Proofs.Typing
import Primer.Proofs.Progress
import Primer.Proofs.Progress.Walk
import Primer.Proofs.Progress.Readers
import Primer.Proofs.Progress.Calls
