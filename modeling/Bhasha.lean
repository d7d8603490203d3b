import Bhasha.CommandLine.Options
import Bhasha.CommandLine.Run
import Bhasha.Error
import Bhasha.Event
import Bhasha.Grammar.Expression
import Bhasha.Grammar.Parser
import Bhasha.Grammar.Program
import Bhasha.Grammar.Statement
import Bhasha.Integer
import Bhasha.Machine.Basic
import Bhasha.Machine.Eval
import Bhasha.Machine.Exec
import Bhasha.Main
import Bhasha.Operator
import Bhasha.Program.Basic
import Bhasha.Program.Equality
import Bhasha.Program.Layout
import Bhasha.Proofs.Parser.Equations
import Bhasha.Proofs.Parser.Similar
import Bhasha.Report
import Bhasha.Store
import Bhasha.Text.Decimal
import Bhasha.Text.Letter
import Bhasha.Token.Basic
import Bhasha.Token.Scan
import Bhasha.Value
import Bhasha.Proofs.Parser.Lookahead
import Bhasha.Proofs.Parser.Completion
import Bhasha.Proofs.Parser.Errors
import Bhasha.Proofs.Grammar.Rules
import Bhasha.Proofs.Grammar.Complete
import Bhasha.Proofs.Grammar.Sound
import Bhasha.Proofs.Canonical.WellFormed
import Bhasha.Proofs.Canonical.Tokens
import Bhasha.Proofs.Canonical.Legible
import Bhasha.Proofs.Canonical.RoundTrip
import Bhasha.Proofs.Machine.Steps
import Bhasha.Proofs.Machine.Compatible
import Bhasha.Proofs.Machine.Bounds
import Bhasha.Proofs.Machine.Keeps
import Bhasha.Proofs.Machine.Undisturbed
import Bhasha.Proofs.Scan.Rules
import Bhasha.Proofs.Scan.MaximalMunch
import Bhasha.Proofs.Machine.Limit
import Bhasha.Proofs.Machine.LoopFree
import Bhasha.Proofs.Program.Nodes
import Bhasha.Proofs.Machine.NodeSteps
import Bhasha.Proofs.Machine.Writes
import Bhasha.Proofs.Machine.Reads
import Bhasha.Proofs.Machine.Returns
import Bhasha.Proofs.Machine.Accounted
import Bhasha.Proofs.Scan.Spacing
import Bhasha.Proofs.Parser.Lines
import Bhasha.Proofs.Canonical.Layout
import Bhasha.Proofs.Value.Arithmetic
import Bhasha.Proofs.Machine.Depths
import Bhasha.Proofs.Program.Rename
import Bhasha.Proofs.Machine.Renaming
import Bhasha.Proofs.Value.Remainder
import Bhasha.Proofs.Machine.Desugaring
import Bhasha.Proofs.Machine.Rounds
import Bhasha.Proofs.Machine.Counting
import Bhasha.Proofs.Scan.LineByLine
import Bhasha.Proofs.Scan.WholeWords
import Bhasha.Proofs.Parser.Progress
import Bhasha.Proofs.Machine.LeftToRight
