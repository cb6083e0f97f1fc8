import IntervalCalc.Main
import IntervalCalc.Session.Completion
import IntervalCalc.Proofs.Evaluation.Confinement
import IntervalCalc.Proofs.Lexing.Reading
import IntervalCalc.Proofs.Lexing.Division
import IntervalCalc.Proofs.Parsing.Lookahead
import IntervalCalc.Proofs.Parsing.History
import IntervalCalc.Proofs.Parsing.Steps
import IntervalCalc.Proofs.Parsing.Progress
import IntervalCalc.Proofs.Parsing.Bracketing
import IntervalCalc.Proofs.Parsing.Precedence
import IntervalCalc.Proofs.Lexing.Continuing
import IntervalCalc.Proofs.Parsing.Transfer
import IntervalCalc.Proofs.Parsing.Sequence
import IntervalCalc.Proofs.Engine.Composition
import IntervalCalc.Proofs.Evaluation.Visibility
import IntervalCalc.Proofs.Interval.Ordered
import IntervalCalc.Proofs.Evaluation.Enclosure
import IntervalCalc.Proofs.Evaluation.Values
import IntervalCalc.Proofs.Parsing.Literals
import IntervalCalc.Proofs.Engine.Values
import IntervalCalc.Proofs.Parsing.Reads
import IntervalCalc.Proofs.Parsing.RoundTrip
import IntervalCalc.Proofs.Evaluation.Course
import IntervalCalc.Proofs.Evaluation.Depth
import IntervalCalc.Proofs.Evaluation.Arity
import IntervalCalc.Proofs.Interning
import IntervalCalc.Proofs.Renaming
import IntervalCalc.Proofs.Evaluation.Renaming
import IntervalCalc.Proofs.Lexing.Renaming
import IntervalCalc.Proofs.Parsing.Renaming
import IntervalCalc.Proofs.Engine.Renaming
import IntervalCalc.Proofs.Engine.Names
import IntervalCalc.Proofs.Engine.Requests
import IntervalCalc.Proofs.Engine.Heads
import IntervalCalc.Proofs.Lexing.Lexemes
import IntervalCalc.Proofs.Parsing.Grammatical
import IntervalCalc.Proofs.Parsing.Soundness
import IntervalCalc.Proofs.Lexing.Fronts
import IntervalCalc.Proofs.Parsing.Following
import IntervalCalc.Proofs.Lexing.Trailing
import IntervalCalc.Proofs.Lexing.Words
import IntervalCalc.Proofs.Parsing.Outlasting
import IntervalCalc.Proofs.Parsing.Layout
import IntervalCalc.Proofs.Parsing.TrailingSeparator
import IntervalCalc.Proofs.Parsing.SingleArgument
import IntervalCalc.Proofs.Lexing.Places
import IntervalCalc.Proofs.Parsing.Places
import IntervalCalc.Proofs.Engine.Reset
import IntervalCalc.Proofs.Engine.Declarations
import IntervalCalc.Proofs.Interval.Periodic
import IntervalCalc.Proofs.Interval.Powers
import IntervalCalc.Proofs.Interval.Poles
import IntervalCalc.Proofs.Scalar.Order
import IntervalCalc.Proofs.Scalar.Binary64
import IntervalCalc.Proofs.Evaluation.Factorial
import IntervalCalc.Proofs.Session.Execution
import IntervalCalc.Proofs.Session.Completion
import IntervalCalc.Proofs.SymbolTable
import IntervalCalc.Proofs.Lexing.Priority
