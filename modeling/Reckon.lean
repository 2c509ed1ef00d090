import Reckon.BindingLaws
import Reckon.LexemeLaws
import Reckon.Main
import Reckon.Workspace
import Reckon.Proofs.Lexeme.Classes
import Reckon.Proofs.Lexeme.Pattern
import Reckon.Proofs.Lexeme.LongestMatch
import Reckon.Proofs.Lexeme.Split
import Reckon.Proofs.Lexeme.Join
import Reckon.Proofs.Lexeme.Tiling
import Reckon.Proofs.Lexeme.Content
import Reckon.Proofs.Lexeme.Joint
import Reckon.Proofs.LiteralText
import Reckon.Proofs.Grammar.Derivation
import Reckon.Proofs.Grammar.Scan
import Reckon.Proofs.Grammar.Passage
import Reckon.Proofs.Grammar.Completeness
import Reckon.Proofs.Grammar.Failure
import Reckon.Proofs.Grammar.Soundness
import Reckon.Proofs.Grammar.Parsing
import Reckon.Proofs.Grammar.Blockage
import Reckon.Proofs.Grammar.ErrorReport
import Reckon.Proofs.Grammar.Completion
import Reckon.Proofs.Grammar.ViablePrefix
import Reckon.Proofs.Tree.Placement
import Reckon.Proofs.Grammar.Writing
import Reckon.Proofs.Grammar.WrittenLine
import Reckon.Proofs.Grammar.Ranges
import Reckon.Proofs.Evaluation.Outcome
import Reckon.Proofs.Evaluation.Composition
import Reckon.Proofs.Grammar.Leaves
import Reckon.Proofs.Binary64.ReadBack
import Reckon.Proofs.Tree.Replacement
import Reckon.Proofs.Evaluation.Change
import Reckon.Proofs.Evaluation.Computation
import Reckon.Proofs.Evaluation.Trace
import Reckon.Proofs.Evaluation.Frame
import Reckon.Proofs.Evaluation.Pasting
import Reckon.Proofs.Session.Replay
import Reckon.Proofs.Session.Isolation
import Reckon.Proofs.Grammar.Alignment
import Reckon.Proofs.Evaluation.Spacing
import Reckon.Proofs.Tree.Enclosure
import Reckon.Proofs.Evaluation.Enclosing
import Reckon.Proofs.Binary64.Midpoint
import Reckon.Proofs.Binary64.WholeNumber
import Reckon.Proofs.Binary64.EvenTie
import Reckon.Proofs.Binary64.DigitFold
import Reckon.Proofs.Binary64.Significand
import Reckon.Proofs.LiteralRounding
import Reckon.Proofs.WideLiteral
import Reckon.Proofs.Tree.Display
import Reckon.Proofs.Grammar.Height
import Reckon.Proofs.Grammar.Cutoff
import Reckon.Proofs.Grammar.Levels
import Reckon.Proofs.Grammar.LevelLimit
import Reckon.Proofs.Cursor.Entry
import Reckon.Proofs.Cursor.Laws
import Reckon.Proofs.Cursor.PrefixMatch
import Reckon.Proofs.Cursor.Restart
import Reckon.Proofs.Cursor.Checked
import Reckon.Proofs.Cursor.CheckedMatch
import Reckon.Proofs.Cursor.CheckedRun
import Reckon.Proofs.Session.Journal
import Reckon.Proofs.Evaluation.Agreement
import Reckon.Proofs.Evaluation.Targets
import Reckon.Proofs.Text.EndedLines
import Reckon.Proofs.CommandLine.Modes
import Reckon.Proofs.CommandLine.Stopping
import Reckon.Proofs.Cursor.Diagnostic
import Reckon.Proofs.Evaluation.Independence
import Reckon.Proofs.Session.BoundNames
import Reckon.Proofs.Binary64.Equality
import Reckon.Proofs.Session.Comparison
