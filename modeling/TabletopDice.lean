import TabletopDice.CommandLine.Run
import TabletopDice.Expression.Grammar
import TabletopDice.Journal
import TabletopDice.Json
import TabletopDice.Main
import TabletopDice.Random.Generator
import TabletopDice.Roll.Audit
import TabletopDice.Session.Basic
import TabletopDice.Proofs.Scan.Continuation
import TabletopDice.Proofs.Grammar.Term
import TabletopDice.Proofs.Grammar.Acceptance
import TabletopDice.Proofs.Grammar.Limits
import TabletopDice.Proofs.Grammar.RoundTrip
import TabletopDice.Proofs.Grammar.Composition
import TabletopDice.Proofs.Roll.Draws
import TabletopDice.Proofs.Word.ExactSum
import TabletopDice.Proofs.Roll.Exactness
import TabletopDice.Proofs.Grammar.Rejection
import TabletopDice.Proofs.Random.Faces
import TabletopDice.Proofs.Random.Congruential
import TabletopDice.Proofs.Roll.Counted
import TabletopDice.Proofs.Roll.Fairness
import TabletopDice.Proofs.Roll.Attainment
import TabletopDice.Proofs.Roll.Saturation
import TabletopDice.Proofs.Roll.Fixed
import TabletopDice.Proofs.Roll.Composition
import TabletopDice.Proofs.Roll.Termination
import TabletopDice.Proofs.Scan.Trace
import TabletopDice.Proofs.Roll.Independence
import TabletopDice.Proofs.Roll.Breakdown
import TabletopDice.Proofs.Session.Invariant
import TabletopDice.Proofs.Session.Failure
import TabletopDice.Proofs.CommandLine.Arguments
import TabletopDice.Proofs.CommandLine.Consistency
import TabletopDice.Proofs.Scan.Stop
import TabletopDice.Proofs.Scan.Foreign
import TabletopDice.Proofs.Grammar.Spacing
import TabletopDice.Proofs.Text.Delimited
import TabletopDice.Proofs.Text.Display
import TabletopDice.Proofs.Text.Json
import TabletopDice.Proofs.Scan.LetterCase
import TabletopDice.Proofs.Pattern.OrderedChoice
import TabletopDice.Proofs.Pattern.LongestRun
import TabletopDice.Proofs.Grammar.Misprint
