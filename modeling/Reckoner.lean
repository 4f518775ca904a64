import Reckoner.Console.Completion
import Reckoner.Expr.Build
import Reckoner.Main
import Reckoner.Workspace
import Reckoner.Proofs.Console.Comment
import Reckoner.Proofs.Console.Crash
import Reckoner.Proofs.Evaluation.Assignment
import Reckoner.Proofs.Evaluation.Value
import Reckoner.Proofs.Evaluation.Termination
import Reckoner.Proofs.Evaluation.Again
import Reckoner.Proofs.Evaluation.Release
import Reckoner.Proofs.Evaluation.Replay
import Reckoner.Proofs.Grammar.Language
import Reckoner.Proofs.Grammar.Naming
import Reckoner.Proofs.Grammar.Nesting
import Reckoner.Proofs.Session
import Reckoner.Proofs.Session.Independence
import Reckoner.Proofs.Session.Interleaving
import Reckoner.Proofs.Simplify.Gather
import Reckoner.Proofs.Simplify.Linear
import Reckoner.Proofs.Simplify.Monomial
import Reckoner.Proofs.Simplify.Power
import Reckoner.Proofs.Text.Exact
import Reckoner.Proofs.Text.Outline
import Reckoner.Proofs.Text.Rational
import Reckoner.Proofs.Text.Difference
import Reckoner.Proofs.Evaluation.Failure
