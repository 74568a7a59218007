import StringTransform.Pattern.Fault
import StringTransform.Text.Quoted

/-!
# What can go wrong while a program is built

Once a program has been built, evaluating it can only fail to give a result.
-/

namespace StringTransform

/-- Why a part of a program cannot be built. -/
inductive BuildFault where
  /-- The text denotes no pattern. -/
  | pattern (source : String) (fault : PatternFault)
  /-- An occurrence counts from one end or the other, and zero is neither. -/
  | zeroOccurrence
  deriving DecidableEq, Repr

/-- The wording of a fault. -/
def BuildFault.message : BuildFault → String
  | .pattern source fault => "invalid token pattern " ++ quote source ++ ": " ++ fault.message
  | .zeroOccurrence => "occurrence count must not be zero"

end StringTransform
