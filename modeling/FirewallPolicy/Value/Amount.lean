import FirewallPolicy.Value.Ordering
import FirewallPolicy.Value.Written

/-!
## Amounts

The numbers of limits: whole numbers or doubles, kept as they are written.
-/

namespace FirewallPolicy

/-- An amount of a limit. -/
inductive Amount where
  | int (i : Int)
  | float (x : Double)
deriving DecidableEq, Repr, Inhabited

namespace Amount

/-- The amount that a value states, if it is a number. -/
def ofValue? : Value → Option Amount
  | .int i => some (.int i)
  | .float x => some (.float x)
  | _ => none

/-- The amount as a scalar. -/
def toScalar : Amount → Scalar
  | int i => .int i
  | float x => .float x

/-- The amount as a value. -/
def toValue (amount : Amount) : Value := .scalar amount.toScalar

/-- The exact amount, if it is finite. -/
def toRat? : Amount → Option Rat
  | int i => some i
  | float x => x.toRat?

/-- Is the amount at most zero? -/
def isNonPositive : Amount → Bool
  | int i => i ≤ 0
  | float (.infinite negative) => negative
  | float x => x.toRat?.any (· ≤ 0)

/-- Is the amount greater than another one?  An undefined number is not. -/
def exceeds (amount bound : Amount) : Bool :=
  Scalar.isLess bound.toScalar amount.toScalar

/-- The text of an amount. -/
def written (amount : Amount) : String := amount.toValue.written

/-- The text of an amount, a whole number without a fraction. -/
def text (amount : Amount) : String := amount.toValue.amountText

end Amount

end FirewallPolicy
