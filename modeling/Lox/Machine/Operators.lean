import Lox.Machine.Fault
import Lox.Value

/-!
The operators on values. Comparison and arithmetic are those of double-precision numbers, addition
also joins strings, and equality never converts.
-/

namespace Lox

def UnaryOp.apply : UnaryOp → Value → Except RuntimeFault Value
  | .negate, .number value => .ok (.number (-value))
  | .negate, _ => .error .operandNotNumber
  | .not, value => .ok (.bool !value.isTruthy)

namespace BinaryOp

def apply (op : BinaryOp) (left right : Value) : Except RuntimeFault Value :=
  match op, left, right with
  | .equal, _, _ => .ok (.bool (left = right))
  | .notEqual, _, _ => .ok (.bool (left ≠ right))
  | .add, .number a, .number b => .ok (.number (a + b))
  | .add, .string a, .string b => .ok (.string (a ++ b))
  | .add, _, _ => .error .operandsNotAddable
  | .subtract, .number a, .number b => .ok (.number (a - b))
  | .multiply, .number a, .number b => .ok (.number (a * b))
  | .divide, .number a, .number b => .ok (.number (a / b))
  | .greater, .number a, .number b => .ok (.bool (a > b))
  | .greaterEqual, .number a, .number b => .ok (.bool (a ≥ b))
  | .less, .number a, .number b => .ok (.bool (a < b))
  | .lessEqual, .number a, .number b => .ok (.bool (a ≤ b))
  | _, _, _ => .error .operandsNotNumbers

end BinaryOp

/-- Whether the left operand alone decides the result, which then is that operand. -/
def LogicalOp.isDecidedBy : LogicalOp → Value → Bool
  | .or, left => left.isTruthy
  | .and, left => !left.isTruthy

end Lox
