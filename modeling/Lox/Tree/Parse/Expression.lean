import Lox.Tree.Parse.Basic

/-!
Expressions, from the loosest binding form to the tightest. Each form takes the parser of the
expressions nested in it, and the nesting is tied at the end: it is never deeper than tokens are
left, for every nested expression comes after a token of the outer one.
-/

namespace Lox.Parse

/-- The rest of a call after its opening parenthesis. -/
def callArguments (expression : Parse Expr) (callee : Expr) : Parse Expr := do
  let arguments ← listed .tooManyArguments expression
  let paren ← expect .parenAfterArguments
  return .call callee paren.line arguments

def primary (expression : Parse Expr) : Parse Expr := do
  let token ← peek
  match token.kind with
  | .terminal .kwFalse =>
    skip
    return .literal (.bool false)
  | .terminal .kwTrue =>
    skip
    return .literal (.bool true)
  | .terminal .kwNil =>
    skip
    return .literal .nil
  | .number value =>
    skip
    return .literal (.number value)
  | .string contents =>
    skip
    return .literal (.string contents)
  | .terminal .kwSuper =>
    skip
    discard <| expect .dotAfterSuper
    let method ← expectName .superMethodName
    return .super (← freshId) token.line method
  | .terminal .kwThis =>
    skip
    return .this (← freshId) token.line
  | .identifier =>
    skip
    return .read (← freshId) ⟨token.lexeme, token.line⟩
  | .terminal .leftParen =>
    skip
    let inner ← expression
    discard <| expect .parenAfterGrouping
    return .grouping inner
  | _ => fail .missingExpression

/-- The calls and property reads that follow a callee. -/
def callsFrom (expression : Parse Expr) : (bound : Nat) → Expr → Parse Expr
  | 0, callee => return callee
  | bound + 1, callee => do
    if ← take .leftParen then
      callsFrom expression bound (← callArguments expression callee)
    else if ← take .dot then
      callsFrom expression bound (.get callee (← expectName .propertyName))
    else
      return callee

def call (expression : Parse Expr) : Parse Expr := do
  let callee ← primary expression
  callsFrom expression (← remaining) callee

/-- The unary operators at the head of a token list, with their lines, and the tokens after them. -/
def leadingUnary : List Token → List (UnaryOp × Nat) × List Token
  | [] => ([], [])
  | token :: rest =>
    match UnaryOp.ofKind? token.kind with
    | some op => ((op, token.line) :: (leadingUnary rest).1, (leadingUnary rest).2)
    | none => ([], token :: rest)

def unaryOperators : Parse (List (UnaryOp × Nat)) := fun state =>
  let (operators, rest) := leadingUnary state.rest
  .ok operators { state with rest }

/-- A call under its unary operators, of which the last binds tightest. -/
def unary (expression : Parse Expr) : Parse Expr := do
  let operators ← unaryOperators
  let operand ← call expression
  return operators.foldr (fun (op, line) inner => .unary op line inner) operand

/-- The operators and operands that follow a left operand, grouped to the left. -/
def chainFrom {α : Type} (operator? : Kind → Option α) (join : α → Nat → Expr → Expr → Expr)
    (operand : Parse Expr) : (bound : Nat) → Expr → Parse Expr
  | 0, left => return left
  | bound + 1, left => do
    match ← takeOperator? operator? with
    | some (op, line) =>
      let right ← operand
      chainFrom operator? join operand bound (join op line left right)
    | none => return left

/-- One level of left-associative operators. -/
def chain {α : Type} (operator? : Kind → Option α) (join : α → Nat → Expr → Expr → Expr)
    (operand : Parse Expr) : Parse Expr := do
  let left ← operand
  chainFrom operator? join operand (← remaining) left

def factor (expression : Parse Expr) : Parse Expr :=
  chain BinaryOp.factor? .binary (unary expression)

def term (expression : Parse Expr) : Parse Expr :=
  chain BinaryOp.term? .binary (factor expression)

def comparison (expression : Parse Expr) : Parse Expr :=
  chain BinaryOp.comparison? .binary (term expression)

def equality (expression : Parse Expr) : Parse Expr :=
  chain BinaryOp.equality? .binary (comparison expression)

def conjunction (expression : Parse Expr) : Parse Expr :=
  chain LogicalOp.conjunction? .logical (equality expression)

def disjunction (expression : Parse Expr) : Parse Expr :=
  chain LogicalOp.disjunction? .logical (conjunction expression)

/-- The target is parsed before the equals sign shows that it is one. Anything but a name or a
property is reported and stands for the whole assignment. -/
def assignment (expression : Parse Expr) : Parse Expr := do
  let target ← disjunction expression
  let equals ← peek
  if ← take .equal then
    let value ← expression
    match target with
    | .read _ name => return .assign (← freshId) name value
    | .get object name => return .set object name value
    | other =>
      report ⟨.invalidAssignmentTarget, equals⟩
      return other
  else
    return target

/-- Expressions nested less than `depth` deep. -/
def expressionWithin : (depth : Nat) → Parse Expr
  | 0 => fail .missingExpression
  | depth + 1 => assignment (expressionWithin depth)

def expression : Parse Expr := do
  expressionWithin ((← remaining) + 1)

end Lox.Parse
