import Lox.Proofs.Cursor.Basic

/-! Expressions, with their loops and their nesting bounded by fuel alone. -/

namespace Lox.Cursor

/-- The levels of binary operators, from the loosest binding one. -/
inductive Level where
  | disjunction
  | conjunction
  | equality
  | comparison
  | term
  | factor

namespace Level

/-- How an operator of the level joins its operands. -/
def join? : Level → Kind → Option (Nat → Expr → Expr → Expr)
  | disjunction, kind => (LogicalOp.disjunction? kind).map .logical
  | conjunction, kind => (LogicalOp.conjunction? kind).map .logical
  | equality, kind => (BinaryOp.equality? kind).map .binary
  | comparison, kind => (BinaryOp.comparison? kind).map .binary
  | term, kind => (BinaryOp.term? kind).map .binary
  | factor, kind => (BinaryOp.factor? kind).map .binary

/-- The next level, which binds tighter. -/
def tighter? : Level → Option Level
  | disjunction => some conjunction
  | conjunction => some equality
  | equality => some comparison
  | comparison => some term
  | term => some factor
  | factor => none

end Level

/-- The value of a word that stands for one. -/
def constant? : Cursor (Option Literal) := do
  if ← take (.terminal .kwFalse) then
    return some (.bool false)
  if ← take (.terminal .kwTrue) then
    return some (.bool true)
  if ← take (.terminal .kwNil) then
    return some .nil
  return none

mutual

def expression : (fuel : Nat) → Cursor Expr
  | 0 => exhausted
  | fuel + 1 => do
    let target ← operation fuel .disjunction
    if ← take (.terminal .equal) then
      let equals ← previous
      let value ← expression fuel
      match target with
      | .read _ name => return .assign (← freshId) name value
      | .get object name => return .set object name value
      | other =>
        report (errorAt equals .invalidAssignmentTarget)
        return other
    else
      return target

/-- One level of left-associative operators. -/
def operation : (fuel : Nat) → Level → Cursor Expr
  | 0, _ => exhausted
  | fuel + 1, level => do
    let left ← operand fuel level
    operationFrom fuel level left

def operand : (fuel : Nat) → Level → Cursor Expr
  | 0, _ => exhausted
  | fuel + 1, level =>
    match level.tighter? with
    | some tighter => operation fuel tighter
    | none => unary fuel

/-- The operators and operands that follow a left operand. -/
def operationFrom : (fuel : Nat) → Level → Expr → Cursor Expr
  | 0, _, _ => exhausted
  | fuel + 1, level, left => do
    match ← operator? level.join? with
    | some join =>
      let operator ← advance
      let right ← operand fuel level
      operationFrom fuel level (join operator.line left right)
    | none => return left

def unary : (fuel : Nat) → Cursor Expr
  | 0 => exhausted
  | fuel + 1 => do
    match ← operator? UnaryOp.ofKind? with
    | some op =>
      let operator ← advance
      let right ← unary fuel
      return .unary op operator.line right
    | none =>
      let callee ← primary fuel
      callsFrom fuel callee

/-- The calls and property reads that follow a callee. -/
def callsFrom : (fuel : Nat) → Expr → Cursor Expr
  | 0, _ => exhausted
  | fuel + 1, callee => do
    if ← take (.terminal .leftParen) then
      let arguments ← listed .tooManyArguments (expression fuel) fuel
      let paren ← expect .parenAfterArguments
      callsFrom fuel (.call callee paren.line arguments)
    else if ← take (.terminal .dot) then
      let name ← expectName .propertyName
      callsFrom fuel (.get callee name)
    else
      return callee

def primary : (fuel : Nat) → Cursor Expr
  | 0 => exhausted
  | fuel + 1 => do
    if let some value ← constant? then
      return .literal value
    match (← peek).kind with
    | .number value =>
      discard advance
      return .literal (.number value)
    | .string contents =>
      discard advance
      return .literal (.string contents)
    | _ =>
      if ← take (.terminal .kwSuper) then
        let keyword ← previous
        discard <| expect .dotAfterSuper
        let method ← expectName .superMethodName
        return .super (← freshId) keyword.line method
      if ← take (.terminal .kwThis) then
        let id ← freshId
        return .this id (← previous).line
      if ← take .identifier then
        let id ← freshId
        let name ← previous
        return .read id ⟨name.lexeme, name.line⟩
      if ← take (.terminal .leftParen) then
        let inner ← expression fuel
        discard <| expect .parenAfterGrouping
        return .grouping inner
      fail .missingExpression

end

end Lox.Cursor
