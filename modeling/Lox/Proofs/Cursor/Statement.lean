import Lox.Proofs.Cursor.Expression

/-! Statements, declarations and whole programs, with their loops and their nesting bounded by fuel
alone. -/

namespace Lox.Cursor

def varDeclaration (fuel : Nat) : Cursor Stmt := do
  let name ← expectName .variableName
  let initializer ← if ← take (.terminal .equal) then some <$> expression fuel else pure none
  discard <| expect .semicolonAfterDeclaration
  return .declareVar name initializer

def expressionStatement (fuel : Nat) : Cursor Stmt := do
  let value ← expression fuel
  discard <| expect .semicolonAfterExpression
  return .expression value

def printStatement (fuel : Nat) : Cursor Stmt := do
  let value ← expression fuel
  discard <| expect .semicolonAfterPrint
  return .print value

def returnStatement (fuel : Nat) : Cursor Stmt := do
  let keyword ← previous
  let value ←
    if ← check (.terminal .semicolon) then pure none else some <$> expression fuel
  discard <| expect .semicolonAfterReturn
  return .return keyword.line value

def forInitializer (fuel : Nat) : Cursor (Option Stmt) := do
  if ← take (.terminal .semicolon) then
    return none
  else if ← take (.terminal .kwVar) then
    some <$> varDeclaration fuel
  else
    some <$> expressionStatement fuel

def superclass? : Cursor (Option Superclass) := do
  if ← take (.terminal .less) then
    let name ← expectName .superclassName
    return some ⟨← freshId, name⟩
  else
    return none

/-- Reports a failure and passes to the next boundary. Either way puts on record where it started and
stopped. -/
def recovering (fuel : Nat) (parse : Cursor Stmt) : Cursor (Option Stmt) := do
  let start := (← get).current
  let stmt? ←
    try some <$> parse
    catch error =>
      report error
      synchronize fuel
      pure none
  modify fun state =>
    { state with declarations := ⟨start, state.current⟩ :: state.declarations }
  return stmt?

mutual

def declaration : (fuel : Nat) → Cursor (Option Stmt)
  | 0 => exhausted
  | fuel + 1 => recovering fuel (declared fuel)

/-- A declaration, or else a statement, that may fail. -/
def declared : (fuel : Nat) → Cursor Stmt
  | 0 => exhausted
  | fuel + 1 => do
    if ← take (.terminal .kwClass) then
      classDeclaration fuel
    else if ← take (.terminal .kwFun) then
      .declareFunction <$> routine fuel .function
    else if ← take (.terminal .kwVar) then
      varDeclaration fuel
    else
      statement fuel

def classDeclaration : (fuel : Nat) → Cursor Stmt
  | 0 => exhausted
  | fuel + 1 => do
    let name ← expectName .className
    let superclass ← superclass?
    discard <| expect .braceBeforeClassBody
    let routines ← methods fuel
    discard <| expect .braceAfterClassBody
    return .declareClass name superclass routines

/-- The methods up to the closing brace of a class. -/
def methods : (fuel : Nat) → Cursor (List Routine)
  | 0 => exhausted
  | fuel + 1 => do
    if ← inBlock then
      let first ← routine fuel .method
      return first :: (← methods fuel)
    else
      return []

def routine : (fuel : Nat) → RoutineKind → Cursor Routine
  | 0, _ => exhausted
  | fuel + 1, kind => do
    let name ← expectName (.routineName kind)
    discard <| expect (.parenAfterRoutineName kind)
    let parameters ← listed .tooManyParameters (expectName .parameterName) fuel
    discard <| expect .parenAfterParameters
    discard <| expect (.braceBeforeRoutineBody kind)
    let body ← block fuel
    return ⟨name, parameters, body⟩

/-- The declarations of a block and its closing brace. -/
def block : (fuel : Nat) → Cursor (List Stmt)
  | 0 => exhausted
  | fuel + 1 => do
    let body ← declarations fuel
    discard <| expect .braceAfterBlock
    return body

def declarations : (fuel : Nat) → Cursor (List Stmt)
  | 0 => exhausted
  | fuel + 1 => do
    if ← inBlock then
      let first ← declaration fuel
      let later ← declarations fuel
      return first.toList ++ later
    else
      return []

def statement : (fuel : Nat) → Cursor Stmt
  | 0 => exhausted
  | fuel + 1 => do
    if ← take (.terminal .kwFor) then
      forStatement fuel
    else if ← take (.terminal .kwIf) then
      ifStatement fuel
    else if ← take (.terminal .kwPrint) then
      printStatement fuel
    else if ← take (.terminal .kwReturn) then
      returnStatement fuel
    else if ← take (.terminal .kwWhile) then
      whileStatement fuel
    else if ← take (.terminal .leftBrace) then
      .block <$> block fuel
    else
      expressionStatement fuel

def forStatement : (fuel : Nat) → Cursor Stmt
  | 0 => exhausted
  | fuel + 1 => do
    discard <| expect .parenAfterFor
    let initializer ← forInitializer fuel
    let condition ←
      if ← check (.terminal .semicolon) then pure none else some <$> expression fuel
    discard <| expect .semicolonAfterLoopCondition
    let increment ←
      if ← check (.terminal .rightParen) then pure none else some <$> expression fuel
    discard <| expect .parenAfterForClauses
    return .forLoop initializer condition increment (← statement fuel)

def ifStatement : (fuel : Nat) → Cursor Stmt
  | 0 => exhausted
  | fuel + 1 => do
    discard <| expect .parenAfterIf
    let condition ← expression fuel
    discard <| expect .parenAfterIfCondition
    let consequent ← statement fuel
    if ← take (.terminal .kwElse) then
      return .ifElse condition consequent (← statement fuel)
    else
      return .ifThen condition consequent

def whileStatement : (fuel : Nat) → Cursor Stmt
  | 0 => exhausted
  | fuel + 1 => do
    discard <| expect .parenAfterWhile
    let condition ← expression fuel
    discard <| expect .parenAfterWhileCondition
    return .while condition (← statement fuel)

end

/-- The declarations up to the end of the source. -/
def program : (fuel : Nat) → Cursor (List Stmt)
  | 0 => exhausted
  | fuel + 1 => do
    if ← atEnd then
      return []
    else
      let first ← declaration fuel
      let later ← program fuel
      return first.toList ++ later

/-- Parses a buffer, handing out identifiers from `firstId` on. Gives the state after it too. -/
def parse (fuel : Nat) (tokens : List Token) (firstId : NodeId) : Option (Parsed × State) := do
  let (outcome, final) ← program fuel tokens (.start firstId)
  match outcome with
  | .ok program =>
    let parsed := if final.errors.isEmpty then .ok program else .error final.errors.toList
    return (⟨parsed, final.nextId⟩, final)
  | .error error => return (⟨.error (final.errors.push error).toList, final.nextId⟩, final)

end Lox.Cursor
