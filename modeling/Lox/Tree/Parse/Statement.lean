import Lox.Tree.Parse.Expression

/-!
Statements, declarations and whole programs. A declaration that fails is reported, and parsing
goes on at the next boundary between statements, so that one pass reports the errors of all.
-/

namespace Lox.Parse

/-- Whether a statement may begin here, judging by its keyword. -/
def startsStatement : List Token → Bool
  | [] => false
  | token :: _ =>
    match token.kind with
    | .terminal .kwClass | .terminal .kwFun | .terminal .kwVar | .terminal .kwFor | .terminal .kwIf
    | .terminal .kwWhile | .terminal .kwPrint | .terminal .kwReturn => true
    | _ => false

/-- The tokens from the next boundary on: after a semicolon or before a statement's keyword, but
past one token at least. -/
def nextBoundary : List Token → List Token
  | [] => []
  | token :: rest =>
    if token.kind = .terminal .semicolon ∨ startsStatement rest then rest else nextBoundary rest

/-- Reports a failure and passes to the next boundary. -/
def recovering (parse : Parse Stmt) : Parse (Option Stmt) := fun state =>
  match parse state with
  | .ok stmt after => .ok (some stmt) after
  | .error error after =>
    .ok none { after with rest := nextBoundary after.rest, errors := after.errors.push error }

/-- Declarations for as long as `more` holds, without those that failed. -/
def declarationsWhile (more : Parse Bool) (declaration : Parse (Option Stmt)) :
    (bound : Nat) → Parse (List Stmt)
  | 0 => return []
  | bound + 1 => do
    if ← more then
      let first ← declaration
      let later ← declarationsWhile more declaration bound
      return first.toList ++ later
    else
      return []

/-- Whether a block goes on. -/
def inBlock : Parse Bool := do
  return !(← check .rightBrace) && !(← atEnd)

/-- The declarations of a block and its closing brace. -/
def block (declaration : Parse (Option Stmt)) : Parse (List Stmt) := do
  let body ← declarationsWhile inBlock declaration (← remaining)
  discard <| expect .braceAfterBlock
  return body

def routine (kind : RoutineKind) (declaration : Parse (Option Stmt)) : Parse Routine := do
  let name ← expectName (.routineName kind)
  discard <| expect (.parenAfterRoutineName kind)
  let parameters ← listed .tooManyParameters (expectName .parameterName)
  discard <| expect .parenAfterParameters
  discard <| expect (.braceBeforeRoutineBody kind)
  let body ← block declaration
  return ⟨name, parameters, body⟩

/-- The methods up to the closing brace of a class. -/
def methods (declaration : Parse (Option Stmt)) : (bound : Nat) → Parse (List Routine)
  | 0 => return []
  | bound + 1 => do
    if ← inBlock then
      let first ← routine .method declaration
      return first :: (← methods declaration bound)
    else
      return []

def superclass? : Parse (Option Superclass) := do
  if ← take .less then
    let name ← expectName .superclassName
    return some ⟨← freshId, name⟩
  else
    return none

/-- A class after its keyword. -/
def classDeclaration (declaration : Parse (Option Stmt)) : Parse Stmt := do
  let name ← expectName .className
  let superclass ← superclass?
  discard <| expect .braceBeforeClassBody
  let routines ← methods declaration (← remaining)
  discard <| expect .braceAfterClassBody
  return .declareClass name superclass routines

/-- A variable declaration after its keyword. -/
def varDeclaration : Parse Stmt := do
  let name ← expectName .variableName
  let initializer ← if ← take .equal then some <$> expression else pure none
  discard <| expect .semicolonAfterDeclaration
  return .declareVar name initializer

def expressionStatement : Parse Stmt := do
  let value ← expression
  discard <| expect .semicolonAfterExpression
  return .expression value

def printStatement : Parse Stmt := do
  let value ← expression
  discard <| expect .semicolonAfterPrint
  return .print value

/-- The rest of a `return` that stands on `line`. -/
def returnStatement (line : Nat) : Parse Stmt := do
  let value ← if ← check .semicolon then pure none else some <$> expression
  discard <| expect .semicolonAfterReturn
  return .return line value

def whileStatement (statement : Parse Stmt) : Parse Stmt := do
  discard <| expect .parenAfterWhile
  let condition ← expression
  discard <| expect .parenAfterWhileCondition
  return .while condition (← statement)

def ifStatement (statement : Parse Stmt) : Parse Stmt := do
  discard <| expect .parenAfterIf
  let condition ← expression
  discard <| expect .parenAfterIfCondition
  let consequent ← statement
  if ← take .kwElse then
    return .ifElse condition consequent (← statement)
  else
    return .ifThen condition consequent

/-- The first clause of a `for` statement, with its semicolon. -/
def forInitializer : Parse (Option Stmt) := do
  if ← take .semicolon then
    return none
  else if ← take .kwVar then
    some <$> varDeclaration
  else
    some <$> expressionStatement

def forStatement (statement : Parse Stmt) : Parse Stmt := do
  discard <| expect .parenAfterFor
  let initializer ← forInitializer
  let condition ← if ← check .semicolon then pure none else some <$> expression
  discard <| expect .semicolonAfterLoopCondition
  let increment ← if ← check .rightParen then pure none else some <$> expression
  discard <| expect .parenAfterForClauses
  return .forLoop initializer condition increment (← statement)

/-- A statement around nested statements and declarations. -/
def statementAround (statement : Parse Stmt) (declaration : Parse (Option Stmt)) : Parse Stmt := do
  let token ← peek
  match token.kind with
  | .terminal .kwFor =>
    skip
    forStatement statement
  | .terminal .kwIf =>
    skip
    ifStatement statement
  | .terminal .kwPrint =>
    skip
    printStatement
  | .terminal .kwReturn =>
    skip
    returnStatement token.line
  | .terminal .kwWhile =>
    skip
    whileStatement statement
  | .terminal .leftBrace =>
    skip
    .block <$> block declaration
  | _ => expressionStatement

/-- A declaration, or else a statement, around nested ones. -/
def declarationAround (statement : Parse Stmt) (declaration : Parse (Option Stmt)) :
    Parse (Option Stmt) :=
  recovering do
    if ← take .kwClass then
      classDeclaration declaration
    else if ← take .kwFun then
      .declareFunction <$> routine .function declaration
    else if ← take .kwVar then
      varDeclaration
    else
      statementAround statement declaration

mutual

/-- Statements nested less than `depth` deep. -/
def statementWithin : (depth : Nat) → Parse Stmt
  | 0 => fail .missingExpression
  | depth + 1 => statementAround (statementWithin depth) (declarationWithin depth)

/-- Declarations nested less than `depth` deep. -/
def declarationWithin : (depth : Nat) → Parse (Option Stmt)
  | 0 => recovering (fail .missingExpression)
  | depth + 1 => declarationAround (statementWithin depth) (declarationWithin depth)

end

/-- The declarations up to the end of the source. -/
def program : Parse (List Stmt) := do
  let count ← remaining
  declarationsWhile (not <$> atEnd) (declarationWithin (count + 1)) count

end Parse

/-- What parsing a token list gives: the program or else its errors, and the first identifier that
was not handed out. -/
structure Parsed where
  program : Except (List SyntaxError) (List Stmt)
  nextId : NodeId

namespace Parsed

/-- Parses a token list, handing out identifiers from `firstId` on. -/
def ofTokens (tokens : List Token) (firstId : NodeId) : Parsed :=
  match Parse.program (.start tokens firstId) with
  | .ok program state =>
    ⟨if state.errors.isEmpty then .ok program else .error state.errors.toList, state.nextId⟩
  | .error error state => ⟨.error (state.errors.push error).toList, state.nextId⟩

end Parsed

end Lox
