import Lox.Tree.Basic
import Lox.Tree.Fault

/-!
The state in which tokens are parsed and the steps on it. A failing step keeps the state, so that
parsing can go on after it, and some errors are reported without failing.
-/

namespace Lox.Parse

/-- The tokens still to come, the line of the end of the source, the next identifier to hand out
and the errors so far. -/
structure State where
  rest : List Token
  endLine : Nat
  nextId : NodeId
  errors : Array SyntaxError

namespace State

/-- The next token, which is the end of the source when none is left. -/
def peek (state : State) : Token :=
  state.rest.headD (.eof state.endLine)

/-- The state before the first token. A token list ends at its first end mark. -/
def start (tokens : List Token) (firstId : NodeId) : State where
  rest := tokens.takeWhile (·.kind != .eof)
  endLine := (tokens.find? (·.kind == .eof)).elim 1 (·.line)
  nextId := firstId
  errors := #[]

end State

end Parse

/-- A parser of one form of the grammar. -/
abbrev Parse := EStateM SyntaxError Parse.State

namespace Parse

def peek : Parse Token := fun state => .ok state.peek state

def atEnd : Parse Bool := fun state => .ok state.rest.isEmpty state

/-- The number of tokens still to come, which bounds every repetition. -/
def remaining : Parse Nat := fun state => .ok state.rest.length state

/-- Passes over the next token. -/
def skip : Parse Unit := fun state => .ok () { state with rest := state.rest.tail }

/-- Whether the next token is the given word. -/
def check (word : Terminal) : Parse Bool := fun state =>
  .ok (state.peek.kind == .terminal word) state

/-- Passes over the next token and says so, if it is the given word. -/
def take (word : Terminal) : Parse Bool := do
  if ← check word then
    skip
    return true
  else
    return false

/-- Fails at the next token. -/
def fail {α : Type} (fault : SyntaxFault) : Parse α := fun state =>
  .error ⟨fault, state.peek⟩ state

/-- Records an error without failing. -/
def report (error : SyntaxError) : Parse Unit := fun state =>
  .ok () { state with errors := state.errors.push error }

/-- The token that meets an expectation. -/
def expect (expectation : Expectation) : Parse Token := do
  let token ← peek
  if token.kind = expectation.wanted then
    skip
    return token
  else
    fail (.missing expectation)

def expectName (expectation : Expectation) : Parse Name := do
  let token ← expect expectation
  return ⟨token.lexeme, token.line⟩

/-- Hands out the next identifier. -/
def freshId : Parse NodeId := fun state =>
  .ok state.nextId { state with nextId := state.nextId + 1 }

/-- The operator that the next token stands for, with its line. -/
def takeOperator? {α : Type} (operator? : Kind → Option α) : Parse (Option (α × Nat)) := do
  let token ← peek
  match operator? token.kind with
  | some op =>
    skip
    return some (op, token.line)
  | none => return none

/-- Items with commas between them, after `count` earlier ones. Each item beyond the greatest arity
is reported before it is parsed. -/
def commaSeparated {α : Type} (excess : SyntaxFault) (item : Parse α) :
    (bound : Nat) → (count : Nat) → Parse (List α)
  | 0, _ => return []
  | bound + 1, count => do
    if maxArity ≤ count then
      report ⟨excess, ← peek⟩
    let first ← item
    if ← take .comma then
      return first :: (← commaSeparated excess item bound (count + 1))
    else
      return [first]

/-- Items with commas between them, or none before a closing parenthesis. -/
def listed {α : Type} (excess : SyntaxFault) (item : Parse α) : Parse (List α) := do
  if ← check .rightParen then
    return []
  else
    commaSeparated excess item ((← remaining) + 1) 0

end Lox.Parse
