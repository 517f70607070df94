import Lox.Tree.Parse.Statement

/-!
A second parser, over a buffer of tokens that ends in an end mark. It keeps its place in the buffer as
an index, so that it may look outside the buffer, and the tokens do not bound its loops and its
recursion, so that it may go on for ever. Each round and each call spends fuel. Running out of fuel
and looking outside the buffer give no result.
-/

namespace Lox

namespace Cursor

/-- Where a call of the declaration parser started and stopped. -/
structure Span where
  start : Nat
  stop : Nat

/-- The index of the next token, the next identifier to hand out and the errors so far. On record are
the places at which the parser looked, the newest first, and the declarations it has been through. -/
structure State where
  current : Nat
  nextId : NodeId
  errors : Array SyntaxError
  looks : List Nat
  declarations : List Span

/-- The state before the first token. -/
def State.start (firstId : NodeId) : State where
  current := 0
  nextId := firstId
  errors := #[]
  looks := []
  declarations := []

end Cursor

/-- A parser of one form of the grammar over a buffer, with no result where it runs out of fuel or looks
outside the buffer. -/
abbrev Cursor := ReaderT (List Token) (ExceptT SyntaxError (StateT Cursor.State Option))

namespace Cursor

variable {α : Type}

/-- Out of fuel. -/
def exhausted : Cursor α := fun _ _ => none

/-- The next token. -/
def peek : Cursor Token := fun tokens state => do
  let token ← tokens[state.current]?
  return (.ok token, { state with looks := state.current :: state.looks })

/-- The token just passed over, which the first token has none of. -/
def previous : Cursor Token := fun tokens state =>
  match state.current with
  | 0 => none
  | last + 1 => tokens[last]?.map fun token => (.ok token, state)

def atEnd : Cursor Bool := do
  return (← peek).kind == .eof

/-- Passes over the next token, except at the end. -/
def advance : Cursor Token := do
  unless ← atEnd do
    modify fun state => { state with current := state.current + 1 }
  previous

def check (kind : Kind) : Cursor Bool := do
  if ← atEnd then
    return false
  else
    return (← peek).kind == kind

/-- Passes over the next token and says so, if it is the given word. -/
def take (kind : Kind) : Cursor Bool := do
  if ← check kind then
    discard advance
    return true
  else
    return false

/-- An error at a token. The end of the source is shown by its line alone. -/
def errorAt (token : Token) (fault : SyntaxFault) : SyntaxError :=
  ⟨fault, if token.kind = .eof then .eof token.line else token⟩

def fail (fault : SyntaxFault) : Cursor α := do
  throw (errorAt (← peek) fault)

/-- Records an error without failing. -/
def report (error : SyntaxError) : Cursor Unit :=
  modify fun state => { state with errors := state.errors.push error }

def expect (expectation : Expectation) : Cursor Token := do
  if ← check expectation.wanted then
    advance
  else
    fail (.missing expectation)

def expectName (expectation : Expectation) : Cursor Name := do
  let token ← expect expectation
  return ⟨token.lexeme, token.line⟩

def freshId : Cursor NodeId := do
  let id := (← get).nextId
  modify fun state => { state with nextId := state.nextId + 1 }
  return id

/-- What the next token means as an operator, if it is one. -/
def operator? (meaning? : Kind → Option α) : Cursor (Option α) := do
  if ← atEnd then
    return none
  else
    return meaning? (← peek).kind

/-- Items with commas between them, after `count` earlier ones. Each item beyond the greatest arity is
reported before it is parsed. -/
def commaSeparated (excess : SyntaxFault) (item : Cursor α) : (fuel count : Nat) → Cursor (List α)
  | 0, _ => exhausted
  | fuel + 1, count => do
    if maxArity ≤ count then
      report (errorAt (← peek) excess)
    let first ← item
    if ← take (.terminal .comma) then
      return first :: (← commaSeparated excess item fuel (count + 1))
    else
      return [first]

/-- Items with commas between them, or none before a closing parenthesis. -/
def listed (excess : SyntaxFault) (item : Cursor α) (fuel : Nat) : Cursor (List α) := do
  if ← check (.terminal .rightParen) then
    return []
  else
    commaSeparated excess item fuel 0

/-- Whether a block goes on. -/
def inBlock : Cursor Bool := do
  if ← check (.terminal .rightBrace) then
    return false
  else
    return !(← atEnd)

/-- Passes over tokens to where a statement may begin: after a semicolon, before the keyword of a
statement or at the end. -/
def seekBoundary : (fuel : Nat) → Cursor Unit
  | 0 => exhausted
  | fuel + 1 => do
    if ← atEnd then
      return ()
    else if (← previous).kind = .terminal .semicolon then
      return ()
    else if Parse.startsStatement [← peek] then
      return ()
    else
      discard advance
      seekBoundary fuel

/-- Goes on past one token, to the next boundary. -/
def synchronize (fuel : Nat) : Cursor Unit := do
  discard advance
  seekBoundary fuel

end Cursor

end Lox
