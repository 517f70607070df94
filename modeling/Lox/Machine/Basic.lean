import Lox.Heap.Basic
import Lox.Machine.Fault
import Lox.Machine.Sink
import Lox.Scope.Basic

/-!
The state of a run and the single steps on it. A run can be halted by a fault of the program, by a
full sink, or because its evaluation is not granted enough steps.
-/

namespace Lox

/-- The heap, the scope in which the program is, the number of calls in progress, the output, and
how often the clock was read. -/
structure Machine where
  heap : Heap
  scope : ScopeRef
  depth : Nat
  sink : Sink
  readings : Nat

/-- What a run depends on besides the program: the distances of its names and the clock, as the
sequence of its readings. -/
structure Setting where
  distances : Distances
  clock : Nat → Float

inductive Halt where
  | fault (error : RuntimeError)
  | sinkFull
  | outOfFuel
deriving DecidableEq

/-- How a statement ends, unless it halts the run. -/
inductive Flow where
  | normal
  | returned (value : Value)
deriving DecidableEq

/-- The most calls that may be in progress at a time. -/
def maxDepth : Nat := 1024

namespace Machine

/-- The state before a program. -/
def start (capacity : Option Nat) : Machine where
  heap := .start
  scope := Heap.globals
  depth := 0
  sink := .empty capacity
  readings := 0

end Machine

/-- An evaluation step. A step that halts keeps the state. -/
abbrev Eval := EStateM Halt Machine

namespace Eval

variable {α : Type}

def halt (reason : Halt) : Eval α := fun machine => .error reason machine

def fault (fault : RuntimeFault) (line : Nat) : Eval α := halt (.fault ⟨fault, line⟩)

/-- The value, or else a fault on the given line. -/
def orFault (line : Nat) : Except RuntimeFault α → Eval α
  | .ok value => return value
  | .error reason => fault reason line

def orElseFault (line : Nat) (reason : RuntimeFault) : Option α → Eval α
  | some value => return value
  | none => fault reason line

/-- A look at the heap. -/
def inspect (view : Heap → α) : Eval α := fun machine => .ok (view machine.heap) machine

def currentScope : Eval ScopeRef := fun machine => .ok machine.scope machine

/-- Creates a scope inside another one. -/
def newScope (bindings : Bindings Value) (enclosing : ScopeRef) : Eval ScopeRef := fun machine =>
  .ok machine.heap.scopes.next
    { machine with heap.scopes := machine.heap.scopes.push bindings (some enclosing) }

/-- Introduces a name in a scope, or gives it a new value there. -/
def defineIn (scope : ScopeRef) (name : String) (value : Value) : Eval Unit := fun machine =>
  .ok () { machine with heap.scopes := machine.heap.scopes.define scope name value }

/-- Introduces a name in the scope in which the program is. -/
def define (name : String) (value : Value) : Eval Unit := do
  defineIn (← currentScope) name value

def newFunction (closure : Closure) : Eval Value := fun machine =>
  .ok (.callable (.ofFunction ⟨machine.heap.functions.size⟩))
    { machine with heap.functions := machine.heap.functions.push closure }

def newClass (object : ClassObject) : Eval Value := fun machine =>
  .ok (.callable (.ofClass ⟨machine.heap.classes.size⟩))
    { machine with heap.classes := machine.heap.classes.push object }

def newInstance (owner : ClassRef) : Eval InstanceRef := fun machine =>
  .ok ⟨machine.heap.instances.size⟩
    { machine with heap.instances := machine.heap.instances.push ⟨owner, .empty⟩ }

def setField (ref : InstanceRef) (name : String) (value : Value) : Eval Unit := fun machine =>
  .ok () { machine with heap := machine.heap.setField ref name value }

/-- Reads the clock. -/
def readClock (setting : Setting) : Eval Value := fun machine =>
  .ok (.number (setting.clock machine.readings)) { machine with readings := machine.readings + 1 }

/-- Prints a text and a line break. -/
def printLine (text : String) : Eval Unit := fun machine =>
  let bytes := (text ++ "\n").toUTF8
  let admitted := machine.sink.admits bytes
  let after := { machine with sink := machine.sink.write bytes }
  if admitted then .ok () after else .error .sinkFull after

/-- Runs a step inside a scope and comes back to the present one, however the step ends. -/
def within (scope : ScopeRef) (step : Eval α) : Eval α := fun machine =>
  let outer := machine.scope
  match step { machine with scope } with
  | .ok value after => .ok value { after with scope := outer }
  | .error reason after => .error reason { after with scope := outer }

/-- Counts a call as in progress during a step, however the step ends. Too many are a fault. -/
def deeper (line : Nat) (step : Eval α) : Eval α := fun machine =>
  let depth := machine.depth
  if depth < maxDepth then
    match step { machine with depth := depth + 1 } with
    | .ok value after => .ok value { after with depth }
    | .error reason after => .error reason { after with depth }
  else
    fault .stackOverflow line machine

end Eval

end Lox
