import Lox.Machine.Basic
import Lox.Machine.Operators

/-! The state of an evaluation by lexical scoping. An environment is an immutable list of names with
their locations in a store. It is extended by every declaration, captured by functions and methods,
and never shared: there are neither scopes that change nor distances. -/

namespace Lox.Lexical

structure Location where
  index : Nat
deriving DecidableEq

/-- The names in scope with their locations, the nearest declaration first. -/
abbrev Environment := List (String × Location)

def Environment.find? (environment : Environment) (name : String) : Option Location :=
  Bindings.findEntry? name environment

/-- A routine with the environment at its definition. -/
structure Closure where
  name : String
  parameters : List String
  body : List Stmt
  environment : Environment
  isInitializer : Bool
deriving Inhabited

def Closure.ofRoutine (routine : Routine) (environment : Environment) (isInitializer : Bool) :
    Closure :=
  ⟨routine.name.text, routine.parameters.map (·.text), routine.body, environment, isInitializer⟩

structure ClassObject where
  name : String
  superclass : Option ClassRef
  methods : Bindings Closure
deriving Inhabited

/-- The values of the local names by location, those of the global names by name, and the rest of
what a run can see or change. -/
structure State where
  store : Array Value
  globals : Bindings Value
  functions : Array Closure
  classes : Array ClassObject
  instances : Array Instance
  depth : Nat
  sink : Sink
  readings : Nat

/-- Where a declaration takes effect: among the globals or in an environment. -/
inductive Place where
  | globals
  | within (environment : Environment)

def Place.environment : Place → Environment
  | globals => []
  | within environment => environment

namespace State

/-- The state before a program. -/
def start (capacity : Option Nat) : State where
  store := #[]
  globals := Bindings.empty.insert "clock" (.callable .clock)
  functions := #[]
  classes := #[]
  instances := #[]
  depth := 0
  sink := .empty capacity
  readings := 0

def closureAt (state : State) (ref : FunctionRef) : Closure :=
  state.functions.getD ref.index default

def classAt (state : State) (ref : ClassRef) : ClassObject :=
  state.classes.getD ref.index default

def instanceAt (state : State) (ref : InstanceRef) : Instance :=
  state.instances.getD ref.index default

def methodWithin? (state : State) (name : String) : (bound : Nat) → ClassRef → Option Closure
  | 0, _ => none
  | bound + 1, ref =>
    match (state.classAt ref).methods.find? name with
    | some method => some method
    | none => (state.classAt ref).superclass.bind (state.methodWithin? name bound)

/-- The method of a class or else of the nearest class above it. -/
def method? (state : State) (ref : ClassRef) (name : String) : Option Closure :=
  state.methodWithin? name state.classes.size ref

def arity (state : State) : Callable → Nat
  | .clock => 0
  | .ofFunction ref => (state.closureAt ref).parameters.length
  | .ofClass ref => (state.method? ref initializerName).elim 0 (·.parameters.length)

def display (state : State) : Value → String
  | .nil => "nil"
  | .bool true => "true"
  | .bool false => "false"
  | .number value => Numeral.display value
  | .string contents => contents
  | .callable .clock => "<native fn>"
  | .callable (.ofFunction ref) => "<fn " ++ (state.closureAt ref).name ++ ">"
  | .callable (.ofClass ref) => "<class " ++ (state.classAt ref).name ++ ">"
  | .object ref => (state.classAt (state.instanceAt ref).owner).name ++ " instance"

end State

abbrev Eval := EStateM Halt State

namespace Eval

variable {α : Type}

def halt (reason : Halt) : Eval α := fun state => .error reason state

def fault (fault : RuntimeFault) (line : Nat) : Eval α := halt (.fault ⟨fault, line⟩)

def orFault (line : Nat) : Except RuntimeFault α → Eval α
  | .ok value => return value
  | .error reason => fault reason line

def orElseFault (line : Nat) (reason : RuntimeFault) : Option α → Eval α
  | some value => return value
  | none => fault reason line

def inspect (view : State → α) : Eval α := fun state => .ok (view state) state

/-- The locations of names that are declared in order, from a first free one on. -/
def locationsFrom : Nat → List (String × Value) → Environment
  | _, [] => []
  | next, (name, _) :: rest => (name, ⟨next⟩) :: locationsFrom (next + 1) rest

/-- Declares names with their values, each at a fresh location. -/
def extend (environment : Environment) (entries : List (String × Value)) : Eval Environment :=
  fun state => .ok (locationsFrom state.store.size entries ++ environment)
    { state with store := state.store ++ (entries.map (·.2)).toArray }

/-- Writes a location. -/
def write (location : Location) (value : Value) : Eval Unit := fun state =>
  .ok () { state with store := state.store.setIfInBounds location.index value }

/-- Gives a global name a value. -/
def writeGlobal (name : String) (value : Value) : Eval Unit := fun state =>
  .ok () { state with globals := state.globals.insert name value }

/-- Declares a name. Its location is fresh, and the name is visible from here on. -/
def declare (place : Place) (name : String) : Eval Place :=
  match place with
  | .globals => return .globals
  | .within environment => do
    return .within (← extend environment [(name, .nil)])

/-- Gives a declared name its first value. -/
def settle (place : Place) (name : String) (value : Value) : Eval Unit :=
  match place with
  | .globals => writeGlobal name value
  | .within environment =>
    match environment.find? name with
    | some location => write location value
    | none => return ()

def newFunction (closure : Closure) : Eval Value := fun state =>
  .ok (.callable (.ofFunction ⟨state.functions.size⟩))
    { state with functions := state.functions.push closure }

def newClass (object : ClassObject) : Eval Value := fun state =>
  .ok (.callable (.ofClass ⟨state.classes.size⟩))
    { state with classes := state.classes.push object }

def newInstance (owner : ClassRef) : Eval InstanceRef := fun state =>
  .ok ⟨state.instances.size⟩
    { state with instances := state.instances.push ⟨owner, .empty⟩ }

def setField (ref : InstanceRef) (name : String) (value : Value) : Eval Unit := fun state =>
  .ok () { state with instances := state.instances.modify ref.index fun held =>
    { held with fields := held.fields.insert name value } }

def readClock (clock : Nat → Float) : Eval Value := fun state =>
  .ok (.number (clock state.readings)) { state with readings := state.readings + 1 }

def printLine (text : String) : Eval Unit := fun state =>
  let bytes := (text ++ "\n").toUTF8
  let admitted := state.sink.admits bytes
  let after := { state with sink := state.sink.write bytes }
  if admitted then .ok () after else .error .sinkFull after

/-- Counts a call as in progress during a step, however the step ends. -/
def deeper (line : Nat) (step : Eval α) : Eval α := fun state =>
  let depth := state.depth
  if depth < maxDepth then
    match step { state with depth := depth + 1 } with
    | .ok value after => .ok value { after with depth }
    | .error reason after => .error reason { after with depth }
  else
    fault .stackOverflow line state

end Eval

end Lox.Lexical
