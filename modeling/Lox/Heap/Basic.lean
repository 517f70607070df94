import Lox.Heap.Scopes

/-!
The heap of a run: its scopes and its objects. Functions and classes never change once they are
created, and of an instance only the fields do.
-/

namespace Lox

/-- A routine with the scope it was declared in. -/
structure Closure where
  routine : Routine
  scope : ScopeRef
  isInitializer : Bool
deriving Inhabited

/-- A class with its own methods, and the class from which it inherits others. -/
structure ClassObject where
  name : String
  superclass : Option ClassRef
  methods : Bindings Closure
deriving Inhabited

structure Instance where
  owner : ClassRef
  fields : Bindings Value
deriving Inhabited

structure Heap where
  scopes : Scopes
  functions : Array Closure
  classes : Array ClassObject
  instances : Array Instance

namespace Heap

/-- The scope of the globals is the first one. -/
def globals : ScopeRef := ⟨0⟩

/-- The heap of a new run, whose only binding is the global `clock`. -/
def start : Heap where
  scopes := Scopes.empty.push (Bindings.empty.insert "clock" (.callable .clock)) none
  functions := #[]
  classes := #[]
  instances := #[]

def closureAt (heap : Heap) (ref : FunctionRef) : Closure :=
  heap.functions.getD ref.index default

def classAt (heap : Heap) (ref : ClassRef) : ClassObject :=
  heap.classes.getD ref.index default

def instanceAt (heap : Heap) (ref : InstanceRef) : Instance :=
  heap.instances.getD ref.index default

def field? (heap : Heap) (ref : InstanceRef) (name : String) : Option Value :=
  (heap.instanceAt ref).fields.find? name

/-- Writes a field of an instance, which hides a method of that name. -/
def setField (heap : Heap) (ref : InstanceRef) (name : String) (value : Value) : Heap :=
  { heap with instances := heap.instances.modify ref.index fun held =>
      { held with fields := held.fields.insert name value } }

def methodWithin? (heap : Heap) (name : String) : (bound : Nat) → ClassRef → Option Closure
  | 0, _ => none
  | bound + 1, ref =>
    match (heap.classAt ref).methods.find? name with
    | some method => some method
    | none => (heap.classAt ref).superclass.bind (heap.methodWithin? name bound)

/-- The method of a class or else of the nearest class above it. A superclass is older than the
class itself, so the way up is no longer than there are classes. -/
def method? (heap : Heap) (ref : ClassRef) (name : String) : Option Closure :=
  heap.methodWithin? name heap.classes.size ref

/-- The number of arguments that a call takes. A class takes those of its initializer. -/
def arity (heap : Heap) : Callable → Nat
  | .clock => 0
  | .ofFunction ref => (heap.closureAt ref).routine.arity
  | .ofClass ref => (heap.method? ref initializerName).elim 0 (·.routine.arity)

/-- The text of a value, as it is printed. -/
def display (heap : Heap) : Value → String
  | .nil => "nil"
  | .bool true => "true"
  | .bool false => "false"
  | .number value => Numeral.display value
  | .string contents => contents
  | .callable .clock => "<native fn>"
  | .callable (.ofFunction ref) => "<fn " ++ (heap.closureAt ref).routine.name.text ++ ">"
  | .callable (.ofClass ref) => "<class " ++ (heap.classAt ref).name ++ ">"
  | .object ref => (heap.classAt (heap.instanceAt ref).owner).name ++ " instance"

end Heap

end Lox
