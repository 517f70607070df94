import Lox.Proofs.Lexical.Basic
import Lox.Proofs.Tree.Regular
import Lox.Program

/-! Evaluation by lexical scoping. A name means the nearest declaration before it in the text, found
in the environment, and a name that is declared in no environment is looked up among the globals when
it is used. -/

namespace Lox.Lexical.Eval

/-- The value of a name, by its location or else as a global. -/
def readName (environment : Environment) (name : Name) : Eval Value :=
  match environment.find? name.text with
  | some location => inspect (·.store.getD location.index .nil)
  | none => do
    orElseFault name.line (.undefinedVariable name.text) (← inspect (·.globals.find? name.text))

/-- Writes a name. A global must have been declared. -/
def writeName (environment : Environment) (name : Name) (value : Value) : Eval Unit :=
  match environment.find? name.text with
  | some location => write location value
  | none => do
    if ← inspect (·.globals.contains name.text) then writeGlobal name.text value
    else fault (.undefinedVariable name.text) name.line

/-- The value of a name in an environment alone. -/
def local? (environment : Environment) (name : String) : Eval (Option Value) :=
  inspect fun state => (environment.find? name).map fun location =>
    state.store.getD location.index .nil

/-- The method's closure with `this` declared around it. -/
def bindMethod (method : Closure) (receiver : InstanceRef) : Eval Closure := do
  let environment ← extend method.environment [("this", .object receiver)]
  return { method with environment }

def readProperty (receiver : InstanceRef) (name : Name) : Eval Value := do
  match ← inspect fun state => (state.instanceAt receiver).fields.find? name.text with
  | some value => return value
  | none =>
    match ← inspect fun state => state.method? (state.instanceAt receiver).owner name.text with
    | some method => newFunction (← bindMethod method receiver)
    | none => fault (.undefinedProperty name.text) name.line

/-- A method of the class that `super` means here, bound to the instance that `this` means here. -/
def readSuper (environment : Environment) (line : Nat) (method : Name) : Eval Value := do
  match ← local? environment "super" with
  | some (.callable (.ofClass superclass)) =>
    match ← local? environment "this" with
    | some (.object receiver) =>
      match ← inspect (·.method? superclass method.text) with
      | some found => newFunction (← bindMethod found receiver)
      | none => fault (.undefinedProperty method.text) method.line
    | _ => fault .unresolvedThis line
  | _ => fault .unresolvedSuper line

def readSuperclass (environment : Environment) (superclass : Superclass) : Eval ClassRef := do
  match ← readName environment superclass.name with
  | .callable (.ofClass ref) => return ref
  | _ => fault .superclassNotClass superclass.name.line

def methodTable (environment : Environment) (methods : List Routine) : Bindings Closure :=
  .ofList (methods.map fun method =>
    (method.name.text, .ofRoutine method environment (method.name.text = initializerName)))

/-- Creates a class under its name. With a superclass, its methods are inside a declaration of
`super`. -/
def declareClass (place : Place) (name : Name) (superclass : Option Superclass)
    (methods : List Routine) : Eval Unit := do
  match superclass with
  | none =>
    settle place name.text (← newClass ⟨name.text, none, methodTable place.environment methods⟩)
  | some superclass =>
    let parent ← readSuperclass place.environment superclass
    let environment ← extend place.environment [("super", .callable (.ofClass parent))]
    settle place name.text (← newClass ⟨name.text, some parent, methodTable environment methods⟩)

/-- What a call gives once its body has ended. -/
def callResult (closure : Closure) (flow : Flow) : Eval Value := do
  if closure.isInitializer then
    return (← local? closure.environment "this").getD .nil
  else
    match flow with
    | .returned value => return value
    | .normal => return .nil

/-- The place of a statement, in which the name that it declares is visible. -/
def introduce (place : Place) (stmt : Stmt) : Eval Place :=
  match stmt.introduces with
  | some name => declare place name.text
  | none => return place

mutual

def evaluate (clock : Nat → Float) : (fuel : Nat) → Environment → Expr → Eval Value
  | 0, _, _ => halt .outOfFuel
  | _ + 1, _, .literal value => return .ofLiteral value
  | fuel + 1, environment, .grouping inner => evaluate clock fuel environment inner
  | fuel + 1, environment, .unary op line operand => do
    orFault line (op.apply (← evaluate clock fuel environment operand))
  | fuel + 1, environment, .binary op line left right => do
    let left ← evaluate clock fuel environment left
    let right ← evaluate clock fuel environment right
    orFault line (op.apply left right)
  | fuel + 1, environment, .logical op _ left right => do
    let left ← evaluate clock fuel environment left
    if op.isDecidedBy left then return left else evaluate clock fuel environment right
  | _ + 1, environment, .read _ name => readName environment name
  | fuel + 1, environment, .assign _ name value => do
    let value ← evaluate clock fuel environment value
    writeName environment name value
    return value
  | fuel + 1, environment, .call callee line arguments => do
    match ← evaluate clock fuel environment callee with
    | .callable callee =>
      let arguments ← evaluateAll clock fuel environment arguments
      let arity ← inspect (·.arity callee)
      if arguments.length = arity then
        deeper line (call clock fuel callee arguments)
      else
        fault (.wrongArity arity arguments.length) line
    | _ => fault .notCallable line
  | fuel + 1, environment, .get object name => do
    match ← evaluate clock fuel environment object with
    | .object receiver => readProperty receiver name
    | _ => fault .propertyOfNonInstance name.line
  | fuel + 1, environment, .set object name value => do
    match ← evaluate clock fuel environment object with
    | .object receiver =>
      let value ← evaluate clock fuel environment value
      setField receiver name.text value
      return value
    | _ => fault .fieldOfNonInstance name.line
  | _ + 1, environment, .this _ line => readName environment ⟨"this", line⟩
  | _ + 1, environment, .super _ line method => readSuper environment line method

def evaluateAll (clock : Nat → Float) :
    (fuel : Nat) → Environment → List Expr → Eval (List Value)
  | 0, _, _ => halt .outOfFuel
  | _ + 1, _, [] => return []
  | fuel + 1, environment, first :: rest => do
    let value ← evaluate clock fuel environment first
    return value :: (← evaluateAll clock fuel environment rest)

def call (clock : Nat → Float) : (fuel : Nat) → Callable → List Value → Eval Value
  | 0, _, _ => halt .outOfFuel
  | _ + 1, .clock, _ => readClock clock
  | fuel + 1, .ofFunction ref, arguments => do
    invoke clock fuel (← inspect (·.closureAt ref)) arguments
  | fuel + 1, .ofClass ref, arguments => do
    let created ← newInstance ref
    match ← inspect (·.method? ref initializerName) with
    | some method =>
      discard <| invoke clock fuel (← bindMethod method created) arguments
      return .object created
    | none => return .object created

/-- Runs the body of a routine. The parameters are declared in the environment of its definition. -/
def invoke (clock : Nat → Float) : (fuel : Nat) → Closure → List Value → Eval Value
  | 0, _, _ => halt .outOfFuel
  | fuel + 1, closure, arguments => do
    let environment ← extend closure.environment (closure.parameters.zip arguments)
    callResult closure (← executeAll clock fuel (.within environment) closure.body)

/-- Executes a statement in a place where the name that it declares is visible already. -/
def execute (clock : Nat → Float) : (fuel : Nat) → Place → Stmt → Eval Flow
  | 0, _, _ => halt .outOfFuel
  | fuel + 1, place, .expression value => do
    discard <| evaluate clock fuel place.environment value
    return .normal
  | fuel + 1, place, .print value => do
    let value ← evaluate clock fuel place.environment value
    printLine (← inspect (·.display value))
    return .normal
  | _ + 1, place, .declareVar name none => do
    settle place name.text .nil
    return .normal
  | fuel + 1, place, .declareVar name (some initializer) => do
    settle place name.text (← evaluate clock fuel place.environment initializer)
    return .normal
  | fuel + 1, place, .block body => executeAll clock fuel (.within place.environment) body
  | fuel + 1, place, .ifThen condition consequent => do
    if (← evaluate clock fuel place.environment condition).isTruthy then
      execute clock fuel place consequent
    else return .normal
  | fuel + 1, place, .ifElse condition consequent alternative => do
    if (← evaluate clock fuel place.environment condition).isTruthy then
      execute clock fuel place consequent
    else execute clock fuel place alternative
  | fuel + 1, place, .while condition body => do
    if (← evaluate clock fuel place.environment condition).isTruthy then
      match ← execute clock fuel place body with
      | .normal => execute clock fuel place (.while condition body)
      | .returned value => return .returned value
    else
      return .normal
  | _ + 1, place, .declareFunction routine => do
    settle place routine.name.text (← newFunction (.ofRoutine routine place.environment false))
    return .normal
  | _ + 1, _, .return _ none => return .returned .nil
  | fuel + 1, place, .return _ (some value) => do
    return .returned (← evaluate clock fuel place.environment value)
  | _ + 1, place, .declareClass name superclass methods => do
    declareClass place name superclass methods
    return .normal

/-- Executes statements in order, each in the environment that those before it leave. -/
def executeAll (clock : Nat → Float) : (fuel : Nat) → Place → List Stmt → Eval Flow
  | 0, _, _ => halt .outOfFuel
  | _ + 1, _, [] => return .normal
  | fuel + 1, place, first :: rest => do
    let place ← introduce place first
    match ← execute clock fuel place first with
    | .normal => executeAll clock fuel place rest
    | .returned value => return .returned value

end

/-- Executes statements at the top level. -/
def interpret (clock : Nat → Float) (fuel : Nat) : List Stmt → Eval Unit
  | [] => return ()
  | first :: rest => do
    discard <| execute clock fuel .globals first
    interpret clock fuel rest

end Eval

/-- What a program prints and how it ends by lexical scoping. -/
def run (clock : Nat → Float) (fuel : Nat) (capacity : Option Nat) (body : List Stmt) : Outcome :=
  match Eval.interpret clock fuel body (.start capacity) with
  | .ok () after => ⟨after.sink.written, .done⟩
  | .error reason after => ⟨after.sink.written, .ofHalt reason⟩

end Lox.Lexical
