import Lox.Machine.Basic
import Lox.Machine.Operators

/-!
Evaluation of expressions, statements and calls. A name with a distance is read in the scope that
many links outward, and any other name among the globals. Every recursive step uses up fuel, so a
program that runs for ever is one that no amount of fuel suffices for.
-/

namespace Lox.Eval

/-- The value of a name under its distance, or else as a global. -/
def readName (setting : Setting) (id : NodeId) (name : Name) : Eval Value := do
  let scope ← currentScope
  let found ← inspect fun heap =>
    match setting.distances[id]? with
    | some distance => heap.scopes.lookupAt? scope distance name.text
    | none => heap.scopes.lookup? Heap.globals name.text
  orElseFault name.line (.undefinedVariable name.text) found

/-- The scope in which a name is written: that under its distance, or else the one that binds it
as a global. -/
def targetScope (setting : Setting) (id : NodeId) (name : Name) : Eval ScopeRef := do
  let scope ← currentScope
  let found ← inspect fun heap =>
    match setting.distances[id]? with
    | some distance => heap.scopes.ancestor? scope distance
    | none => heap.scopes.nearest? Heap.globals name.text
  orElseFault name.line (.undefinedVariable name.text) found

/-- The method's closure with `this` bound to an instance. -/
def bindMethod (method : Closure) (receiver : InstanceRef) : Eval Closure := do
  let scope ← newScope (Bindings.empty.insert "this" (.object receiver)) method.scope
  return { method with scope }

/-- A property of an instance: its own field, or else a method bound to it. -/
def readProperty (receiver : InstanceRef) (name : Name) : Eval Value := do
  match ← inspect (·.field? receiver name.text) with
  | some value => return value
  | none =>
    match ← inspect fun heap => heap.method? (heap.instanceAt receiver).owner name.text with
    | some method => newFunction (← bindMethod method receiver)
    | none => fault (.undefinedProperty name.text) name.line

/-- A method of the superclass, bound to the present instance. The scope of `this` is one link
nearer than that of `super`. -/
def readSuper (setting : Setting) (id : NodeId) (line : Nat) (method : Name) : Eval Value := do
  let distance ← orElseFault line .unresolvedSuper setting.distances[id]?
  let scope ← currentScope
  match ← inspect (·.scopes.lookupAt? scope distance "super") with
  | some (.callable (.ofClass superclass)) =>
    match ← inspect (·.scopes.lookupAt? scope (distance - 1) "this") with
    | some (.object receiver) =>
      match ← inspect (·.method? superclass method.text) with
      | some found => newFunction (← bindMethod found receiver)
      | none => fault (.undefinedProperty method.text) method.line
    | _ => fault .unresolvedThis line
  | _ => fault .unresolvedSuper line

/-- The class that a declaration extends. -/
def readSuperclass (setting : Setting) (superclass : Superclass) : Eval ClassRef := do
  match ← readName setting superclass.id superclass.name with
  | .callable (.ofClass ref) => return ref
  | _ => fault .superclassNotClass superclass.name.line

/-- The methods of a class that is declared in a scope. The last of one name counts. -/
def methodTable (scope : ScopeRef) (methods : List Routine) : Bindings Closure :=
  .ofList (methods.map fun method =>
    (method.name.text, ⟨method, scope, method.name.text = initializerName⟩))

/-- Declares a class. Its methods see `super` only if there is a superclass. -/
def declareClass (setting : Setting) (name : Name) (superclass : Option Superclass)
    (methods : List Routine) : Eval Unit := do
  match superclass with
  | none =>
    let scope ← currentScope
    define name.text (← newClass ⟨name.text, none, methodTable scope methods⟩)
  | some superclass =>
    let parent ← readSuperclass setting superclass
    let scope ← newScope (Bindings.empty.insert "super" (.callable (.ofClass parent))) (← currentScope)
    define name.text (← newClass ⟨name.text, some parent, methodTable scope methods⟩)

/-- The scope of a call: each parameter that has an argument is bound to it. -/
def activation (closure : Closure) (arguments : List Value) : Eval ScopeRef :=
  newScope (.ofList ((closure.routine.parameters.map (·.text)).zip arguments)) closure.scope

/-- What a call gives once its body has ended. An initializer gives the instance it is bound to. -/
def callResult (closure : Closure) (flow : Flow) : Eval Value := do
  if closure.isInitializer then
    return (← inspect (·.scopes.valueIn? closure.scope "this")).getD .nil
  else
    match flow with
    | .returned value => return value
    | .normal => return .nil

mutual

def evaluate (setting : Setting) : (fuel : Nat) → Expr → Eval Value
  | 0, _ => halt .outOfFuel
  | _ + 1, .literal value => return .ofLiteral value
  | fuel + 1, .grouping inner => evaluate setting fuel inner
  | fuel + 1, .unary op line operand => do
    orFault line (op.apply (← evaluate setting fuel operand))
  | fuel + 1, .binary op line left right => do
    let left ← evaluate setting fuel left
    let right ← evaluate setting fuel right
    orFault line (op.apply left right)
  | fuel + 1, .logical op _ left right => do
    let left ← evaluate setting fuel left
    if op.isDecidedBy left then return left else evaluate setting fuel right
  | _ + 1, .read id name => readName setting id name
  | fuel + 1, .assign id name value => do
    let value ← evaluate setting fuel value
    defineIn (← targetScope setting id name) name.text value
    return value
  | fuel + 1, .call callee line arguments => do
    match ← evaluate setting fuel callee with
    | .callable callee =>
      let arguments ← evaluateAll setting fuel arguments
      let arity ← inspect (·.arity callee)
      if arguments.length = arity then
        deeper line (call setting fuel callee arguments)
      else
        fault (.wrongArity arity arguments.length) line
    | _ => fault .notCallable line
  | fuel + 1, .get object name => do
    match ← evaluate setting fuel object with
    | .object receiver => readProperty receiver name
    | _ => fault .propertyOfNonInstance name.line
  | fuel + 1, .set object name value => do
    match ← evaluate setting fuel object with
    | .object receiver =>
      let value ← evaluate setting fuel value
      setField receiver name.text value
      return value
    | _ => fault .fieldOfNonInstance name.line
  | _ + 1, .this id line => readName setting id ⟨"this", line⟩
  | _ + 1, .super id line method => readSuper setting id line method

/-- The values of expressions, from left to right. -/
def evaluateAll (setting : Setting) : (fuel : Nat) → List Expr → Eval (List Value)
  | 0, _ => halt .outOfFuel
  | _ + 1, [] => return []
  | fuel + 1, first :: rest => do
    let value ← evaluate setting fuel first
    return value :: (← evaluateAll setting fuel rest)

/-- Calls with arguments of any number. A class gives a new instance, after its initializer has
run on it. -/
def call (setting : Setting) : (fuel : Nat) → Callable → List Value → Eval Value
  | 0, _, _ => halt .outOfFuel
  | _ + 1, .clock, _ => readClock setting
  | fuel + 1, .ofFunction ref, arguments => do
    invoke setting fuel (← inspect (·.closureAt ref)) arguments
  | fuel + 1, .ofClass ref, arguments => do
    let created ← newInstance ref
    match ← inspect (·.method? ref initializerName) with
    | some method =>
      discard <| invoke setting fuel (← bindMethod method created) arguments
      return .object created
    | none => return .object created

/-- Runs the body of a routine in a new scope inside that of its declaration. -/
def invoke (setting : Setting) : (fuel : Nat) → Closure → List Value → Eval Value
  | 0, _, _ => halt .outOfFuel
  | fuel + 1, closure, arguments => do
    let scope ← activation closure arguments
    callResult closure (← within scope (executeAll setting fuel closure.routine.body))

def execute (setting : Setting) : (fuel : Nat) → Stmt → Eval Flow
  | 0, _ => halt .outOfFuel
  | fuel + 1, .expression value => do
    discard <| evaluate setting fuel value
    return .normal
  | fuel + 1, .print value => do
    let value ← evaluate setting fuel value
    printLine (← inspect (·.display value))
    return .normal
  | _ + 1, .declareVar name none => do
    define name.text .nil
    return .normal
  | fuel + 1, .declareVar name (some initializer) => do
    define name.text (← evaluate setting fuel initializer)
    return .normal
  | fuel + 1, .block body => do
    within (← newScope .empty (← currentScope)) (executeAll setting fuel body)
  | fuel + 1, .ifThen condition consequent => do
    if (← evaluate setting fuel condition).isTruthy then execute setting fuel consequent
    else return .normal
  | fuel + 1, .ifElse condition consequent alternative => do
    if (← evaluate setting fuel condition).isTruthy then execute setting fuel consequent
    else execute setting fuel alternative
  | fuel + 1, .while condition body => do
    if (← evaluate setting fuel condition).isTruthy then
      match ← execute setting fuel body with
      | .normal => execute setting fuel (.while condition body)
      | .returned value => return .returned value
    else
      return .normal
  | _ + 1, .declareFunction routine => do
    define routine.name.text (← newFunction ⟨routine, ← currentScope, false⟩)
    return .normal
  | _ + 1, .return _ none => return .returned .nil
  | fuel + 1, .return _ (some value) => do
    return .returned (← evaluate setting fuel value)
  | _ + 1, .declareClass name superclass methods => do
    declareClass setting name superclass methods
    return .normal

/-- Executes statements in order, up to the first that returns. -/
def executeAll (setting : Setting) : (fuel : Nat) → List Stmt → Eval Flow
  | 0, _ => halt .outOfFuel
  | _ + 1, [] => return .normal
  | fuel + 1, first :: rest => do
    match ← execute setting fuel first with
    | .normal => executeAll setting fuel rest
    | .returned value => return .returned value

end

end Lox.Eval
