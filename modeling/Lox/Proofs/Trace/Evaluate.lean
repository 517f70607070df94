import Lox.Program
import Lox.Proofs.Trace.Basic

/-! Evaluation with a record of all uses of the table, and that the record is all it adds. -/

namespace Lox.Trace

open Eval (orFault inspect fault halt readName targetScope defineIn)

mutual

def evaluate (setting : Setting) : (fuel : Nat) → Expr → Traced Value
  | 0, _ => lift (halt .outOfFuel)
  | _ + 1, .literal value => return .ofLiteral value
  | fuel + 1, .grouping inner => evaluate setting fuel inner
  | fuel + 1, .unary op line operand => do
    lift (orFault line (op.apply (← evaluate setting fuel operand)))
  | fuel + 1, .binary op line left right => do
    let left ← evaluate setting fuel left
    let right ← evaluate setting fuel right
    lift (orFault line (op.apply left right))
  | fuel + 1, .logical op _ left right => do
    let left ← evaluate setting fuel left
    if op.isDecidedBy left then return left else evaluate setting fuel right
  | _ + 1, .read id name => do
    record (.read id name)
    lift (readName setting id name)
  | fuel + 1, .assign id name value => do
    let value ← evaluate setting fuel value
    record (.assign id name)
    lift (do defineIn (← targetScope setting id name) name.text value)
    return value
  | fuel + 1, .call callee line arguments => do
    match ← evaluate setting fuel callee with
    | .callable callee =>
      let arguments ← evaluateAll setting fuel arguments
      let arity ← lift (inspect (·.arity callee))
      if arguments.length = arity then
        deeper line (call setting fuel callee arguments)
      else
        lift (fault (.wrongArity arity arguments.length) line)
    | _ => lift (fault .notCallable line)
  | fuel + 1, .get object name => do
    match ← evaluate setting fuel object with
    | .object receiver => lift (Eval.readProperty receiver name)
    | _ => lift (fault .propertyOfNonInstance name.line)
  | fuel + 1, .set object name value => do
    match ← evaluate setting fuel object with
    | .object receiver =>
      let value ← evaluate setting fuel value
      lift (Eval.setField receiver name.text value)
      return value
    | _ => lift (fault .fieldOfNonInstance name.line)
  | _ + 1, .this id line => do
    record (.this id line)
    lift (readName setting id ⟨"this", line⟩)
  | _ + 1, .super id line method => do
    record (.super id line method)
    lift (Eval.readSuper setting id line method)

def evaluateAll (setting : Setting) : (fuel : Nat) → List Expr → Traced (List Value)
  | 0, _ => lift (halt .outOfFuel)
  | _ + 1, [] => return []
  | fuel + 1, first :: rest => do
    let value ← evaluate setting fuel first
    return value :: (← evaluateAll setting fuel rest)

def call (setting : Setting) : (fuel : Nat) → Callable → List Value → Traced Value
  | 0, _, _ => lift (halt .outOfFuel)
  | _ + 1, .clock, _ => lift (Eval.readClock setting)
  | fuel + 1, .ofFunction ref, arguments => do
    invoke setting fuel (← lift (inspect (·.closureAt ref))) arguments
  | fuel + 1, .ofClass ref, arguments => do
    let created ← lift (Eval.newInstance ref)
    match ← lift (inspect (·.method? ref initializerName)) with
    | some method =>
      discard <| invoke setting fuel (← lift (Eval.bindMethod method created)) arguments
      return .object created
    | none => return .object created

def invoke (setting : Setting) : (fuel : Nat) → Closure → List Value → Traced Value
  | 0, _, _ => lift (halt .outOfFuel)
  | fuel + 1, closure, arguments => do
    let scope ← lift (Eval.activation closure arguments)
    let flow ← within scope (executeAll setting fuel closure.routine.body)
    record (.result closure)
    lift (Eval.callResult closure flow)

def execute (setting : Setting) : (fuel : Nat) → Stmt → Traced Flow
  | 0, _ => lift (halt .outOfFuel)
  | fuel + 1, .expression value => do
    discard <| evaluate setting fuel value
    return .normal
  | fuel + 1, .print value => do
    let value ← evaluate setting fuel value
    lift (do Eval.printLine (← inspect (·.display value)))
    return .normal
  | _ + 1, .declareVar name none => do
    lift (Eval.define name.text .nil)
    return .normal
  | fuel + 1, .declareVar name (some initializer) => do
    let value ← evaluate setting fuel initializer
    lift (Eval.define name.text value)
    return .normal
  | fuel + 1, .block body => do
    let scope ← lift (do Eval.newScope .empty (← Eval.currentScope))
    within scope (executeAll setting fuel body)
  | fuel + 1, .ifThen condition consequent => do
    if (← evaluate setting fuel condition).isTruthy then execute setting fuel consequent
    else return .normal
  | fuel + 1, .ifElse condition consequent alternative => do
    if (← evaluate setting fuel condition).isTruthy then execute setting fuel consequent
    else execute setting fuel alternative
  | fuel + 1, .while condition body => do
    if (← evaluate setting fuel condition).isTruthy then
      match ← execute setting fuel body with
      | .normal => execute setting fuel (.while condition body)
      | .returned value => return .returned value
    else
      return .normal
  | _ + 1, .declareFunction routine => do
    lift do
      let created ← Eval.newFunction ⟨routine, ← Eval.currentScope, false⟩
      Eval.define routine.name.text created
    return .normal
  | _ + 1, .return _ none => return .returned .nil
  | fuel + 1, .return _ (some value) => do
    return .returned (← evaluate setting fuel value)
  | _ + 1, .declareClass name none methods => do
    lift (Eval.declareClass setting name none methods)
    return .normal
  | _ + 1, .declareClass name (some superclass) methods => do
    record (.read superclass.id superclass.name)
    lift (Eval.declareClass setting name (some superclass) methods)
    return .normal

def executeAll (setting : Setting) : (fuel : Nat) → List Stmt → Traced Flow
  | 0, _ => lift (halt .outOfFuel)
  | _ + 1, [] => return .normal
  | fuel + 1, first :: rest => do
    match ← execute setting fuel first with
    | .normal => executeAll setting fuel rest
    | .returned value => return .returned value

end

/-- Executes statements at the top level. -/
def interpret (setting : Setting) (fuel : Nat) : List Stmt → Traced Unit
  | [] => return ()
  | first :: rest => do
    discard <| execute setting fuel first
    interpret setting fuel rest

/-- Evaluation with some fuel records faithfully. -/
structure Records (setting : Setting) (fuel : Nat) : Prop where
  evaluate : ∀ expr,
    Faithful setting (evaluate setting fuel expr) (Eval.evaluate setting fuel expr)
  evaluateAll : ∀ exprs,
    Faithful setting (evaluateAll setting fuel exprs) (Eval.evaluateAll setting fuel exprs)
  call : ∀ callee arguments,
    Faithful setting (call setting fuel callee arguments) (Eval.call setting fuel callee arguments)
  invoke : ∀ closure arguments, Faithful setting (invoke setting fuel closure arguments)
    (Eval.invoke setting fuel closure arguments)
  execute : ∀ stmt, Faithful setting (execute setting fuel stmt) (Eval.execute setting fuel stmt)
  executeAll : ∀ body,
    Faithful setting (executeAll setting fuel body) (Eval.executeAll setting fuel body)

namespace Records

variable {setting : Setting} {fuel : Nat}

theorem zero (setting : Setting) : Records setting 0 where
  evaluate _ := .lift (.halt id)
  evaluateAll _ := .lift (.halt id)
  call _ _ := .lift (Quiet.halt id : Quiet (halt .outOfFuel))
  invoke _ _ := .lift (Quiet.halt id : Quiet (halt .outOfFuel))
  execute _ := .lift (.halt id)
  executeAll _ := .lift (.halt id)

variable (within : Records setting fuel)

include within

theorem evaluate_succ (expr : Expr) : Faithful setting (Trace.evaluate setting (fuel + 1) expr)
    (Eval.evaluate setting (fuel + 1) expr) := by
  cases expr with
  | literal value => exact .pure _
  | grouping inner => exact within.evaluate inner
  | unary op line operand =>
    exact (within.evaluate operand).bind fun _ => .lift (.unary op line _)
  | binary op line left right =>
    exact (within.evaluate left).bind fun _ => (within.evaluate right).bind fun _ =>
      .lift (.binary op line _ _)
  | logical op line left right =>
    refine (within.evaluate left).bind fun value => ?_
    split
    · exact .pure _
    · exact within.evaluate right
  | read id name => exact .use fun failed _ => ⟨_, failed⟩
  | assign id name value =>
    have written (result : Value) : Faithful setting (record (.assign id name) >>= fun _ =>
        Trace.lift (targetScope setting id name >>= fun scope => defineIn scope name.text result))
        (targetScope setting id name >>= fun scope => defineIn scope name.text result) :=
      .use fun failed ofUse => Quiet.of_bind (fun _ => .ok fun _ => rfl) failed ofUse
    refine (within.evaluate value).bind fun result => ?_
    rw [← bind_assoc, ← bind_assoc]
    exact (written result).bind fun _ => .pure _
  | call callee line arguments =>
    refine (within.evaluate callee).bind fun value => ?_
    cases value with
    | callable callee =>
      refine (within.evaluateAll arguments).bind fun values =>
        (Faithful.lift (.inspect _)).bind fun arity => ?_
      split
      · exact (within.call callee values).deeper line
      · exact .lift (.halt id)
    | _ => exact .lift (.halt id)
  | get object name =>
    refine (within.evaluate object).bind fun value => ?_
    cases value with
    | object receiver => exact .lift .readProperty
    | _ => exact .lift (.halt id)
  | set object name value =>
    refine (within.evaluate object).bind fun held => ?_
    cases held with
    | object receiver =>
      exact (within.evaluate value).bind fun _ => (Faithful.lift (.ok fun _ => rfl)).bind fun _ => .pure _
    | _ => exact .lift (.halt id)
  | this id line => exact .use fun failed _ => ⟨_, failed⟩
  | super id line method => exact .use fun failed _ => ⟨_, failed⟩

theorem evaluateAll_succ (exprs : List Expr) :
    Faithful setting (Trace.evaluateAll setting (fuel + 1) exprs)
      (Eval.evaluateAll setting (fuel + 1) exprs) := by
  cases exprs with
  | nil => exact .pure _
  | cons first rest =>
    exact (within.evaluate first).bind fun _ => (within.evaluateAll rest).bind fun _ => .pure _

theorem call_succ (callee : Callable) (arguments : List Value) :
    Faithful setting (Trace.call setting (fuel + 1) callee arguments)
      (Eval.call setting (fuel + 1) callee arguments) := by
  cases callee with
  | clock => exact .lift (Quiet.ok fun _ => rfl : Quiet (Eval.readClock setting))
  | ofFunction ref =>
    exact (Faithful.lift (.inspect _)).bind fun closure => within.invoke closure arguments
  | ofClass ref =>
    refine (Faithful.lift (.ok fun _ => rfl)).bind fun created =>
      (Faithful.lift (.inspect _)).bind fun found => ?_
    cases found with
    | none => exact .pure _
    | some method =>
      exact (Faithful.lift .bindMethod).bind fun closure =>
        (within.invoke closure arguments).discard.bind fun _ => .pure _

theorem invoke_succ (closure : Closure) (arguments : List Value) :
    Faithful setting (Trace.invoke setting (fuel + 1) closure arguments)
      (Eval.invoke setting (fuel + 1) closure arguments) :=
  (Faithful.lift (.ok fun _ => rfl)).bind fun scope =>
    ((within.executeAll closure.routine.body).within scope).bind fun flow =>
      .use fun failed ofUse => absurd ofUse (Quiet.callResult closure flow _ _ _ failed)

theorem execute_succ (stmt : Stmt) : Faithful setting (Trace.execute setting (fuel + 1) stmt)
    (Eval.execute setting (fuel + 1) stmt) := by
  cases stmt with
  | expression value => exact (within.evaluate value).discard.bind fun _ => .pure _
  | print value =>
    refine (within.evaluate value).bind fun held => ?_
    have printed : Quiet (inspect (·.display held) >>= Eval.printLine) :=
      (Quiet.inspect _).bind fun _ => .printLine
    exact (Faithful.lift printed).bind fun _ => .pure _
  | declareVar name initializer =>
    cases initializer with
    | none => exact (Faithful.lift .define).bind fun _ => .pure _
    | some initializer =>
      exact (within.evaluate initializer).bind fun _ =>
        (Faithful.lift .define).bind fun _ => .pure _
  | block body =>
    have opened : Quiet (Eval.currentScope >>= Eval.newScope .empty) :=
      Quiet.currentScope.bind fun _ => .newScope
    exact (Faithful.lift opened).bind fun scope => (within.executeAll body).within scope
  | ifThen condition consequent =>
    refine (within.evaluate condition).bind fun value => ?_
    split
    · exact within.execute consequent
    · exact .pure _
  | ifElse condition consequent alternative =>
    refine (within.evaluate condition).bind fun value => ?_
    split
    · exact within.execute consequent
    · exact within.execute alternative
  | «while» condition body =>
    refine (within.evaluate condition).bind fun value => ?_
    split
    · refine (within.execute body).bind fun flow => ?_
      cases flow with
      | normal => exact within.execute (.while condition body)
      | returned value => exact .pure _
    · exact .pure _
  | declareFunction routine =>
    have declared : Quiet (Eval.currentScope >>= fun scope =>
        Eval.newFunction ⟨routine, scope, false⟩ >>= Eval.define routine.name.text) :=
      Quiet.currentScope.bind fun _ => Quiet.newFunction.bind fun _ => .define
    exact (Faithful.lift declared).bind fun _ => .pure _
  | «return» line value =>
    cases value with
    | none => exact .pure _
    | some value => exact (within.evaluate value).bind fun _ => .pure _
  | declareClass name superclass methods =>
    cases superclass with
    | none =>
      have declared : Quiet (Eval.declareClass setting name none methods) :=
        Quiet.currentScope.bind fun _ => .settleClass _ _
      exact (Faithful.lift declared).bind fun _ => .pure _
    | some superclass =>
      have declared : Faithful setting (record (.read superclass.id superclass.name) >>= fun _ =>
          Trace.lift (Eval.declareClass setting name (some superclass) methods))
          (Eval.declareClass setting name (some superclass) methods) := by
        refine .use fun failed ofUse => ?_
        obtain ⟨_, failed⟩ := Quiet.of_bind (fun _ => Quiet.currentScope.bind fun _ =>
          Quiet.newScope.bind fun _ => .settleClass _ _) failed ofUse
        refine Quiet.of_bind (fun value => ?_) failed ofUse
        split
        · exact .pure _
        · exact .halt id
      simp only [Trace.execute, Eval.execute]
      rw [← bind_assoc]
      exact declared.bind fun _ => .pure _

theorem executeAll_succ (body : List Stmt) :
    Faithful setting (Trace.executeAll setting (fuel + 1) body)
      (Eval.executeAll setting (fuel + 1) body) := by
  cases body with
  | nil => exact .pure _
  | cons first rest =>
    refine (within.execute first).bind fun flow => ?_
    cases flow with
    | normal => exact within.executeAll rest
    | returned value => exact .pure _

end Records

theorem records (setting : Setting) (fuel : Nat) : Records setting fuel := by
  induction fuel with
  | zero => exact .zero setting
  | succ fuel within =>
    exact {
      evaluate := within.evaluate_succ
      evaluateAll := within.evaluateAll_succ
      call := within.call_succ
      invoke := within.invoke_succ
      execute := within.execute_succ
      executeAll := within.executeAll_succ }

/-- Recording changes nothing about a run, and a run that halts where a name is looked up halts at a
recorded use. -/
theorem faithful_interpret (setting : Setting) (fuel : Nat) (body : List Stmt) :
    Faithful setting (interpret setting fuel body) (Eval.interpret setting fuel body) := by
  induction body with
  | nil => exact .pure ()
  | cons first rest ih => exact ((records setting fuel).execute first).discard.bind fun _ => ih

/-- The uses in a run of statements from the start. -/
def visits (setting : Setting) (fuel : Nat) (capacity : Option Nat) (body : List Stmt) :
    List Visit :=
  recorded (interpret setting fuel body ⟨.start capacity, []⟩)

end Lox.Trace
