import Lox.Program
import Lox.Proofs.Machine.Composed

/-! Evaluation by parts. What a tree does is put together from what its parts do, in whatever way the
parts are evaluated: on a machine alone, or with a record of what happens. So what two ways of doing
have in common for the parts they have in common for the whole. -/

namespace Lox

/-- Steps among which are those on a machine, and which can be taken inside a scope or as a call. -/
class Host (m : Type → Type) extends Monad m where
  step : Eval α → m α
  within : ScopeRef → m α → m α
  deeper : (line : Nat) → m α → m α

/-- A way to evaluate the parts of a tree. -/
structure Parts (m : Type → Type) where
  evaluate : Expr → m Value
  evaluateAll : List Expr → m (List Value)
  call : Callable → List Value → m Value
  invoke : Closure → List Value → m Value
  execute : Stmt → m Flow
  executeAll : List Stmt → m Flow

instance : Host Eval where
  step := id
  within := Eval.within
  deeper := Eval.deeper

namespace Parts

open Eval (orFault inspect fault readName targetScope defineIn currentScope newScope printLine define
  newFunction newInstance)
open Host (step within deeper)

variable {m : Type → Type} [Host m] (setting : Setting) (parts : Parts m)

def evaluateWhole : Expr → m Value
  | .literal value => return .ofLiteral value
  | .grouping inner => parts.evaluate inner
  | .unary op line operand => do
    step (orFault line (op.apply (← parts.evaluate operand)))
  | .binary op line left right => do
    let left ← parts.evaluate left
    let right ← parts.evaluate right
    step (orFault line (op.apply left right))
  | .logical op _ left right => do
    let left ← parts.evaluate left
    if op.isDecidedBy left then return left else parts.evaluate right
  | .read id name => step (readName setting id name)
  | .assign id name value => do
    let value ← parts.evaluate value
    step do
      defineIn (← targetScope setting id name) name.text value
      return value
  | .call callee line arguments => do
    match ← parts.evaluate callee with
    | .callable callee =>
      let arguments ← parts.evaluateAll arguments
      let arity ← step (inspect (·.arity callee))
      if arguments.length = arity then
        deeper line (parts.call callee arguments)
      else
        step (fault (.wrongArity arity arguments.length) line)
    | _ => step (fault .notCallable line)
  | .get object name => do
    match ← parts.evaluate object with
    | .object receiver => step (Eval.readProperty receiver name)
    | _ => step (fault .propertyOfNonInstance name.line)
  | .set object name value => do
    match ← parts.evaluate object with
    | .object receiver =>
      let value ← parts.evaluate value
      step do
        Eval.setField receiver name.text value
        return value
    | _ => step (fault .fieldOfNonInstance name.line)
  | .this id line => step (readName setting id ⟨"this", line⟩)
  | .super id line method => step (Eval.readSuper setting id line method)

def evaluateAllWhole : List Expr → m (List Value)
  | [] => return []
  | first :: rest => do
    let value ← parts.evaluate first
    return value :: (← parts.evaluateAll rest)

def callWhole : Callable → List Value → m Value
  | .clock, _ => step (Eval.readClock setting)
  | .ofFunction ref, arguments => do
    parts.invoke (← step (inspect (·.closureAt ref))) arguments
  | .ofClass ref, arguments => do
    let created ← step (newInstance ref)
    match ← step (inspect (·.method? ref initializerName)) with
    | some method =>
      let _ ← parts.invoke (← step (Eval.bindMethod method created)) arguments
      return .object created
    | none => return .object created

def invokeWhole (closure : Closure) (arguments : List Value) : m Value := do
  let scope ← step (Eval.activation closure arguments)
  step (Eval.callResult closure (← within scope (parts.executeAll closure.routine.body)))

def executeWhole : Stmt → m Flow
  | .expression value => do
    let _ ← parts.evaluate value
    return .normal
  | .print value => do
    let value ← parts.evaluate value
    step do
      printLine (← inspect (·.display value))
      return .normal
  | .declareVar name none => step do
    define name.text .nil
    return .normal
  | .declareVar name (some initializer) => do
    let value ← parts.evaluate initializer
    step do
      define name.text value
      return .normal
  | .block body => do
    within (← step (newScope .empty (← step currentScope))) (parts.executeAll body)
  | .ifThen condition consequent => do
    if (← parts.evaluate condition).isTruthy then parts.execute consequent else return .normal
  | .ifElse condition consequent alternative => do
    if (← parts.evaluate condition).isTruthy then parts.execute consequent
    else parts.execute alternative
  | .while condition body => do
    if (← parts.evaluate condition).isTruthy then
      match ← parts.execute body with
      | .normal => parts.execute (.while condition body)
      | .returned value => return .returned value
    else
      return .normal
  | .declareFunction routine => step do
    define routine.name.text (← newFunction ⟨routine, ← currentScope, false⟩)
    return .normal
  | .return _ none => return .returned .nil
  | .return _ (some value) => do
    return .returned (← parts.evaluate value)
  | .declareClass name superclass methods => step do
    Eval.declareClass setting name superclass methods
    return .normal

def executeAllWhole : List Stmt → m Flow
  | [] => return .normal
  | first :: rest => do
    match ← parts.execute first with
    | .normal => parts.executeAll rest
    | .returned value => return .returned value

/-- The evaluation of wholes. -/
def whole : Parts m where
  evaluate := parts.evaluateWhole setting
  evaluateAll := parts.evaluateAllWhole
  call := parts.callWhole setting
  invoke := parts.invokeWhole
  execute := parts.executeWhole setting
  executeAll := parts.executeAllWhole

/-- The evaluation for which no steps are left. -/
def exhausted : Parts m where
  evaluate _ := step (Eval.halt .outOfFuel)
  evaluateAll _ := step (Eval.halt .outOfFuel)
  call _ _ := step (Eval.halt .outOfFuel)
  invoke _ _ := step (Eval.halt .outOfFuel)
  execute _ := step (Eval.halt .outOfFuel)
  executeAll _ := step (Eval.halt .outOfFuel)

/-- Executes statements at the top level. -/
def interpret : List Stmt → m Unit
  | [] => return ()
  | first :: rest => do
    let _ ← parts.execute first
    interpret rest

end Parts

namespace Eval

/-- The evaluator with some fuel. -/
def parts (setting : Setting) (fuel : Nat) : Parts Eval where
  evaluate := evaluate setting fuel
  evaluateAll := evaluateAll setting fuel
  call := call setting fuel
  invoke := invoke setting fuel
  execute := execute setting fuel
  executeAll := executeAll setting fuel

theorem parts_zero (setting : Setting) : parts setting 0 = .exhausted :=
  rfl

theorem discard_bind {α β : Type} (step : Eval α) (later : Eval β) :
    (do discard step; later) = (do let _ ← step; later) := by
  funext machine
  change EStateM.bind (EStateM.map _ step) _ machine = EStateM.bind step _ machine
  simp only [EStateM.bind, EStateM.map]
  cases step machine <;> rfl

theorem call_ofClass (setting : Setting) (fuel : Nat) (ref : ClassRef) (arguments : List Value) :
    call setting (fuel + 1) (.ofClass ref) arguments =
      (parts setting fuel).callWhole setting (.ofClass ref) arguments := by
  simp only [call, discard_bind]
  rfl

/-- The evaluator with more fuel evaluates the parts with less. -/
theorem parts_succ (setting : Setting) (fuel : Nat) :
    parts setting (fuel + 1) = (parts setting fuel).whole setting := by
  simp only [parts, Parts.whole, Parts.mk.injEq]
  refine ⟨?_, ?_, ?_, ?_, ?_, ?_⟩
  · funext tree
    cases tree <;> rfl
  · funext trees
    cases trees <;> rfl
  · funext callee arguments
    cases callee with
    | ofClass ref => exact call_ofClass setting fuel ref arguments
    | _ => rfl
  · rfl
  · funext tree
    cases tree with
    | expression value => exact discard_bind _ _
    | declareVar name initializer => cases initializer <;> rfl
    | «return» line value => cases value <;> rfl
    | _ => rfl
  · funext trees
    cases trees <;> rfl

theorem interpret_eq (setting : Setting) (fuel : Nat) (body : List Stmt) :
    interpret setting fuel body = (parts setting fuel).interpret body := by
  induction body with
  | nil => rfl
  | cons first rest ih =>
    rw [interpret, ih, discard_bind]
    rfl

end Eval

/-- A relation of steps that the ways to put steps together keep. -/
structure Relating {m m' : Type → Type} [Host m] [Host m']
    (related : ∀ ⦃α : Type⦄, m α → m' α → Prop) : Prop where
  pure : ∀ {α : Type} (value : α), related (Pure.pure value : m α) (Pure.pure value)
  bind : ∀ {α β : Type} {one : m α} {other : m' α} {later : α → m β} {later' : α → m' β},
    related one other → (∀ value, related (later value) (later' value)) →
    related (one >>= later) (other >>= later')
  step : ∀ {α : Type} {single : Eval α}, single.Composed →
    related (Host.step single) (Host.step single)
  within : ∀ {α : Type} (scope : ScopeRef) {one : m α} {other : m' α}, related one other →
    related (Host.within scope one) (Host.within scope other)
  deeper : ∀ {α : Type} (line : Nat) {one : m α} {other : m' α}, related one other →
    related (Host.deeper line one) (Host.deeper line other)

/-- Two ways to evaluate parts that do related steps on each part. -/
structure Parts.Related {m m' : Type → Type} (related : ∀ ⦃α : Type⦄, m α → m' α → Prop)
    (parts : Parts m) (parts' : Parts m') : Prop where
  evaluate : ∀ tree, related (parts.evaluate tree) (parts'.evaluate tree)
  evaluateAll : ∀ trees, related (parts.evaluateAll trees) (parts'.evaluateAll trees)
  call : ∀ callee arguments,
    related (parts.call callee arguments) (parts'.call callee arguments)
  invoke : ∀ closure arguments,
    related (parts.invoke closure arguments) (parts'.invoke closure arguments)
  execute : ∀ tree, related (parts.execute tree) (parts'.execute tree)
  executeAll : ∀ trees, related (parts.executeAll trees) (parts'.executeAll trees)

namespace Relating

open Eval (Composed)

variable {m m' : Type → Type} [Host m] [Host m'] {related : ∀ ⦃α : Type⦄, m α → m' α → Prop}
  (relating : Relating related) {parts : Parts m} {parts' : Parts m'} (setting : Setting)

include relating

theorem fault (reason : RuntimeFault) (line : Nat) :
    related (Host.step (Eval.fault reason line : Eval α)) (Host.step (Eval.fault reason line)) :=
  relating.step (.fault reason line)

section Expressions

variable (evaluate : ∀ tree, related (parts.evaluate tree) (parts'.evaluate tree))

include evaluate

theorem evaluateAllWhole
    (evaluateAll : ∀ trees, related (parts.evaluateAll trees) (parts'.evaluateAll trees))
    (trees : List Expr) : related (parts.evaluateAllWhole trees) (parts'.evaluateAllWhole trees) := by
  cases trees with
  | nil => exact relating.pure _
  | cons first rest =>
    apply relating.bind (evaluate first)
    intro value
    exact relating.bind (evaluateAll rest) fun _ => relating.pure _

variable (evaluateAll : ∀ trees, related (parts.evaluateAll trees) (parts'.evaluateAll trees))
  (call : ∀ callee arguments,
    related (parts.call callee arguments) (parts'.call callee arguments))

include evaluateAll call

theorem evaluateWhole_call (callee : Expr) (line : Nat) (arguments : List Expr) :
    related (parts.evaluateWhole setting (.call callee line arguments))
      (parts'.evaluateWhole setting (.call callee line arguments)) := by
  apply relating.bind (evaluate callee)
  intro value
  cases value with
  | callable callee =>
    apply relating.bind (evaluateAll arguments)
    intro values
    apply relating.bind (relating.step (.inspect _))
    intro arity
    split
    · exact relating.deeper line (call callee values)
    · exact relating.fault _ _
  | _ => exact relating.fault _ _

theorem evaluateWhole (tree : Expr) :
    related (parts.evaluateWhole setting tree) (parts'.evaluateWhole setting tree) := by
  cases tree with
  | literal value => exact relating.pure _
  | grouping inner => exact evaluate inner
  | unary op line operand =>
    exact relating.bind (evaluate operand) fun _ => relating.step (.orFault _ _)
  | binary op line left right =>
    apply relating.bind (evaluate left)
    intro value
    exact relating.bind (evaluate right) fun _ => relating.step (.orFault _ _)
  | logical op line left right =>
    apply relating.bind (evaluate left)
    intro value
    split
    · exact relating.pure _
    · exact evaluate right
  | read id name => exact relating.step (.readName _ _ _)
  | assign id name value =>
    apply relating.bind (evaluate value)
    intro value
    apply relating.step
    exact .bind (.targetScope _ _ _) fun _ => .bind (.defineIn _ _ _) fun _ => .pure _
  | call callee line arguments =>
    exact relating.evaluateWhole_call setting evaluate evaluateAll call callee line arguments
  | get object name =>
    apply relating.bind (evaluate object)
    intro held
    cases held with
    | object receiver => exact relating.step (.readProperty receiver name)
    | _ => exact relating.fault _ _
  | set object name value =>
    apply relating.bind (evaluate object)
    intro held
    cases held with
    | object receiver =>
      apply relating.bind (evaluate value)
      intro value
      exact relating.step (.bind (.setField _ _ _) fun _ => .pure _)
    | _ => exact relating.fault _ _
  | this id line => exact relating.step (.readName _ _ _)
  | super id line method => exact relating.step (.readSuper _ _ _ _)

end Expressions

section Calls

theorem callWhole
    (invoke : ∀ closure arguments,
      related (parts.invoke closure arguments) (parts'.invoke closure arguments))
    (callee : Callable) (arguments : List Value) :
    related (parts.callWhole setting callee arguments) (parts'.callWhole setting callee arguments) := by
  cases callee with
  | clock => exact relating.step (.readClock setting)
  | ofFunction ref =>
    exact relating.bind (relating.step (.inspect _)) fun closure => invoke closure arguments
  | ofClass ref =>
    apply relating.bind (relating.step (.newInstance ref))
    intro created
    apply relating.bind (relating.step (.inspect _))
    intro method
    cases method with
    | none => exact relating.pure _
    | some method =>
      apply relating.bind (relating.step (.bindMethod _ _))
      intro bound
      exact relating.bind (invoke bound arguments) fun _ => relating.pure _

theorem invokeWhole
    (executeAll : ∀ trees, related (parts.executeAll trees) (parts'.executeAll trees))
    (closure : Closure) (arguments : List Value) :
    related (parts.invokeWhole closure arguments) (parts'.invokeWhole closure arguments) := by
  apply relating.bind (relating.step (.activation closure arguments))
  intro scope
  apply relating.bind (relating.within scope (executeAll closure.routine.body))
  intro flow
  exact relating.step (.callResult closure flow)

end Calls

section Statements

variable (execute : ∀ tree, related (parts.execute tree) (parts'.execute tree))
  (executeAll : ∀ trees, related (parts.executeAll trees) (parts'.executeAll trees))

include execute

theorem executeWhole_while
    (evaluate : ∀ tree, related (parts.evaluate tree) (parts'.evaluate tree))
    (condition : Expr) (body : Stmt) :
    related (parts.executeWhole setting (.while condition body))
      (parts'.executeWhole setting (.while condition body)) := by
  apply relating.bind (evaluate condition)
  intro value
  split
  · apply relating.bind (execute body)
    intro flow
    cases flow with
    | normal => exact execute (.while condition body)
    | returned value => exact relating.pure _
  · exact relating.pure _

include executeAll

theorem executeAllWhole (trees : List Stmt) :
    related (parts.executeAllWhole trees) (parts'.executeAllWhole trees) := by
  cases trees with
  | nil => exact relating.pure _
  | cons first rest =>
    apply relating.bind (execute first)
    intro flow
    cases flow with
    | normal => exact executeAll rest
    | returned value => exact relating.pure _

theorem executeWhole (evaluate : ∀ tree, related (parts.evaluate tree) (parts'.evaluate tree))
    (tree : Stmt) : related (parts.executeWhole setting tree) (parts'.executeWhole setting tree) := by
  cases tree with
  | expression value => exact relating.bind (evaluate value) fun _ => relating.pure _
  | print value =>
    apply relating.bind (evaluate value)
    intro value
    apply relating.step
    exact .bind (.inspect _) fun text => .bind (.printLine text) fun _ => .pure _
  | declareVar name initializer =>
    cases initializer with
    | none => exact relating.step (.bind (.define _ _) fun _ => .pure _)
    | some value =>
      apply relating.bind (evaluate value)
      intro value
      exact relating.step (.bind (.define _ _) fun _ => .pure _)
  | block body =>
    apply relating.bind (relating.step .currentScope)
    intro scope
    apply relating.bind (relating.step (.newScope _ _))
    intro inner
    exact relating.within inner (executeAll body)
  | ifThen condition consequent =>
    apply relating.bind (evaluate condition)
    intro value
    split
    · exact execute consequent
    · exact relating.pure _
  | ifElse condition consequent alternative =>
    apply relating.bind (evaluate condition)
    intro value
    split
    · exact execute consequent
    · exact execute alternative
  | «while» condition body => exact relating.executeWhole_while setting execute evaluate condition body
  | declareFunction routine =>
    apply relating.step
    apply Composed.bind .currentScope
    intro scope
    exact .bind (.newFunction _) fun _ => .bind (.define _ _) fun _ => .pure _
  | «return» line value =>
    cases value with
    | none => exact relating.pure _
    | some value => exact relating.bind (evaluate value) fun _ => relating.pure _
  | declareClass name superclass methods =>
    exact relating.step (.bind (.declareClass setting name superclass methods) fun _ => .pure _)

end Statements

theorem exhausted : Parts.Related related (.exhausted : Parts m) (.exhausted : Parts m') :=
  ⟨fun _ => relating.step .outOfFuel, fun _ => relating.step .outOfFuel,
    fun _ _ => relating.step .outOfFuel, fun _ _ => relating.step .outOfFuel,
    fun _ => relating.step .outOfFuel, fun _ => relating.step .outOfFuel⟩

theorem whole (same : parts.Related related parts') :
    (parts.whole setting).Related related (parts'.whole setting) where
  evaluate := relating.evaluateWhole setting same.evaluate same.evaluateAll same.call
  evaluateAll := relating.evaluateAllWhole same.evaluate same.evaluateAll
  call := relating.callWhole setting same.invoke
  invoke := relating.invokeWhole same.executeAll
  execute := relating.executeWhole setting same.execute same.executeAll same.evaluate
  executeAll := relating.executeAllWhole same.execute same.executeAll

theorem interpret (same : parts.Related related parts') (body : List Stmt) :
    related (parts.interpret body) (parts'.interpret body) := by
  induction body with
  | nil => exact relating.pure _
  | cons first rest ih => exact relating.bind (same.execute first) fun _ => ih

end Relating

/-- By induction on the fuel, every evaluation is related to itself. -/
theorem Eval.parts_related {related : ∀ ⦃α : Type⦄, Eval α → Eval α → Prop}
    (relating : Relating related) (setting : Setting) (fuel : Nat) :
    (parts setting fuel).Related related (parts setting fuel) := by
  induction fuel with
  | zero =>
    rw [parts_zero]
    exact relating.exhausted
  | succ fuel same =>
    rw [parts_succ]
    exact relating.whole setting same

end Lox
