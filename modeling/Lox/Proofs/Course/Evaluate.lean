import Lox.Proofs.Course.Basic

/-! Evaluation with a note of its course. It is evaluation apart from the notes, and at every point the
machine has counted the calls that are in progress. -/

namespace Lox.Course

open Eval (orFault inspect fault halt readName targetScope defineIn)

/-- The class from which a method of the superclass comes. -/
def superHolder? (setting : Setting) (id : NodeId) (method : Name) (journal : Journal) :
    Option ClassRef := do
  let distance ← setting.distances[id]?
  match journal.machine.heap.scopes.lookupAt? journal.machine.scope distance "super" with
  | some (.callable (.ofClass superclass)) => journal.machine.heap.holder? superclass method.text
  | _ => none

mutual

def evaluate (setting : Setting) : (fuel : Nat) → Place → Expr → Course Value
  | 0, _, _ => lift (halt .outOfFuel)
  | fuel + 1, place, tree => observe place (.evaluate tree) <| match tree with
    | .literal value => return .ofLiteral value
    | .grouping inner => evaluate setting fuel place inner
    | .unary op line operand => do
      lift (orFault line (op.apply (← evaluate setting fuel place operand)))
    | .binary op line left right => do
      let left ← evaluate setting fuel place left
      let right ← evaluate setting fuel place right
      lift (orFault line (op.apply left right))
    | .logical op _ left right => do
      let left ← evaluate setting fuel place left
      if op.isDecidedBy left then return left else evaluate setting fuel place right
    | .read id name => lift (readName setting id name)
    | .assign id name value => do
      let value ← evaluate setting fuel place value
      lift do
        defineIn (← targetScope setting id name) name.text value
        return value
    | .call callee line arguments => do
      match ← evaluate setting fuel place callee with
      | .callable callee =>
        let arguments ← evaluateAll setting fuel place arguments
        let arity ← lift (inspect (·.arity callee))
        if arguments.length = arity then
          deeper line (call setting fuel { place with calls := callee :: place.calls } callee arguments)
        else
          lift (fault (.wrongArity arity arguments.length) line)
      | _ => lift (fault .notCallable line)
    | .get object name => do
      match ← evaluate setting fuel place object with
      | .object receiver =>
        let owner ← view fun journal =>
          let heap := journal.machine.heap
          heap.holder? (heap.instanceAt receiver).owner name.text
        making owner (Eval.readProperty receiver name)
      | _ => lift (fault .propertyOfNonInstance name.line)
    | .set object name value => do
      match ← evaluate setting fuel place object with
      | .object receiver =>
        let value ← evaluate setting fuel place value
        lift do
          Eval.setField receiver name.text value
          return value
      | _ => lift (fault .fieldOfNonInstance name.line)
    | .this id line => lift (readName setting id ⟨"this", line⟩)
    | .super id line method => do
      let owner ← view (superHolder? setting id method)
      making owner (Eval.readSuper setting id line method)

def evaluateAll (setting : Setting) : (fuel : Nat) → Place → List Expr → Course (List Value)
  | 0, _, _ => lift (halt .outOfFuel)
  | fuel + 1, place, trees => observe place (.evaluateAll trees) <| match trees with
    | [] => return []
    | first :: rest => do
      let value ← evaluate setting fuel place first
      return value :: (← evaluateAll setting fuel place rest)

/-- The code of a function belongs to the class known for it, and that of an initializer to the class
from which it comes. -/
def call (setting : Setting) : (fuel : Nat) → Place → Callable → List Value → Course Value
  | 0, _, _, _ => lift (halt .outOfFuel)
  | fuel + 1, place, callee, arguments =>
    observe place (.call callee arguments) <| match callee with
    | .clock => lift (Eval.readClock setting)
    | .ofFunction ref => do
      let owner ← view (·.owners ref)
      let closure ← lift (inspect (·.closureAt ref))
      invoke setting fuel { place with owner } closure arguments
    | .ofClass ref => do
      let created ← lift (Eval.newInstance ref)
      let owner ← view (·.machine.heap.holder? ref initializerName)
      match ← lift (inspect (·.method? ref initializerName)) with
      | some method =>
        let bound ← lift (Eval.bindMethod method created)
        discard <| invoke setting fuel { place with owner } bound arguments
        return .object created
      | none => return .object created

def invoke (setting : Setting) : (fuel : Nat) → Place → Closure → List Value → Course Value
  | 0, _, _, _ => lift (halt .outOfFuel)
  | fuel + 1, place, closure, arguments => observe place (.invoke closure arguments) do
    let scope ← lift (Eval.activation closure arguments)
    let flow ← within scope (executeAll setting fuel place closure.routine.body)
    lift (Eval.callResult closure flow)

def execute (setting : Setting) : (fuel : Nat) → Place → Stmt → Course Flow
  | 0, _, _ => lift (halt .outOfFuel)
  | fuel + 1, place, tree => observe place (.execute tree) <| match tree with
    | .expression value => do
      discard <| evaluate setting fuel place value
      return .normal
    | .print value => do
      let value ← evaluate setting fuel place value
      lift (do Eval.printLine (← inspect (·.display value)))
      return .normal
    | .declareVar name none => do
      lift (Eval.define name.text .nil)
      return .normal
    | .declareVar name (some initializer) => do
      let value ← evaluate setting fuel place initializer
      lift (Eval.define name.text value)
      return .normal
    | .block body => do
      let scope ← lift (do Eval.newScope .empty (← Eval.currentScope))
      within scope (executeAll setting fuel place body)
    | .ifThen condition consequent => do
      if (← evaluate setting fuel place condition).isTruthy then execute setting fuel place consequent
      else return .normal
    | .ifElse condition consequent alternative => do
      if (← evaluate setting fuel place condition).isTruthy then execute setting fuel place consequent
      else execute setting fuel place alternative
    | .while condition body => do
      if (← evaluate setting fuel place condition).isTruthy then
        match ← execute setting fuel place body with
        | .normal => execute setting fuel place (.while condition body)
        | .returned value => return .returned value
      else
        return .normal
    | .declareFunction routine => do
      making place.owner do
        let created ← Eval.newFunction ⟨routine, ← Eval.currentScope, false⟩
        Eval.define routine.name.text created
      return .normal
    | .return _ none => return .returned .nil
    | .return _ (some value) => do
      return .returned (← evaluate setting fuel place value)
    | .declareClass name superclass methods => do
      lift (Eval.declareClass setting name superclass methods)
      return .normal

def executeAll (setting : Setting) : (fuel : Nat) → Place → List Stmt → Course Flow
  | 0, _, _ => lift (halt .outOfFuel)
  | fuel + 1, place, trees => observe place (.executeAll trees) <| match trees with
    | [] => return .normal
    | first :: rest => do
      match ← execute setting fuel place first with
      | .normal => executeAll setting fuel place rest
      | .returned value => return .returned value

end

/-- Executes statements at the top level. -/
def interpret (setting : Setting) (fuel : Nat) : List Stmt → Course Unit
  | [] => return ()
  | first :: rest => do
    discard <| execute setting fuel .outermost first
    interpret setting fuel rest

open Eval (Composed)

/-- Evaluation with some fuel follows that of the evaluator at every place. -/
structure Accompanies (setting : Setting) (fuel : Nat) : Prop where
  evaluate : ∀ place tree,
    Follows place.calls (evaluate setting fuel place tree) (Eval.evaluate setting fuel tree)
  evaluateAll : ∀ place trees,
    Follows place.calls (evaluateAll setting fuel place trees) (Eval.evaluateAll setting fuel trees)
  call : ∀ place callee arguments, Follows place.calls (call setting fuel place callee arguments)
    (Eval.call setting fuel callee arguments)
  invoke : ∀ place closure arguments,
    Follows place.calls (invoke setting fuel place closure arguments)
      (Eval.invoke setting fuel closure arguments)
  execute : ∀ place tree,
    Follows place.calls (execute setting fuel place tree) (Eval.execute setting fuel tree)
  executeAll : ∀ place trees,
    Follows place.calls (executeAll setting fuel place trees) (Eval.executeAll setting fuel trees)

theorem fault_follows (reason : RuntimeFault) (line : Nat) (calls : List Callable) :
    Follows (α := Value) calls (lift (fault reason line)) (fault reason line) :=
  .lift (.fault reason line)

namespace Accompanies

variable {setting : Setting} {fuel : Nat}

theorem zero (setting : Setting) : Accompanies setting 0 where
  evaluate _ _ := .lift .outOfFuel
  evaluateAll _ _ := .lift .outOfFuel
  call _ _ _ := .lift (Composed.outOfFuel : Composed (halt .outOfFuel : Eval Value))
  invoke _ _ _ := .lift (Composed.outOfFuel : Composed (halt .outOfFuel : Eval Value))
  execute _ _ := .lift .outOfFuel
  executeAll _ _ := .lift .outOfFuel

variable (within : Accompanies setting fuel)

include within

theorem evaluate_call (place : Place) (callee : Expr) (line : Nat) (arguments : List Expr) :
    Follows place.calls (Course.evaluate setting (fuel + 1) place (.call callee line arguments))
      (Eval.evaluate setting (fuel + 1) (.call callee line arguments)) := by
  apply Follows.observe
  apply (within.evaluate place callee).bind
  intro value
  cases value with
  | callable callee =>
    apply (within.evaluateAll place arguments).bind
    intro values
    apply (Follows.lift (.inspect _)).bind
    intro arity
    split
    · exact (within.call { place with calls := callee :: place.calls } callee values).deeper line
    · exact fault_follows _ _ _
  | _ => exact fault_follows _ _ _

theorem evaluate_succ (place : Place) (tree : Expr) :
    Follows place.calls (Course.evaluate setting (fuel + 1) place tree)
      (Eval.evaluate setting (fuel + 1) tree) := by
  cases tree with
  | literal value => exact .observe _ (.pure _)
  | grouping inner => exact .observe _ (within.evaluate place inner)
  | unary op line operand =>
    exact .observe _ ((within.evaluate place operand).bind fun _ => .lift (.orFault _ _))
  | binary op line left right =>
    exact .observe _ ((within.evaluate place left).bind fun _ =>
      (within.evaluate place right).bind fun _ => .lift (.orFault _ _))
  | logical op line left right =>
    apply Follows.observe
    apply (within.evaluate place left).bind
    intro value
    split
    · exact .pure _
    · exact within.evaluate place right
  | read id name => exact .observe _ (.lift (.readName _ _ _))
  | assign id name value =>
    apply Follows.observe
    apply (within.evaluate place value).bind
    intro result
    apply Follows.lift
    exact .bind (.targetScope _ _ _) fun _ =>
      .bind (.defineIn _ _ _) fun _ => .pure _
  | call callee line arguments => exact within.evaluate_call place callee line arguments
  | get object name =>
    apply Follows.observe
    apply (within.evaluate place object).bind
    intro value
    cases value with
    | object receiver => exact .view _ fun owner => .making owner (.readProperty receiver name)
    | _ => exact fault_follows _ _ _
  | set object name value =>
    apply Follows.observe
    apply (within.evaluate place object).bind
    intro held
    cases held with
    | object receiver =>
      apply (within.evaluate place value).bind
      intro result
      exact .lift (.bind (.setField _ _ _) fun _ => .pure _)
    | _ => exact fault_follows _ _ _
  | this id line => exact .observe _ (.lift (.readName _ _ _))
  | super id line method =>
    exact .observe _ (.view _ fun owner => .making owner (.readSuper _ _ _ _))

theorem evaluateAll_succ (place : Place) (trees : List Expr) :
    Follows place.calls (Course.evaluateAll setting (fuel + 1) place trees)
      (Eval.evaluateAll setting (fuel + 1) trees) := by
  cases trees with
  | nil => exact .observe _ (.pure _)
  | cons first rest =>
    exact .observe _ ((within.evaluate place first).bind fun _ =>
      (within.evaluateAll place rest).bind fun _ => .pure _)

theorem call_succ (place : Place) (callee : Callable) (arguments : List Value) :
    Follows place.calls (Course.call setting (fuel + 1) place callee arguments)
      (Eval.call setting (fuel + 1) callee arguments) := by
  apply Follows.observe
  cases callee with
  | clock => exact .lift (.readClock setting)
  | ofFunction ref =>
    apply Follows.view
    intro owner
    exact (Follows.lift (.inspect _)).bind fun closure =>
      within.invoke { place with owner } closure arguments
  | ofClass ref =>
    apply (Follows.lift (.newInstance ref)).bind
    intro created
    apply Follows.view
    intro owner
    apply (Follows.lift (.inspect _)).bind
    intro method
    cases method with
    | none => exact .pure _
    | some method =>
      apply (Follows.lift (.bindMethod method created)).bind
      intro bound
      exact (within.invoke { place with owner } bound arguments).discard.bind fun _ => .pure _

theorem invoke_succ (place : Place) (closure : Closure) (arguments : List Value) :
    Follows place.calls (Course.invoke setting (fuel + 1) place closure arguments)
      (Eval.invoke setting (fuel + 1) closure arguments) := by
  apply Follows.observe
  apply (Follows.lift (.activation closure arguments)).bind
  intro scope
  apply ((within.executeAll place closure.routine.body).within scope).bind
  intro flow
  exact .lift (.callResult closure flow)

theorem execute_succ (place : Place) (tree : Stmt) :
    Follows place.calls (Course.execute setting (fuel + 1) place tree)
      (Eval.execute setting (fuel + 1) tree) := by
  apply Follows.observe
  cases tree with
  | expression value => exact (within.evaluate place value).discard.bind fun _ => .pure _
  | print value =>
    apply (within.evaluate place value).bind
    intro held
    have printed : Composed (inspect (·.display held) >>= Eval.printLine) :=
      .bind (.inspect _) .printLine
    exact (Follows.lift printed).bind fun _ => .pure _
  | declareVar name initializer =>
    cases initializer with
    | none => exact (Follows.lift (.define _ _)).bind fun _ => .pure _
    | some initializer =>
      exact (within.evaluate place initializer).bind fun _ =>
        (Follows.lift (.define _ _)).bind fun _ => .pure _
  | block body =>
    have opened : Composed (Eval.currentScope >>= Eval.newScope .empty) :=
      .bind .currentScope (.newScope _)
    exact (Follows.lift opened).bind fun scope => (within.executeAll place body).within scope
  | ifThen condition consequent =>
    apply (within.evaluate place condition).bind
    intro value
    split
    · exact within.execute place consequent
    · exact .pure _
  | ifElse condition consequent alternative =>
    apply (within.evaluate place condition).bind
    intro value
    split
    · exact within.execute place consequent
    · exact within.execute place alternative
  | «while» condition body =>
    apply (within.evaluate place condition).bind
    intro value
    split
    · apply (within.execute place body).bind
      intro flow
      cases flow with
      | normal => exact within.execute place (.while condition body)
      | returned value => exact .pure _
    · exact .pure _
  | declareFunction routine =>
    have declared : Composed (Eval.currentScope >>= fun scope =>
        Eval.newFunction ⟨routine, scope, false⟩ >>= Eval.define routine.name.text) :=
      .bind .currentScope fun _ =>
        .bind (.newFunction _) fun _ => .define _ _
    exact (Follows.making place.owner declared).bind fun _ => .pure _
  | «return» line value =>
    cases value with
    | none => exact .pure _
    | some value => exact (within.evaluate place value).bind fun _ => .pure _
  | declareClass name superclass methods =>
    exact (Follows.lift (.declareClass setting name superclass methods)).bind fun _ => .pure _

theorem executeAll_succ (place : Place) (trees : List Stmt) :
    Follows place.calls (Course.executeAll setting (fuel + 1) place trees)
      (Eval.executeAll setting (fuel + 1) trees) := by
  apply Follows.observe
  cases trees with
  | nil => exact .pure _
  | cons first rest =>
    apply (within.execute place first).bind
    intro flow
    cases flow with
    | normal => exact within.executeAll place rest
    | returned value => exact .pure _

end Accompanies

theorem accompanies (setting : Setting) (fuel : Nat) : Accompanies setting fuel := by
  induction fuel with
  | zero => exact .zero setting
  | succ fuel within =>
    exact {
      evaluate := within.evaluate_succ
      evaluateAll := within.evaluateAll_succ
      call := within.call_succ
      invoke := within.invoke_succ
      execute := within.execute_succ
      executeAll := within.executeAll_succ }

theorem interpret_follows (setting : Setting) (fuel : Nat) (body : List Stmt) :
    Follows [] (interpret setting fuel body) (Eval.interpret setting fuel body) := by
  induction body with
  | nil => exact .pure ()
  | cons first rest ih =>
    exact ((accompanies setting fuel).execute .outermost first).discard.bind fun _ => ih

/-- The points that a run of statements from the start passes. -/
def points (setting : Setting) (fuel : Nat) (capacity : Option Nat) (body : List Stmt) :
    List Point :=
  (ended (interpret setting fuel body (.start capacity))).points

/-- What is noted is the course of the run itself. -/
theorem erase_interpret (setting : Setting) (fuel : Nat) (capacity : Option Nat)
    (body : List Stmt) :
    erase (interpret setting fuel body (.start capacity)) =
      Eval.interpret setting fuel body (.start capacity) :=
  (interpret_follows setting fuel body).erases (.start capacity)

/-- At every point of a run the machine has counted the calls in progress, of which there are at most
as many as may be. -/
theorem points_counted (setting : Setting) (fuel : Nat) (capacity : Option Nat) (body : List Stmt) :
    ∀ point ∈ points setting fuel capacity body, point.Counted := by
  have start : (Journal.start capacity).Counted [] := ⟨rfl, Nat.zero_le _, nofun⟩
  exact ((interpret_follows setting fuel body).counts _ start).points

end Lox.Course
