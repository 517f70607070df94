import Lox.Proofs.Lexical.Evaluate
import Lox.Proofs.Steps

/-! Evaluation by lexical scoping with different amounts of fuel. With more fuel an evaluation ends as
before, unless the fuel ran out. Then it goes on, and what was printed so far stays printed. -/

namespace Lox.Lexical

namespace State

/-- What was written stays written. -/
def Extends (state after : State) : Prop :=
  ∃ more, after.sink.written = state.sink.written ++ more

namespace Extends

variable {one two three : State}

theorem of_eq (same : two.sink = one.sink) : one.Extends two :=
  ⟨.empty, by rw [same, ByteArray.append_empty]⟩

theorem trans (first : Extends one two) (second : Extends two three) : Extends one three := by
  obtain ⟨more, written⟩ := first
  obtain ⟨more', written'⟩ := second
  exact ⟨more ++ more', by rw [written', written, ByteArray.append_assoc]⟩

end Extends

end State

variable {α β σ : Type}

/-- The state in which an evaluation ends, also where it halts. -/
def ended : EStateM.Result Halt σ α → σ
  | .ok _ after | .error _ after => after

/-- An evaluation for which the fuel sufficed. -/
def Finished (result : EStateM.Result Halt σ α) : Prop :=
  ∀ after, result ≠ .error .outOfFuel after

namespace Eval

/-- A result with less fuel beside one with more: either the fuel sufficed or what was printed until
it ran out is the beginning of the output. -/
inductive Begins : EStateM.Result Halt State α → EStateM.Result Halt State α → Prop where
  | whole : Begins result result
  | part (longer : State.Extends state (ended result)) : Begins (.error .outOfFuel state) result

/-- Evaluations that differ at most in that the first one may run out of fuel. -/
structure Approximates (step other : Eval α) : Prop where
  begins : ∀ state, Begins (step state) (other state)
  longer : ∀ state : State, state.Extends (ended (other state))

/-- A step beside itself, which says that it keeps what is printed. -/
abbrev Fueled (step : Eval α) : Prop :=
  Approximates step step

theorem Begins.eq_of_finished {result other : EStateM.Result Halt State α}
    (begins : Begins result other) (finished : Finished result) : result = other := by
  cases begins with
  | whole => rfl
  | part => exact absurd rfl (finished _)

theorem Begins.longer {result other : EStateM.Result Halt State α} (begins : Begins result other) :
    (ended result).Extends (ended other) := by
  cases begins with
  | whole => exact .of_eq rfl
  | part longer => exact longer

theorem Begins.trans {result other last : EStateM.Result Halt State α} (first : Begins result other)
    (second : Begins other last) : Begins result last := by
  cases first with
  | whole => exact second
  | part longer => exact .part (longer.trans second.longer)

namespace Approximates

variable {step other : Eval α}

theorem trans {last : Eval α} (first : Approximates step other) (second : Approximates other last) :
    Approximates step last :=
  ⟨fun state => (first.begins state).trans (second.begins state), second.longer⟩

theorem whole (steps : Approximates step other) : Fueled other :=
  ⟨fun _ => .whole, steps.longer⟩

/-- Nothing is less than an evaluation that ran out of fuel at once. -/
theorem outOfFuel (same : Fueled step) : Approximates (halt .outOfFuel) step :=
  ⟨fun state => .part (same.longer state), same.longer⟩

/-- What follows a step adds to its output. -/
theorem extends_bind {later : α → Eval β}
    (rest : ∀ value (state : State), state.Extends (ended (later value state))) (state : State) :
    (ended (step state)).Extends (ended ((step >>= later) state)) := by
  rw [bind_apply]
  cases step state with
  | ok value after => exact rest value after
  | error reason after => exact .of_eq rfl

theorem bind {later later' : α → Eval β} (first : Approximates step other)
    (rest : ∀ value, Approximates (later value) (later' value)) :
    Approximates (step >>= later) (other >>= later') := by
  have onward (state : State) : (ended (other state)).Extends (ended ((other >>= later') state)) :=
    extends_bind (fun value => (rest value).longer) state
  refine ⟨fun state => ?_, fun state => (first.longer state).trans (onward state)⟩
  have begins := first.begins state
  have onward := onward state
  rw [bind_apply] at onward
  rw [bind_apply, bind_apply]
  generalize step state = result at begins
  generalize other state = result' at begins onward ⊢
  cases begins with
  | whole =>
    cases result with
    | ok value after => exact (rest value).begins after
    | error reason after => exact .whole
  | part longer => exact .part (longer.trans onward)

/-- A step that prints nothing and takes no fuel. -/
theorem quiet (same : ∀ state, (ended (step state)).sink = state.sink) : Fueled step :=
  ⟨fun _ => .whole, fun state => .of_eq (same state)⟩

theorem pure (value : α) : Fueled (Pure.pure value) :=
  quiet fun _ => rfl

theorem halt (reason : Halt) : Fueled (Eval.halt reason : Eval α) :=
  quiet fun _ => rfl

theorem inspect (view : State → α) : Fueled (Eval.inspect view) :=
  quiet fun _ => rfl

theorem extend (environment : Environment) (entries : List (String × Value)) :
    Fueled (Eval.extend environment entries) :=
  quiet fun _ => rfl

theorem newFunction (closure : Closure) : Fueled (Eval.newFunction closure) :=
  quiet fun _ => rfl

theorem fault (reason : RuntimeFault) (line : Nat) : Fueled (Eval.fault reason line : Eval α) :=
  halt _

theorem discard (steps : Approximates step other) :
    Approximates (Functor.discard step) (Functor.discard other) :=
  steps.bind fun _ => pure _

/-- A statement, and what is done after it unless it returns. -/
theorem flow {step other next next' : Eval Flow} (first : Approximates step other)
    (rest : Approximates next next') :
    Approximates
      (do
        match ← step with
        | .normal => next
        | .returned value => return .returned value)
      (do
        match ← other with
        | .normal => next'
        | .returned value => return .returned value) := by
  refine first.bind fun flow => ?_
  cases flow with
  | normal => exact rest
  | returned value => exact pure _

theorem printLine (text : String) : Fueled (Eval.printLine text) := by
  refine ⟨fun _ => .whole, fun state => ?_⟩
  unfold Eval.printLine
  dsimp only
  split <;> exact ⟨_, rfl⟩

theorem deeper (line : Nat) (steps : Approximates step other) :
    Approximates (Eval.deeper line step) (Eval.deeper line other) := by
  constructor
  · intro state
    unfold Eval.deeper
    dsimp only
    split
    · have begins := steps.begins { state with depth := state.depth + 1 }
      revert begins
      generalize step { state with depth := state.depth + 1 } = result
      generalize other { state with depth := state.depth + 1 } = result'
      intro begins
      cases begins with
      | whole => exact .whole
      | part longer =>
        refine .part ?_
        cases result' <;> exact longer
    · exact .whole
  · intro state
    unfold Eval.deeper
    dsimp only
    split
    · have longer := steps.longer { state with depth := state.depth + 1 }
      revert longer
      generalize other { state with depth := state.depth + 1 } = result
      intro longer
      cases result <;> exact longer
    · exact .of_eq rfl

theorem orFault (line : Nat) (result : Except RuntimeFault α) :
    Fueled (Eval.orFault line result) := by
  cases result with
  | ok value => exact pure value
  | error reason => exact fault reason line

theorem orElseFault (line : Nat) (reason : RuntimeFault) (result : Option α) :
    Fueled (Eval.orElseFault line reason result) := by
  cases result with
  | some value => exact pure value
  | none => exact fault reason line

theorem readName (environment : Environment) (name : Name) :
    Fueled (Eval.readName environment name) := by
  unfold Eval.readName
  split
  · exact inspect _
  · exact (inspect _).bind fun _ => orElseFault _ _ _

theorem writeName (environment : Environment) (name : Name) (value : Value) :
    Fueled (Eval.writeName environment name value) := by
  unfold Eval.writeName
  split
  · exact quiet fun _ => rfl
  · refine (inspect _).bind fun known => ?_
    split
    · exact quiet fun _ => rfl
    · exact fault _ _

theorem bindMethod (method : Closure) (receiver : InstanceRef) :
    Fueled (Eval.bindMethod method receiver) :=
  quiet fun _ => rfl

theorem newBound (method : Closure) (receiver : InstanceRef) :
    Fueled (Eval.bindMethod method receiver >>= Eval.newFunction) :=
  quiet fun _ => rfl

theorem readProperty (receiver : InstanceRef) (name : Name) :
    Fueled (Eval.readProperty receiver name) := by
  refine (inspect _).bind fun field => ?_
  cases field with
  | some value => exact pure value
  | none =>
    refine (inspect _).bind fun method => ?_
    cases method with
    | some method => exact newBound method receiver
    | none => exact fault _ _

theorem readSuper (environment : Environment) (line : Nat) (method : Name) :
    Fueled (Eval.readSuper environment line method) := by
  refine (inspect _).bind fun parent => ?_
  split
  · refine (inspect _).bind fun this => ?_
    split
    · refine (inspect _).bind fun found => ?_
      cases found with
      | some found => exact newBound found _
      | none => exact fault _ _
    · exact fault _ _
  · exact fault _ _

theorem readSuperclass (environment : Environment) (superclass : Superclass) :
    Fueled (Eval.readSuperclass environment superclass) := by
  refine (readName environment superclass.name).bind fun value => ?_
  split
  · exact pure _
  · exact fault _ _

theorem introduce (place : Place) (stmt : Stmt) : Fueled (Eval.introduce place stmt) := by
  unfold Eval.introduce
  split
  · cases place <;> exact quiet fun _ => rfl
  · exact pure place

theorem settle (place : Place) (name : String) (value : Value) :
    Fueled (Eval.settle place name value) := by
  unfold Eval.settle
  split
  · exact quiet fun _ => rfl
  · split <;> exact quiet fun _ => rfl

theorem declareClass (place : Place) (name : Name) (superclass : Option Superclass)
    (methods : List Routine) :
    Fueled (Eval.declareClass place name superclass methods) := by
  have settled (object : ClassObject) : Fueled (Eval.newClass object >>= Eval.settle place name.text) :=
    (quiet fun _ => rfl).bind fun _ => settle place _ _
  cases superclass with
  | none => exact settled _
  | some superclass =>
    refine (readSuperclass _ superclass).bind fun parent => ?_
    exact (extend _ _).bind fun _ => settled _

theorem callResult (closure : Closure) (flow : Flow) : Fueled (Eval.callResult closure flow) := by
  unfold Eval.callResult
  split
  · exact (inspect _).bind fun _ => pure _
  · cases flow <;> exact pure _

end Approximates

/-- Every evaluation with some fuel beside the same one with other fuel. -/
structure Completes (clock : Nat → Float) (fuel more : Nat) : Prop where
  evaluate : ∀ environment expr,
    Approximates (evaluate clock fuel environment expr) (evaluate clock more environment expr)
  evaluateAll : ∀ environment exprs,
    Approximates (evaluateAll clock fuel environment exprs) (evaluateAll clock more environment exprs)
  call : ∀ callee arguments,
    Approximates (call clock fuel callee arguments) (call clock more callee arguments)
  invoke : ∀ closure arguments,
    Approximates (invoke clock fuel closure arguments) (invoke clock more closure arguments)
  execute : ∀ place stmt,
    Approximates (execute clock fuel place stmt) (execute clock more place stmt)
  executeAll : ∀ place body,
    Approximates (executeAll clock fuel place body) (executeAll clock more place body)

namespace Completes

variable {clock : Nat → Float} {fuel more : Nat} (inside : Completes clock fuel more)

include inside

theorem evaluate_succ (environment : Environment) (expr : Expr) :
    Approximates (Eval.evaluate clock (fuel + 1) environment expr)
      (Eval.evaluate clock (more + 1) environment expr) := by
  cases expr with
  | literal value => exact .pure _
  | grouping inner => exact inside.evaluate environment inner
  | unary op line operand =>
    exact (inside.evaluate environment operand).bind fun _ => .orFault line _
  | binary op line left right =>
    exact (inside.evaluate environment left).bind fun _ =>
      (inside.evaluate environment right).bind fun _ => .orFault line _
  | logical op line left right =>
    refine (inside.evaluate environment left).bind fun _ => ?_
    split
    · exact .pure _
    · exact inside.evaluate environment right
  | read id name => exact .readName environment name
  | assign id name value =>
    exact (inside.evaluate environment value).bind fun _ =>
      (Approximates.writeName environment name _).bind fun _ => .pure _
  | call callee line arguments =>
    refine (inside.evaluate environment callee).bind fun value => ?_
    cases value with
    | callable callee =>
      refine (inside.evaluateAll environment arguments).bind fun arguments => ?_
      refine (Approximates.inspect _).bind fun arity => ?_
      split
      · exact .deeper line (inside.call callee arguments)
      · exact .fault _ line
    | _ => exact .fault _ line
  | get object name =>
    refine (inside.evaluate environment object).bind fun value => ?_
    cases value with
    | object receiver => exact .readProperty receiver name
    | _ => exact .fault _ _
  | set object name value =>
    refine (inside.evaluate environment object).bind fun held => ?_
    cases held with
    | object receiver =>
      have written (value : Value) : Fueled (Eval.setField receiver name.text value) :=
        .quiet fun _ => rfl
      exact (inside.evaluate environment value).bind fun value => (written value).bind fun _ => .pure _
    | _ => exact .fault _ _
  | this id line => exact .readName environment _
  | super id line method => exact .readSuper environment line method

theorem evaluateAll_succ (environment : Environment) (exprs : List Expr) :
    Approximates (Eval.evaluateAll clock (fuel + 1) environment exprs)
      (Eval.evaluateAll clock (more + 1) environment exprs) := by
  cases exprs with
  | nil => exact .pure _
  | cons first rest =>
    exact (inside.evaluate environment first).bind fun _ =>
      (inside.evaluateAll environment rest).bind fun _ => .pure _

theorem call_succ (callee : Callable) (arguments : List Value) :
    Approximates (Eval.call clock (fuel + 1) callee arguments)
      (Eval.call clock (more + 1) callee arguments) := by
  cases callee with
  | clock => exact .quiet fun _ => rfl
  | ofFunction ref =>
    exact (Approximates.inspect _).bind fun closure => inside.invoke closure arguments
  | ofClass ref =>
    have created : Fueled (Eval.newInstance ref) := .quiet fun _ => rfl
    refine created.bind fun created => (Approximates.inspect _).bind fun method => ?_
    cases method with
    | none => exact .pure _
    | some method =>
      exact (Approximates.bindMethod method created).bind fun closure =>
        (inside.invoke closure arguments).discard.bind fun _ => .pure (Value.object created)

theorem invoke_succ (closure : Closure) (arguments : List Value) :
    Approximates (Eval.invoke clock (fuel + 1) closure arguments)
      (Eval.invoke clock (more + 1) closure arguments) :=
  (Approximates.extend _ _).bind fun environment =>
    (inside.executeAll (.within environment) closure.body).bind fun flow => .callResult closure flow

theorem execute_succ (place : Place) (stmt : Stmt) :
    Approximates (Eval.execute clock (fuel + 1) place stmt)
      (Eval.execute clock (more + 1) place stmt) := by
  cases stmt with
  | expression value => exact (inside.evaluate _ value).discard.bind fun _ => .pure _
  | print value =>
    exact (inside.evaluate _ value).bind fun _ => (Approximates.inspect _).bind fun text =>
      (Approximates.printLine text).bind fun _ => .pure _
  | declareVar name initializer =>
    cases initializer with
    | none => exact (Approximates.settle place _ _).bind fun _ => .pure _
    | some initializer =>
      exact (inside.evaluate _ initializer).bind fun _ =>
        (Approximates.settle place _ _).bind fun _ => .pure _
  | block body => exact inside.executeAll _ body
  | ifThen condition consequent =>
    refine (inside.evaluate _ condition).bind fun _ => ?_
    split
    · exact inside.execute place consequent
    · exact .pure _
  | ifElse condition consequent alternative =>
    refine (inside.evaluate _ condition).bind fun _ => ?_
    split
    · exact inside.execute place consequent
    · exact inside.execute place alternative
  | «while» condition body =>
    refine (inside.evaluate _ condition).bind fun _ => ?_
    split
    · exact (inside.execute place body).flow (inside.execute place (.while condition body))
    · exact .pure _
  | declareFunction routine =>
    exact (Approximates.newFunction _).bind fun _ =>
      (Approximates.settle place _ _).bind fun _ => .pure _
  | «return» line value =>
    cases value with
    | none => exact .pure _
    | some value => exact (inside.evaluate _ value).bind fun _ => .pure _
  | declareClass name superclass methods =>
    exact (Approximates.declareClass place name superclass methods).bind fun _ => .pure _

theorem executeAll_succ (place : Place) (body : List Stmt) :
    Approximates (Eval.executeAll clock (fuel + 1) place body)
      (Eval.executeAll clock (more + 1) place body) := by
  cases body with
  | nil => exact .pure _
  | cons first rest =>
    exact (Approximates.introduce place first).bind fun place =>
      (inside.execute place first).flow (inside.executeAll place rest)

theorem succ : Completes clock (fuel + 1) (more + 1) where
  evaluate := inside.evaluate_succ
  evaluateAll := inside.evaluateAll_succ
  call := inside.call_succ
  invoke := inside.invoke_succ
  execute := inside.execute_succ
  executeAll := inside.executeAll_succ

omit inside

theorem refl (clock : Nat → Float) (fuel : Nat) : Completes clock fuel fuel := by
  induction fuel with
  | zero =>
    exact ⟨fun _ _ => .halt _, fun _ _ => .halt _, fun _ _ => .halt .outOfFuel,
      fun _ _ => .halt .outOfFuel, fun _ _ => .halt _, fun _ _ => .halt _⟩
  | succ fuel inside => exact inside.succ

/-- Without fuel an evaluation halts before it does anything. -/
theorem zero (clock : Nat → Float) (more : Nat) : Completes clock 0 more :=
  let full := refl clock more
  ⟨fun _ _ => (full.evaluate _ _).outOfFuel, fun _ _ => (full.evaluateAll _ _).outOfFuel,
    fun _ _ => (full.call _ _).outOfFuel, fun _ _ => (full.invoke _ _).outOfFuel,
    fun _ _ => (full.execute _ _).outOfFuel, fun _ _ => (full.executeAll _ _).outOfFuel⟩

theorem of_le (clock : Nat → Float) (le : fuel ≤ more) : Completes clock fuel more := by
  induction fuel generalizing more with
  | zero => exact zero clock more
  | succ fuel ih =>
    cases more with
    | zero => cases le
    | succ more => exact (ih (Nat.le_of_succ_le_succ le)).succ

end Completes

end Eval

end Lox.Lexical
