import Lox.Program
import Lox.Proofs.Machine.Methods
import Lox.Proofs.Steps

/-! Programs without loops end. Calls are the only way to run code again, and how many of them may be in
progress is bounded: the argument is by induction on how many more there is room for and, under it, on
the tree. -/

namespace Lox

mutual

/-- Code without a loop, also inside the functions and classes that it declares. -/
def Stmt.Loopless : Stmt → Prop
  | .expression _ | .print _ | .declareVar _ _ | .return _ _ => True
  | .block body => Stmt.AllLoopless body
  | .ifThen _ consequent => consequent.Loopless
  | .ifElse _ consequent alternative => consequent.Loopless ∧ alternative.Loopless
  | .while _ _ => False
  | .declareFunction routine => routine.Loopless
  | .declareClass _ _ methods => Routine.AllLoopless methods

def Stmt.AllLoopless : List Stmt → Prop
  | [] => True
  | first :: rest => first.Loopless ∧ Stmt.AllLoopless rest

def Routine.Loopless : Routine → Prop
  | ⟨_, _, body⟩ => Stmt.AllLoopless body

def Routine.AllLoopless : List Routine → Prop
  | [] => True
  | first :: rest => first.Loopless ∧ Routine.AllLoopless rest

end

/-- No routine in the heap has a loop. -/
structure Heap.Loopless (heap : Heap) : Prop where
  functions : ∀ ref, (heap.closureAt ref).routine.Loopless
  methods : ∀ ref name method, (heap.classAt ref).methods.find? name = some method →
    method.routine.Loopless

theorem Routine.loopless_iff {routine : Routine} :
    routine.Loopless ↔ Stmt.AllLoopless routine.body := by
  cases routine
  exact Iff.rfl

theorem Routine.AllLoopless.of_mem {methods : List Routine} (loopless : Routine.AllLoopless methods)
    (member : method ∈ methods) : method.Loopless := by
  induction methods with
  | nil => cases member
  | cons first rest ih =>
    rcases List.mem_cons.mp member with rfl | member
    · exact loopless.1
    · exact ih loopless.2 member

namespace Heap.Loopless

variable {heap : Heap}

theorem start : Heap.start.Loopless := by
  constructor
  · intro ref
    exact trivial
  · intro ref name method found
    cases found

theorem methodWithin? (loopless : heap.Loopless) (name : String) (bound : Nat) (ref : ClassRef)
    (found : heap.methodWithin? name bound ref = some method) : method.routine.Loopless := by
  induction bound generalizing ref with
  | zero => cases found
  | succ bound ih =>
    simp only [Heap.methodWithin?] at found
    split at found
    · rename_i own
      cases found
      exact loopless.methods ref name _ own
    · obtain ⟨parent, _, found⟩ := Option.bind_eq_some_iff.mp found
      exact ih parent found

theorem method? (loopless : heap.Loopless) {ref : ClassRef} {name : String}
    (found : heap.method? ref name = some method) : method.routine.Loopless :=
  loopless.methodWithin? name _ ref found

theorem newFunction (loopless : heap.Loopless) {closure : Closure}
    (code : closure.routine.Loopless) :
    Loopless { heap with functions := heap.functions.push closure } := by
  refine ⟨fun ref => ?_, loopless.methods⟩
  have old := loopless.functions ref
  unfold Heap.closureAt at old ⊢
  rw [getD_push]
  split
  · exact code
  · exact old

theorem newClass (loopless : heap.Loopless) {object : ClassObject}
    (code : ∀ name method, object.methods.find? name = some method → method.routine.Loopless) :
    Loopless { heap with classes := heap.classes.push object } := by
  refine ⟨loopless.functions, fun ref name method => ?_⟩
  have old := loopless.methods ref name method
  unfold Heap.classAt at old ⊢
  rw [getD_push]
  split
  · exact code name method
  · exact old

end Heap.Loopless

namespace Eval

variable {α β : Type}

/-- An end that lack of fuel has not brought about, after which the heap has no loops and as many
calls are in progress as said. -/
def Finished (depth : Nat) : EStateM.Result Halt Machine α → Prop
  | .ok _ after => after.heap.Loopless ∧ after.depth = depth
  | .error reason _ => reason ≠ .outOfFuel

/-- From a heap without loops and with so many calls in progress the step finishes if it is granted
enough fuel, and what is granted beyond that changes nothing. -/
def Terminates (depth : Nat) (step : Nat → Eval α) : Prop :=
  ∀ machine : Machine, machine.heap.Loopless → machine.depth = depth →
    ∃ enough result, Finished depth result ∧ ∀ fuel, enough ≤ fuel → step fuel machine = result

namespace Terminates

variable {depth : Nat}

/-- A step that makes no code does not need fuel. -/
theorem plain {step : Eval α} (steady : ∀ machine, match step machine with
    | .ok _ after => after.heap.functions = machine.heap.functions ∧
        after.heap.classes = machine.heap.classes ∧ after.depth = machine.depth
    | .error reason _ => reason ≠ .outOfFuel) : Terminates depth fun _ => step := by
  intro machine loopless same
  refine ⟨0, step machine, ?_, fun _ _ => rfl⟩
  have here := steady machine
  cases ran : step machine with
  | error reason after =>
    rw [ran] at here
    exact here
  | ok value after =>
    rw [ran] at here
    obtain ⟨functions, classes, depth⟩ := here
    refine ⟨⟨fun ref => ?_, fun ref => ?_⟩, depth.trans same⟩
    · have old := loopless.functions ref
      unfold Heap.closureAt at old ⊢
      rwa [functions]
    · have old := loopless.methods ref
      unfold Heap.classAt at old ⊢
      rwa [classes]

theorem pure (value : α) : Terminates depth fun _ => Pure.pure value :=
  plain fun _ => ⟨rfl, rfl, rfl⟩

theorem fault (reason : RuntimeFault) (line : Nat) :
    Terminates depth fun _ => (Eval.fault reason line : Eval α) :=
  plain fun _ => nofun

theorem succ {step : Nat → Eval α} (steps : Terminates depth fun fuel => step (fuel + 1)) :
    Terminates depth step := by
  intro machine loopless same
  obtain ⟨enough, result, finished, settled⟩ := steps machine loopless same
  refine ⟨enough + 1, result, finished, fun fuel granted => ?_⟩
  obtain ⟨fuel, rfl⟩ : ∃ less, fuel = less + 1 := ⟨fuel - 1, by omega⟩
  exact settled fuel (by omega)

theorem bind {step : Nat → Eval α} {later : Nat → α → Eval β} (first : Terminates depth step)
    (rest : ∀ value, Terminates depth fun fuel => later fuel value) :
    Terminates depth fun fuel => step fuel >>= later fuel := by
  intro machine loopless same
  obtain ⟨enough, result, finished, settled⟩ := first machine loopless same
  cases result with
  | error reason after =>
    exact ⟨enough, .error reason after, finished, fun fuel granted => bind_error (settled fuel granted)⟩
  | ok value middle =>
    obtain ⟨more, result, finished', settled'⟩ := rest value middle finished.1 finished.2
    refine ⟨max enough more, result, finished', fun fuel granted => ?_⟩
    exact (bind_ok (settled fuel (by omega))).trans (settled' fuel (by omega))

/-- What is found in a heap without loops is known to be so. -/
theorem inspect {view : Heap → α} {later : Nat → α → Eval β}
    (rest : ∀ heap : Heap, heap.Loopless → Terminates depth fun fuel => later fuel (view heap)) :
    Terminates depth fun fuel => Eval.inspect view >>= later fuel := by
  intro machine loopless same
  exact rest machine.heap loopless machine loopless same

theorem discard {step : Nat → Eval α} (first : Terminates depth step) :
    Terminates depth fun fuel => Functor.discard (step fuel) :=
  first.bind fun _ => pure ()

theorem orFault (line : Nat) (result : Except RuntimeFault α) :
    Terminates depth fun _ => Eval.orFault line result := by
  cases result with
  | ok value => exact pure value
  | error reason => exact fault reason line

theorem orElseFault (line : Nat) (reason : RuntimeFault) (result : Option α) :
    Terminates depth fun _ => Eval.orElseFault line reason result := by
  cases result with
  | some value => exact pure value
  | none => exact fault reason line

theorem currentScope : Terminates depth fun _ => Eval.currentScope :=
  plain fun _ => ⟨rfl, rfl, rfl⟩

theorem newScope (bindings : Bindings Value) (enclosing : ScopeRef) :
    Terminates depth fun _ => Eval.newScope bindings enclosing :=
  plain fun _ => ⟨rfl, rfl, rfl⟩

theorem defineIn (scope : ScopeRef) (name : String) (value : Value) :
    Terminates depth fun _ => Eval.defineIn scope name value :=
  plain fun _ => ⟨rfl, rfl, rfl⟩

theorem define (name : String) (value : Value) :
    Terminates depth fun _ => Eval.define name value :=
  plain fun _ => ⟨rfl, rfl, rfl⟩

theorem newFunction (closure : Closure) (code : closure.routine.Loopless) :
    Terminates depth fun _ => Eval.newFunction closure := by
  intro machine loopless same
  refine ⟨0, Eval.newFunction closure machine, ?_, fun _ _ => rfl⟩
  exact ⟨loopless.newFunction code, same⟩

theorem newClass {object : ClassObject}
    (code : ∀ name method, object.methods.find? name = some method → method.routine.Loopless) :
    Terminates depth fun _ => Eval.newClass object := by
  intro machine loopless same
  refine ⟨0, Eval.newClass object machine, ?_, fun _ _ => rfl⟩
  exact ⟨loopless.newClass code, same⟩

theorem printLine (text : String) : Terminates depth fun _ => Eval.printLine text := by
  apply plain
  intro machine
  unfold Eval.printLine
  dsimp only
  cases machine.sink.admits (text ++ "\n").toUTF8
  · exact nofun
  · exact ⟨rfl, rfl, rfl⟩

theorem within (scope : ScopeRef) {step : Nat → Eval α} (inside : Terminates depth step) :
    Terminates depth fun fuel => Eval.within scope (step fuel) := by
  intro machine loopless same
  obtain ⟨enough, result, finished, settled⟩ := inside { machine with scope } loopless same
  unfold Eval.within
  cases result with
  | ok value after =>
    refine ⟨enough, .ok value { after with scope := machine.scope }, finished, fun fuel granted => ?_⟩
    simp only [settled fuel granted]
  | error reason after =>
    refine ⟨enough, .error reason { after with scope := machine.scope }, finished,
      fun fuel granted => ?_⟩
    simp only [settled fuel granted]

/-- There is room for the call, or else it is not made. -/
theorem deeper (line : Nat) {step : Nat → Eval α}
    (inside : depth < maxDepth → Terminates (depth + 1) step) :
    Terminates depth fun fuel => Eval.deeper line (step fuel) := by
  intro machine loopless same
  unfold Eval.deeper
  by_cases room : machine.depth < maxDepth
  · obtain ⟨enough, result, finished, settled⟩ :=
      inside (same ▸ room) { machine with depth := machine.depth + 1 } loopless (by simp [same])
    simp only [if_pos room]
    cases result with
    | ok value after =>
      refine ⟨enough, .ok value { after with depth := machine.depth }, ⟨finished.1, same⟩,
        fun fuel granted => ?_⟩
      simp only [settled fuel granted]
    | error reason after =>
      refine ⟨enough, .error reason { after with depth := machine.depth }, finished,
        fun fuel granted => ?_⟩
      simp only [settled fuel granted]
  · simp only [if_neg room]
    exact fault .stackOverflow line machine loopless same

theorem readName (setting : Setting) (id : NodeId) (name : Name) :
    Terminates depth fun _ => Eval.readName setting id name := by
  apply currentScope.bind
  intro scope
  apply inspect
  intro heap _
  exact orElseFault _ _ _

theorem targetScope (setting : Setting) (id : NodeId) (name : Name) :
    Terminates depth fun _ => Eval.targetScope setting id name := by
  apply currentScope.bind
  intro scope
  apply inspect
  intro heap _
  exact orElseFault _ _ _

/-- A method without loops is still so when it is bound. -/
theorem bindMethod {method : Closure} (receiver : InstanceRef) (code : method.routine.Loopless)
    {later : Nat → Closure → Eval β}
    (rest : ∀ bound : Closure, bound.routine.Loopless → Terminates depth fun fuel => later fuel bound) :
    Terminates depth fun fuel => Eval.bindMethod method receiver >>= later fuel := by
  unfold Eval.bindMethod
  simp only [bind_assoc, pure_bind]
  exact (newScope _ _).bind fun scope => rest _ code

theorem newBound {method : Closure} (receiver : InstanceRef) (code : method.routine.Loopless) :
    Terminates depth fun _ => Eval.bindMethod method receiver >>= Eval.newFunction :=
  bindMethod receiver code newFunction

theorem readProperty (receiver : InstanceRef) (name : Name) :
    Terminates depth fun _ => Eval.readProperty receiver name := by
  apply inspect
  intro heap _
  cases heap.field? receiver name.text with
  | some value => exact pure value
  | none =>
    apply inspect
    intro heap loopless
    cases found : heap.method? (heap.instanceAt receiver).owner name.text with
    | some method => exact newBound receiver (loopless.method? found)
    | none => exact fault _ _

theorem readSuper (setting : Setting) (id : NodeId) (line : Nat) (method : Name) :
    Terminates depth fun _ => Eval.readSuper setting id line method := by
  apply (orElseFault _ _ _).bind
  intro distance
  apply currentScope.bind
  intro scope
  apply inspect
  intro heap _
  split
  · apply inspect
    intro heap _
    split
    · apply inspect
      intro heap loopless
      split
      · rename_i found
        exact newBound _ (loopless.method? found)
      · exact fault _ _
    · exact fault _ _
  · exact fault _ _

theorem readSuperclass (setting : Setting) (superclass : Superclass) :
    Terminates depth fun _ => Eval.readSuperclass setting superclass := by
  apply (readName _ _ _).bind
  intro value
  split
  · exact pure _
  · exact fault _ _

theorem settleClass {methods : List Routine} (code : Routine.AllLoopless methods) (name : String)
    (parent : Option ClassRef) (scope : ScopeRef) :
    Terminates depth fun _ =>
      Eval.newClass ⟨name, parent, methodTable scope methods⟩ >>= Eval.define name := by
  refine (newClass ?_).bind fun created => define name created
  intro wanted method found
  exact code.of_mem (mem_of_find?_methodTable found).1

theorem declareClass (setting : Setting) (name : Name) (superclass : Option Superclass)
    {methods : List Routine} (code : Routine.AllLoopless methods) :
    Terminates depth fun _ => Eval.declareClass setting name superclass methods := by
  cases superclass with
  | none => exact currentScope.bind fun scope => settleClass code _ _ _
  | some superclass =>
    apply (readSuperclass setting superclass).bind
    intro parent
    apply currentScope.bind
    intro scope
    exact (newScope _ _).bind fun scope => settleClass code _ _ _

theorem callResult (closure : Closure) (flow : Flow) :
    Terminates depth fun _ => Eval.callResult closure flow := by
  by_cases initializer : closure.isInitializer
  · simp only [Eval.callResult, if_pos initializer]
    apply inspect
    intro heap _
    exact pure _
  · simp only [Eval.callResult, if_neg initializer]
    cases flow <;> exact pure _

end Terminates

section Trees

variable {setting : Setting} {depth : Nat}

/-- The calls for which there is room end. -/
def CallsEnd (setting : Setting) (depth : Nat) : Prop :=
  depth < maxDepth → ∀ callee arguments,
    Terminates (depth + 1) fun fuel => call setting fuel callee arguments

mutual

theorem evaluate_terminates (calls : CallsEnd setting depth) : (tree : Expr) →
    Terminates depth fun fuel => evaluate setting fuel tree
  | .literal value => .succ (.pure _)
  | .grouping inner => .succ (evaluate_terminates calls inner)
  | .unary op line operand =>
    .succ ((evaluate_terminates calls operand).bind fun _ => .orFault _ _)
  | .binary op line left right =>
    .succ ((evaluate_terminates calls left).bind fun _ =>
      (evaluate_terminates calls right).bind fun _ => .orFault _ _)
  | .logical op line left right => by
    apply Terminates.succ
    apply (evaluate_terminates calls left).bind
    intro value
    split
    · exact .pure _
    · exact evaluate_terminates calls right
  | .read id name => .succ (.readName _ _ _)
  | .assign id name value =>
    .succ ((evaluate_terminates calls value).bind fun _ =>
      (Terminates.targetScope _ _ _).bind fun _ => (Terminates.defineIn _ _ _).bind fun _ => .pure _)
  | .call callee line arguments => by
    apply Terminates.succ
    apply (evaluate_terminates calls callee).bind
    intro value
    cases value with
    | callable callee =>
      apply (evaluateAll_terminates calls arguments).bind
      intro values
      apply Terminates.inspect
      intro heap _
      split
      · exact .deeper line fun room => calls room callee values
      · exact .fault _ _
    | _ => exact .fault _ _
  | .get object name => by
    apply Terminates.succ
    apply (evaluate_terminates calls object).bind
    intro value
    cases value with
    | object receiver => exact .readProperty receiver name
    | _ => exact .fault _ _
  | .set object name value => by
    apply Terminates.succ
    apply (evaluate_terminates calls object).bind
    intro held
    cases held with
    | object receiver =>
      apply (evaluate_terminates calls value).bind
      intro result
      have written : Terminates depth fun _ => setField receiver name.text result :=
        .plain fun _ => ⟨rfl, rfl, rfl⟩
      exact written.bind fun _ => .pure _
    | _ => exact .fault _ _
  | .this id line => .succ (.readName _ _ _)
  | .super id line method => .succ (.readSuper _ _ _ _)

theorem evaluateAll_terminates (calls : CallsEnd setting depth) : (trees : List Expr) →
    Terminates depth fun fuel => evaluateAll setting fuel trees
  | [] => .succ (.pure _)
  | first :: rest =>
    .succ ((evaluate_terminates calls first).bind fun _ =>
      (evaluateAll_terminates calls rest).bind fun _ => .pure _)

end

mutual

theorem execute_terminates (calls : CallsEnd setting depth) : (tree : Stmt) → tree.Loopless →
    Terminates depth fun fuel => execute setting fuel tree
  | .expression value, _ =>
    .succ ((evaluate_terminates calls value).discard.bind fun _ => .pure _)
  | .print value, _ => by
    apply Terminates.succ
    apply (evaluate_terminates calls value).bind
    intro value
    apply Terminates.inspect
    intro heap _
    exact (Terminates.printLine _).bind fun _ => .pure _
  | .declareVar name none, _ => .succ ((Terminates.define _ _).bind fun _ => .pure _)
  | .declareVar name (some initializer), _ =>
    .succ ((evaluate_terminates calls initializer).bind fun _ =>
      (Terminates.define _ _).bind fun _ => .pure _)
  | .block body, loopless =>
    .succ (Terminates.currentScope.bind fun scope => (Terminates.newScope _ _).bind fun inner =>
      .within inner (executeAll_terminates calls body loopless))
  | .ifThen condition consequent, loopless => by
    apply Terminates.succ
    apply (evaluate_terminates calls condition).bind
    intro value
    split
    · exact execute_terminates calls consequent loopless
    · exact .pure _
  | .ifElse condition consequent alternative, loopless => by
    apply Terminates.succ
    apply (evaluate_terminates calls condition).bind
    intro value
    split
    · exact execute_terminates calls consequent loopless.1
    · exact execute_terminates calls alternative loopless.2
  | .while _ _, loopless => loopless.elim
  | .declareFunction routine, loopless =>
    .succ (Terminates.currentScope.bind fun scope =>
      (Terminates.newFunction ⟨routine, scope, false⟩ loopless).bind fun _ =>
        (Terminates.define _ _).bind fun _ => .pure _)
  | .return line none, _ => .succ (.pure _)
  | .return line (some value), _ =>
    .succ ((evaluate_terminates calls value).bind fun _ => .pure _)
  | .declareClass name superclass methods, loopless =>
    .succ ((Terminates.declareClass setting name superclass loopless).bind fun _ => .pure _)

theorem executeAll_terminates (calls : CallsEnd setting depth) : (trees : List Stmt) →
    Stmt.AllLoopless trees →
    Terminates depth fun fuel => executeAll setting fuel trees
  | [], _ => .succ (.pure _)
  | first :: rest, loopless => by
    apply Terminates.succ
    apply (execute_terminates calls first loopless.1).bind
    intro flow
    cases flow with
    | normal => exact executeAll_terminates calls rest loopless.2
    | returned value => exact .pure _

end

variable (calls : CallsEnd setting depth)

include calls

theorem invoke_terminates {closure : Closure} (code : closure.routine.Loopless)
    (arguments : List Value) : Terminates depth fun fuel => invoke setting fuel closure arguments := by
  apply Terminates.succ
  apply (Terminates.newScope _ _).bind
  intro scope
  have body := executeAll_terminates calls closure.routine.body (Routine.loopless_iff.mp code)
  apply (Terminates.within scope body).bind
  intro flow
  exact .callResult closure flow

theorem call_terminates (callee : Callable) (arguments : List Value) :
    Terminates depth fun fuel => call setting fuel callee arguments := by
  apply Terminates.succ
  cases callee with
  | clock =>
    have read : Terminates depth fun _ => readClock setting := .plain fun _ => ⟨rfl, rfl, rfl⟩
    exact read
  | ofFunction ref =>
    apply Terminates.inspect
    intro heap loopless
    exact invoke_terminates calls (loopless.functions ref) arguments
  | ofClass ref =>
    have created : Terminates depth fun _ => newInstance ref := .plain fun _ => ⟨rfl, rfl, rfl⟩
    apply created.bind
    intro instanceRef
    apply Terminates.inspect
    intro heap loopless
    cases found : heap.method? ref initializerName with
    | none => exact .pure _
    | some method =>
      apply Terminates.bindMethod instanceRef (loopless.method? found)
      intro bound code
      exact (invoke_terminates calls code arguments).discard.bind fun _ => .pure _

end Trees

/-- Calls end however many are in progress: where there is no more room none is made, and otherwise
there is less room in what it runs. -/
theorem calls_end (setting : Setting) (room depth : Nat) (left : maxDepth ≤ depth + room) :
    CallsEnd setting depth := by
  induction room generalizing depth with
  | zero =>
    intro possible
    omega
  | succ room ih =>
    intro possible callee arguments
    exact call_terminates (ih (depth + 1) (by omega)) callee arguments

/-- Statements without loops end in whatever they do. -/
theorem interpret_terminates (setting : Setting) (depth : Nat) (loopless : Stmt.AllLoopless body) :
    Terminates depth fun fuel => interpret setting fuel body := by
  have calls := calls_end setting maxDepth depth (Nat.le_add_left _ _)
  induction body with
  | nil => exact .pure ()
  | cons first rest ih =>
    exact (execute_terminates calls first loopless.1).discard.bind fun _ => ih loopless.2

end Eval

end Lox
