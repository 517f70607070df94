import Lox.Machine.Evaluate
import Lox.Proofs.Steps
import Lox.Proofs.Tables
import Lox.Proofs.Tree.Alike

/-! Machines whose closures have bodies alike, one of which may have printed before. Steps run
alongside each other if from such machines they end alike in such machines. -/

namespace Lox

variable (pairing : Pairing) (before : ByteArray)

/-- Closures that differ in the labels of their bodies only. -/
structure Closure.Alike (closure other : Closure) : Prop where
  name : closure.routine.name.text = other.routine.name.text
  parameters : closure.routine.parameters.map (·.text) = other.routine.parameters.map (·.text)
  body : Stmt.AllAlike pairing closure.routine.body other.routine.body
  scope : closure.scope = other.scope
  isInitializer : closure.isInitializer = other.isInitializer

structure ClassObject.Alike (object other : ClassObject) : Prop where
  name : object.name = other.name
  superclass : object.superclass = other.superclass
  methods : ∀ name, Option.Rel (Closure.Alike pairing) (object.methods.find? name)
    (other.methods.find? name)

structure Heap.Alike (heap other : Heap) : Prop where
  scopes : heap.scopes = other.scopes
  functionsSize : heap.functions.size = other.functions.size
  closureAt : ∀ ref, Closure.Alike pairing (heap.closureAt ref) (other.closureAt ref)
  classesSize : heap.classes.size = other.classes.size
  classAt : ∀ ref, ClassObject.Alike pairing (heap.classAt ref) (other.classAt ref)
  instances : heap.instances = other.instances

/-- Sinks without a limit, of which the other one has taken some output before. -/
structure Sink.Behind (sink other : Sink) : Prop where
  unlimited : sink.capacity = none
  unlimited' : other.capacity = none
  written : other.written = before ++ sink.written

structure Machine.Alike (machine other : Machine) : Prop where
  heap : Heap.Alike pairing machine.heap other.heap
  scope : machine.scope = other.scope
  depth : machine.depth = other.depth
  sink : Sink.Behind before machine.sink other.sink
  readings : machine.readings = other.readings

inductive Halt.Alike : Halt → Halt → Prop where
  | fault (reason : RuntimeFault) (line : pairing.lines here there) :
      Halt.Alike (.fault ⟨reason, here⟩) (.fault ⟨reason, there⟩)
  | sinkFull : Halt.Alike .sinkFull .sinkFull
  | outOfFuel : Halt.Alike .outOfFuel .outOfFuel

/-- Settings in which identifiers that stand for each other have the same distance. -/
structure Setting.Alike (setting other : Setting) : Prop where
  distances : ∀ id id', pairing.ids id id' → setting.distances[id]? = other.distances[id']?
  clock : setting.clock = other.clock

namespace Eval

variable {α β γ δ : Type}

inductive Ends (related : α → β → Prop) :
    EStateM.Result Halt Machine α → EStateM.Result Halt Machine β → Prop where
  | ok (same : related value value') (after : Machine.Alike pairing before machine machine') :
      Ends related (.ok value machine) (.ok value' machine')
  | error (reason : Halt.Alike pairing cause cause')
      (after : Machine.Alike pairing before machine machine') :
      Ends related (.error cause machine) (.error cause' machine')

def Alongside (related : α → β → Prop) (step : Eval α) (other : Eval β) : Prop :=
  ∀ machine machine', Machine.Alike pairing before machine machine' →
    Ends pairing before related (step machine) (other machine')

end Eval

variable {pairing before}

theorem Machine.Alike.start : Machine.Alike pairing .empty (.start none) (.start none) where
  heap := {
    scopes := rfl
    functionsSize := rfl
    closureAt := fun _ => ⟨rfl, rfl, .nil, rfl, rfl⟩
    classesSize := rfl
    classAt := fun _ => ⟨rfl, rfl, fun _ => .none⟩
    instances := rfl }
  scope := rfl
  depth := rfl
  sink := ⟨rfl, rfl, rfl⟩
  readings := rfl

section Mono

variable {stronger : Pairing} (within : ∀ known, pairing.Within known stronger)

include within

theorem Closure.Alike.mono {closure : Closure} (alike : Closure.Alike pairing closure other) :
    Closure.Alike stronger closure other :=
  { alike with body := alike.body.mono (within _) }

theorem ClassObject.Alike.mono (alike : ClassObject.Alike pairing object other) :
    ClassObject.Alike stronger object other :=
  { alike with methods := fun name => rel_weaken (alike.methods name) fun _ _ => .mono within }

theorem Heap.Alike.mono (alike : Heap.Alike pairing heap other) : Heap.Alike stronger heap other :=
  { alike with
    closureAt := fun ref => (alike.closureAt ref).mono within
    classAt := fun ref => (alike.classAt ref).mono within }

/-- With more pairs machines that are alike stay so. -/
theorem Machine.Alike.mono (alike : Machine.Alike pairing before machine other) :
    Machine.Alike stronger before machine other :=
  { alike with heap := alike.heap.mono within }

end Mono

/-- The output is taken from the one, and what the other has is left. -/
theorem Machine.Alike.take (alike : Machine.Alike pairing before machine other) :
    Machine.Alike pairing (before ++ machine.sink.written)
      { machine with sink := .empty none } other := by
  refine { alike with sink := ⟨rfl, alike.sink.unlimited', ?_⟩ }
  rw [alike.sink.written]
  exact ByteArray.append_empty.symm

namespace Heap.Alike

variable {heap other : Heap} (alike : Heap.Alike pairing heap other)

include alike

theorem instanceAt (ref : InstanceRef) : heap.instanceAt ref = other.instanceAt ref := by
  unfold Heap.instanceAt
  rw [alike.instances]

theorem methodWithin? (name : String) (bound : Nat) (ref : ClassRef) :
    Option.Rel (Closure.Alike pairing) (heap.methodWithin? name bound ref)
      (other.methodWithin? name bound ref) := by
  induction bound generalizing ref with
  | zero => exact .none
  | succ bound ih =>
    have same := alike.classAt ref
    have methods := same.methods name
    unfold Heap.methodWithin?
    rw [same.superclass]
    generalize (heap.classAt ref).methods.find? name = found at methods ⊢
    generalize (other.classAt ref).methods.find? name = found' at methods ⊢
    cases methods with
    | some method => exact .some method
    | none =>
      cases (other.classAt ref).superclass with
      | none => exact .none
      | some parent => exact ih parent

theorem method? (ref : ClassRef) (name : String) :
    Option.Rel (Closure.Alike pairing) (heap.method? ref name) (other.method? ref name) := by
  unfold Heap.method?
  rw [alike.classesSize]
  exact alike.methodWithin? name _ ref

theorem arity (callee : Callable) : heap.arity callee = other.arity callee := by
  have count {closure closure' : Closure} (same : Closure.Alike pairing closure closure') :
      closure.routine.arity = closure'.routine.arity := by
    simpa [Routine.arity] using congrArg List.length same.parameters
  cases callee with
  | clock => rfl
  | ofFunction ref => exact count (alike.closureAt ref)
  | ofClass ref =>
    have method := alike.method? ref initializerName
    simp only [Heap.arity]
    generalize heap.method? ref initializerName = found at method ⊢
    generalize other.method? ref initializerName = found' at method ⊢
    cases method with
    | none => rfl
    | some same => exact count same

theorem display (value : Value) : heap.display value = other.display value := by
  unfold Heap.display
  split <;> simp [(alike.closureAt _).name, (alike.classAt _).name, alike.instanceAt]

end Heap.Alike

namespace Sink.Behind

variable {sink other : Sink} (behind : Sink.Behind before sink other)

include behind

theorem admits (bytes : ByteArray) : sink.admits bytes = other.admits bytes := by
  simp only [Sink.admits, behind.unlimited, behind.unlimited']

theorem write (bytes : ByteArray) : Sink.Behind before (sink.write bytes) (other.write bytes) where
  unlimited := behind.unlimited
  unlimited' := behind.unlimited'
  written := by
    simp only [Sink.write, behind.unlimited, behind.unlimited', behind.written,
      ByteArray.append_assoc]

end Sink.Behind

namespace Eval.Alongside

variable {α β γ δ : Type}

theorem pure {related : α → β → Prop} (same : related value value') :
    Alongside pairing before related (Pure.pure value) (Pure.pure value') :=
  fun _ _ alike => .ok same alike

theorem halt {related : α → β → Prop} (reason : Halt.Alike pairing cause cause') :
    Alongside pairing before related (Eval.halt cause) (Eval.halt cause') :=
  fun _ _ alike => .error reason alike

theorem fault {related : α → β → Prop} (reason : RuntimeFault)
    (line : pairing.lines here there) :
    Alongside pairing before related (Eval.fault reason here) (Eval.fault reason there) :=
  halt (.fault reason line)

theorem bind {related : α → β → Prop} {final : γ → δ → Prop} {step : Eval α} {other : Eval β}
    {later : α → Eval γ} {later' : β → Eval δ}
    (steps : Alongside pairing before related step other)
    (rest : ∀ value value', related value value' →
      Alongside pairing before final (later value) (later' value')) :
    Alongside pairing before final (step >>= later) (other >>= later') := by
  intro machine machine' alike
  have ends := steps machine machine' alike
  rw [bind_apply, bind_apply]
  generalize step machine = result at ends ⊢
  generalize other machine' = result' at ends ⊢
  cases ends with
  | ok same after => exact rest _ _ same _ _ after
  | error reason after => exact .error reason after

/-- A step whose results are equal, before others. -/
theorem bind_eq {final : γ → δ → Prop} {step other : Eval α} {later : α → Eval γ}
    {later' : α → Eval δ} (steps : Alongside pairing before Eq step other)
    (rest : ∀ value, Alongside pairing before final (later value) (later' value)) :
    Alongside pairing before final (step >>= later) (other >>= later') :=
  steps.bind fun _ _ same => same ▸ rest _

theorem discard {related : α → β → Prop} {step : Eval α} {other : Eval β}
    (steps : Alongside pairing before related step other) :
    Alongside pairing before Eq (Functor.discard step) (Functor.discard other) :=
  steps.bind fun _ _ _ => pure rfl

theorem orFault (line : pairing.lines here there) (result : Except RuntimeFault α) :
    Alongside pairing before Eq (Eval.orFault here result) (Eval.orFault there result) := by
  cases result with
  | ok value => exact pure rfl
  | error reason => exact fault reason line

theorem orElseFault (line : pairing.lines here there) (reason : RuntimeFault) (result : Option α) :
    Alongside pairing before Eq (Eval.orElseFault here reason result)
      (Eval.orElseFault there reason result) := by
  cases result with
  | some value => exact pure rfl
  | none => exact fault reason line

theorem inspect (related : α → β → Prop) {view : Heap → α} {view' : Heap → β}
    (same : ∀ heap other, Heap.Alike pairing heap other → related (view heap) (view' other)) :
    Alongside pairing before related (Eval.inspect view) (Eval.inspect view') :=
  fun _ _ alike => .ok (same _ _ alike.heap) alike

theorem currentScope : Alongside pairing before Eq Eval.currentScope Eval.currentScope :=
  fun _ _ alike => .ok alike.scope alike

theorem newScope (bindings : Bindings Value) (enclosing : ScopeRef) :
    Alongside pairing before Eq (Eval.newScope bindings enclosing)
      (Eval.newScope bindings enclosing) := by
  intro machine machine' alike
  refine .ok (congrArg Scopes.next alike.heap.scopes) { alike with heap := ?_ }
  exact { alike.heap with scopes := congrArg (·.push bindings (some enclosing)) alike.heap.scopes }

theorem defineIn (scope : ScopeRef) (name : String) (value : Value) :
    Alongside pairing before Eq (Eval.defineIn scope name value)
      (Eval.defineIn scope name value) := by
  intro machine machine' alike
  refine .ok rfl { alike with heap := ?_ }
  exact { alike.heap with scopes := congrArg (·.define scope name value) alike.heap.scopes }

theorem define (name : String) (value : Value) :
    Alongside pairing before Eq (Eval.define name value) (Eval.define name value) :=
  currentScope.bind_eq fun scope => defineIn scope name value

theorem newFunction {closure : Closure} (same : Closure.Alike pairing closure closure') :
    Alongside pairing before Eq (Eval.newFunction closure) (Eval.newFunction closure') := by
  intro machine machine' alike
  have size := alike.heap.functionsSize
  refine .ok (congrArg (fun size => Value.callable (.ofFunction ⟨size⟩)) size)
    { alike with heap := { alike.heap with functionsSize := ?_, closureAt := fun ref => ?_ } }
  · simp [size]
  · have old := alike.heap.closureAt ref
    unfold Heap.closureAt at old ⊢
    rw [getD_push, getD_push, size]
    split
    · exact same
    · exact old

theorem newClass (same : ClassObject.Alike pairing object object') :
    Alongside pairing before Eq (Eval.newClass object) (Eval.newClass object') := by
  intro machine machine' alike
  have size := alike.heap.classesSize
  refine .ok (congrArg (fun size => Value.callable (.ofClass ⟨size⟩)) size)
    { alike with heap := { alike.heap with classesSize := ?_, classAt := fun ref => ?_ } }
  · simp [size]
  · have old := alike.heap.classAt ref
    unfold Heap.classAt at old ⊢
    rw [getD_push, getD_push, size]
    split
    · exact same
    · exact old

theorem newInstance (owner : ClassRef) :
    Alongside pairing before Eq (Eval.newInstance owner) (Eval.newInstance owner) := by
  intro machine machine' alike
  refine .ok (congrArg (fun held => InstanceRef.mk held.size) alike.heap.instances)
    { alike with heap := ?_ }
  exact { alike.heap with instances := congrArg (·.push ⟨owner, .empty⟩) alike.heap.instances }

theorem setField (ref : InstanceRef) (name : String) (value : Value) :
    Alongside pairing before Eq (Eval.setField ref name value) (Eval.setField ref name value) := by
  intro machine machine' alike
  refine .ok rfl { alike with heap := ?_ }
  let write := fun held : Array Instance => held.modify ref.index fun object =>
    { object with fields := object.fields.insert name value }
  exact { alike.heap with instances := congrArg write alike.heap.instances }

theorem readClock (alike : Setting.Alike pairing setting setting') :
    Alongside pairing before Eq (Eval.readClock setting) (Eval.readClock setting') := by
  intro machine machine' same
  refine .ok ?_ { same with readings := congrArg (· + 1) same.readings }
  rw [alike.clock, same.readings]

theorem printLine (text : String) :
    Alongside pairing before Eq (Eval.printLine text) (Eval.printLine text) := by
  intro machine machine' alike
  have after : Machine.Alike pairing before
      { machine with sink := machine.sink.write (text ++ "\n").toUTF8 }
      { machine' with sink := machine'.sink.write (text ++ "\n").toUTF8 } :=
    { alike with sink := alike.sink.write _ }
  unfold Eval.printLine
  dsimp only
  rw [alike.sink.admits]
  split
  · exact .ok rfl after
  · exact .error .sinkFull after

theorem within (scope : ScopeRef) {related : α → β → Prop} {step : Eval α} {other : Eval β}
    (steps : Alongside pairing before related step other) :
    Alongside pairing before related (Eval.within scope step) (Eval.within scope other) := by
  intro machine machine' alike
  have ends := steps { machine with scope } { machine' with scope } { alike with scope := rfl }
  unfold Eval.within
  generalize step { machine with scope } = result at ends ⊢
  generalize other { machine' with scope } = result' at ends ⊢
  cases ends with
  | ok same after => exact .ok same { after with scope := alike.scope }
  | error reason after => exact .error reason { after with scope := alike.scope }

theorem deeper (line : pairing.lines here there) {related : α → β → Prop} {step : Eval α}
    {other : Eval β} (steps : Alongside pairing before related step other) :
    Alongside pairing before related (Eval.deeper here step) (Eval.deeper there other) := by
  intro machine machine' alike
  have ends := steps { machine with depth := machine.depth + 1 }
    { machine' with depth := machine'.depth + 1 }
    { alike with depth := congrArg (· + 1) alike.depth }
  unfold Eval.deeper
  rw [alike.depth] at ends ⊢
  dsimp only
  split
  · generalize step _ = result at ends ⊢
    generalize other _ = result' at ends ⊢
    cases ends with
    | ok same after => exact .ok same { after with depth := rfl }
    | error reason after => exact .error reason { after with depth := rfl }
  · exact fault .stackOverflow line _ _ alike

end Eval.Alongside

end Lox
