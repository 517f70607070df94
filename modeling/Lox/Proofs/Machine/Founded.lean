import Lox.Proofs.Heap.Founded
import Lox.Proofs.Machine.Regime

/-! Single steps on machines of which the heap is founded. They give what the heap contains. -/

namespace Lox

namespace Machine

/-- The heap is founded and contains the present scope. -/
structure Founded (machine : Machine) : Prop where
  heap : machine.heap.Founded
  scope : machine.scope.index < machine.heap.scopes.cells.size

structure Later (machine after : Machine) : Prop where
  heap : machine.heap.Later after.heap
  stays : machine.heap.Stays after.heap
  scope : after.scope = machine.scope

namespace Later

theorem refl (machine : Machine) : machine.Later machine :=
  ⟨.refl _, .refl _, rfl⟩

theorem trans (first : Later one two) (second : Later two three) : Later one three :=
  ⟨first.heap.trans second.heap, first.stays.trans second.stays, second.scope.trans first.scope⟩

end Later

def founding : Regime Machine where
  good := Founded
  later := Later
  refl := Later.refl
  trans := Later.trans

theorem founded_start (capacity : Option Nat) : (start capacity).Founded :=
  ⟨Heap.founded_start, Nat.zero_lt_one⟩

end Machine

/-- The heap contains what a closure is called with, however many values these are. -/
def Value.AllKnown (heap : Heap) (values : List Value) : Prop :=
  ∀ value ∈ values, value.Known heap

theorem Value.AllKnown.later {heap heap' : Heap} {values : List Value}
    (known : AllKnown heap values) (later : heap.Later heap') : AllKnown heap' values :=
  fun value member => (known value member).later later

namespace Eval

variable {α β : Type} {machine after : Machine} {post : Heap → α → Prop} {setting : Setting}

/-- A step from a founded machine, with what is known of the heap and the value with which it ends. -/
def Founds (step : Eval α) (machine : Machine) (post : Heap → α → Prop) : Prop :=
  Machine.founding.Runs step machine fun after value => post after.heap value

namespace Founds

theorem bind {mid : Heap → α → Prop} {post : Heap → β → Prop} {step : Eval α} {next : α → Eval β}
    (first : Founds step machine mid)
    (rest : ∀ value after, after.Founded → machine.Later after → mid after.heap value →
      Founds (next value) after post) : Founds (step >>= next) machine post :=
  Regime.Runs.bind first rest

theorem weaken {post' : Heap → α → Prop} {step : Eval α} (founds : Founds step machine post)
    (implies : ∀ heap value, post heap value → post' heap value) : Founds step machine post' :=
  Regime.Runs.weaken founds fun after => implies after.heap

variable (founded : machine.Founded)

include founded

theorem changed {step : Eval α} (ran : step machine = .ok value after) (heap : after.heap.Founded)
    (later : machine.heap.Later after.heap) (stays : machine.heap.Stays after.heap)
    (scope : after.scope = machine.scope) (held : post after.heap value) :
    Founds step machine post :=
  .ok ran ⟨heap, scope ▸ (stays.links founded.scope).1⟩ ⟨later, stays, scope⟩ held

/-- A step that changes nothing in the heap. -/
theorem still {step : Eval α} (ran : step machine = .ok value after)
    (heap : after.heap = machine.heap) (scope : after.scope = machine.scope)
    (held : post machine.heap value) : Founds step machine post :=
  changed founded ran (heap ▸ founded.heap) (heap ▸ .refl _) (heap ▸ .refl _) scope (heap ▸ held)

theorem failed {step : Eval α} (ran : step machine = .error reason after)
    (heap : after.heap = machine.heap) (scope : after.scope = machine.scope) :
    Founds step machine post :=
  .error ran ⟨heap ▸ founded.heap, heap ▸ scope ▸ founded.scope⟩
    ⟨heap ▸ .refl _, heap ▸ .refl _, scope⟩

theorem pure (held : post machine.heap value) : Founds (Pure.pure value) machine post :=
  still founded rfl rfl rfl held

theorem fault (reason : RuntimeFault) (line : Nat) : Founds (Eval.fault reason line) machine post :=
  failed founded rfl rfl rfl

theorem orFault {result : Except RuntimeFault α} (line : Nat)
    (held : ∀ value, result = .ok value → post machine.heap value) :
    Founds (Eval.orFault line result) machine post := by
  cases result with
  | ok value => exact pure founded (held value rfl)
  | error reason => exact fault founded reason line

theorem orElseFault {found : Option α} (line : Nat) (reason : RuntimeFault)
    (held : ∀ value, found = some value → post machine.heap value) :
    Founds (Eval.orElseFault line reason found) machine post := by
  cases found with
  | some value => exact pure founded (held value rfl)
  | none => exact fault founded reason line

omit founded in
theorem inspected {look : Heap → β} {next : β → Eval α}
    (rest : Founds (next (look machine.heap)) machine post) :
    Founds (Eval.inspect look >>= next) machine post :=
  rest

omit founded in
theorem atScope {next : ScopeRef → Eval α} (rest : Founds (next machine.scope) machine post) :
    Founds (Eval.currentScope >>= next) machine post :=
  rest

theorem readName (id : NodeId) (name : Name) :
    Founds (Eval.readName setting id name) machine fun heap value => value.Known heap := by
  rcases readName_cases founded.heap.closed setting id name with ⟨value, ran, known⟩ | ⟨reason, ran⟩
  · exact still founded ran rfl rfl known
  · exact failed founded ran rfl rfl

theorem targetScope (id : NodeId) (name : Name) :
    Founds (Eval.targetScope setting id name) machine fun _ _ => True := by
  rcases targetScope_cases setting id name machine with ⟨scope, ran⟩ | ⟨reason, ran⟩
  · exact still founded ran rfl rfl trivial
  · exact failed founded ran rfl rfl

theorem readClock : Founds (Eval.readClock setting) machine fun heap value => value.Known heap :=
  still founded rfl rfl rfl trivial

theorem printLine (text : String) : Founds (Eval.printLine text) machine fun _ _ => True := by
  by_cases admitted : machine.sink.admits (text ++ "\n").toUTF8
  · have printed : Eval.printLine text machine = .ok () { machine with
        sink := machine.sink.write (text ++ "\n").toUTF8 } := if_pos admitted
    exact still founded printed rfl rfl trivial
  · have printed : Eval.printLine text machine = .error .sinkFull { machine with
        sink := machine.sink.write (text ++ "\n").toUTF8 } := if_neg admitted
    exact failed founded printed rfl rfl

theorem defineIn {name : Name} {value : Value} (plain : name.Plain) (known : value.Known machine.heap)
    (scope : ScopeRef) : Founds (Eval.defineIn scope name.text value) machine fun _ _ => True :=
  changed founded rfl (founded.heap.define scope plain known)
    (Heap.later_define _ _ _ ⟨plain.ne_this, plain.ne_super⟩) (.define ..) rfl trivial

theorem define {name : Name} {value : Value} (plain : name.Plain) (known : value.Known machine.heap) :
    Founds (Eval.define name.text value) machine fun _ _ => True :=
  atScope (defineIn founded plain known _)

theorem setField {value : Value} (known : value.Known machine.heap) (receiver : InstanceRef)
    (name : String) : Founds (Eval.setField receiver name value) machine fun _ _ => True :=
  changed founded rfl (founded.heap.setField receiver name known) (Heap.later_setField ..)
    (.setField ..) rfl trivial

theorem newScope {bindings : Bindings Value} {enclosing : ScopeRef}
    (inside : enclosing.index < machine.heap.scopes.cells.size)
    (known : ∀ name value, bindings.find? name = some value → value.Known machine.heap) :
    Founds (Eval.newScope bindings enclosing) machine fun heap scope =>
      scope.index < heap.scopes.cells.size ∧ heap.scopes.enclosing? scope = some enclosing ∧
        (∀ name, heap.scopes.valueIn? scope name = bindings.find? name) ∧
        heap.classes = machine.heap.classes := by
  refine changed founded rfl (founded.heap.newScope inside known) (Heap.later_newScope ..)
    (.newScope ..) rfl ⟨by simp [Scopes.push, Scopes.next], ?_, ?_, rfl⟩
  · simp [Scopes.enclosing?_push]
  · simp [Scopes.valueIn?_push]

/-- A new scope for one of the names that classes bind. -/
theorem newScope_single {enclosing : ScopeRef}
    (inside : enclosing.index < machine.heap.scopes.cells.size) (name : String) (value : Value)
    (known : value.Known machine.heap) :
    Founds (Eval.newScope (Bindings.empty.insert name value) enclosing) machine fun heap scope =>
      scope.index < heap.scopes.cells.size ∧ heap.scopes.enclosing? scope = some enclosing ∧
        heap.scopes.valueIn? scope name = some value ∧ heap.classes = machine.heap.classes := by
  refine (newScope founded inside ?_).weaken ?_
  · intro wanted held found
    rw [Bindings.find?_insert] at found
    split at found
    · cases found
      exact known
    · cases found
  · rintro heap scope ⟨inside, link, bound, same⟩
    refine ⟨inside, link, ?_, same⟩
    rw [bound, Bindings.find?_insert, if_pos rfl]

theorem newFunction {closure : Closure} (ready : machine.heap.Ready closure) :
    Founds (Eval.newFunction closure) machine fun heap value => value.Known heap :=
  changed founded rfl (founded.heap.newFunction ready) (Heap.later_newFunction ..)
    (.newFunction ..) rfl (by simp [Value.Known])

theorem newClass {object : ClassObject}
    (known : ∀ parent ∈ object.superclass, parent.index < machine.heap.classes.size)
    (methods : ∀ name method, object.methods.find? name = some method →
      machine.heap.Method name method) :
    Founds (Eval.newClass object) machine fun heap value => value.Known heap :=
  changed founded rfl (founded.heap.newClass known methods) (Heap.later_newClass ..)
    (.newClass ..) rfl (by simp [Value.Known])

theorem newInstance {owner : ClassRef} (known : owner.index < machine.heap.classes.size) :
    Founds (Eval.newInstance owner) machine fun heap created =>
      created.index < heap.instances.size :=
  changed founded rfl (founded.heap.newInstance known) (Heap.later_newInstance ..)
    (.newInstance ..) rfl (by simp)

/-- A method that a class has or inherits can be called once it is bound. -/
theorem bindMethod {ref : ClassRef} {method : Closure} {receiver : InstanceRef}
    (found : machine.heap.method? ref name = some method)
    (known : receiver.index < machine.heap.instances.size) :
    Founds (Eval.bindMethod method receiver) machine fun heap closure => heap.Ready closure := by
  obtain ⟨declared, owner, owned, own⟩ := founded.heap.method? found
  apply (newScope_single founded declared.scope "this" (.object receiver) known).bind
  rintro scope after founded later ⟨inside, link, this, classes⟩
  refine pure founded ⟨inside, declared.regular, fun _ => ⟨receiver, owner, method, ?_, ?_, ?_⟩⟩
  · rw [classes]
    exact owned
  · rw [later.heap.classAt owned, declared.named]
    exact own
  · exact ⟨rfl, rfl, link, this⟩

theorem newBound {ref : ClassRef} {method : Closure} {receiver : InstanceRef}
    (found : machine.heap.method? ref name = some method)
    (known : receiver.index < machine.heap.instances.size) :
    Founds (Eval.bindMethod method receiver >>= Eval.newFunction) machine
      fun heap value => value.Known heap := by
  apply (bindMethod founded found known).bind
  intro closure after founded _ ready
  exact newFunction founded ready

theorem readProperty {receiver : InstanceRef} (known : receiver.index < machine.heap.instances.size)
    (name : Name) :
    Founds (Eval.readProperty receiver name) machine fun heap value => value.Known heap := by
  apply inspected
  cases field : machine.heap.field? receiver name.text with
  | some value => exact pure founded (founded.heap.closed.fields field)
  | none =>
    apply inspected
    cases found : machine.heap.method? (machine.heap.instanceAt receiver).owner name.text with
    | some method => exact newBound founded found known
    | none => exact fault founded _ _

theorem readSuper (id : NodeId) (line : Nat) (method : Name) :
    Founds (Eval.readSuper setting id line method) machine fun heap value => value.Known heap := by
  have entry : Founds (Eval.orElseFault line .unresolvedSuper setting.distances[id]?) machine
      fun _ _ => True := orElseFault founded line _ fun _ _ => trivial
  apply entry.bind
  intro distance after founded _ _
  apply atScope
  apply inspected
  split
  · rename_i superclass _
    apply inspected
    split
    · rename_i receiver this
      apply inspected
      cases found : after.heap.method? superclass method.text with
      | some found' =>
        exact newBound founded found (founded.heap.closed.known_of_lookupAt? this)
      | none => exact fault founded _ _
    · exact fault founded _ _
  · exact fault founded _ _

theorem readSuperclass (superclass : Superclass) :
    Founds (Eval.readSuperclass setting superclass) machine fun heap parent =>
      parent.index < heap.classes.size := by
  apply (readName founded _ _).bind
  intro value after founded _ known
  split
  · exact pure founded known
  · exact fault founded _ _

theorem settleClass {name : Name} {parent : Option ClassRef} {scope : ScopeRef}
    {methods : List Routine} (plain : name.Plain) (regular : Routine.AllRegular methods)
    (inside : scope.index < machine.heap.scopes.cells.size)
    (known : ∀ ref ∈ parent, ref.index < machine.heap.classes.size) :
    Founds (Eval.newClass ⟨name.text, parent, Eval.methodTable scope methods⟩ >>=
      Eval.define name.text) machine fun _ _ => True := by
  have declared (wanted : String) (method : Closure)
      (found : (Eval.methodTable scope methods).find? wanted = some method) :
      machine.heap.Method wanted method := by
    have owned := mem_of_find?_methodTable found
    rw [find?_methodTable, Option.map_eq_some_iff] at found
    obtain ⟨routine, last, rfl⟩ := found
    have same : routine.name.text = wanted := by simpa using List.find?_some last
    exact ⟨inside, regular.of_mem owned.1, same, by simp only [same]⟩
  apply (newClass founded known declared).bind
  intro value after founded _ known
  exact define founded plain known

theorem declareClass {name : Name} {superclass : Option Superclass} {methods : List Routine}
    (plain : name.Plain) (regular : Routine.AllRegular methods) :
    Founds (Eval.declareClass setting name superclass methods) machine fun _ _ => True := by
  cases superclass with
  | none => exact atScope (settleClass founded plain regular founded.scope nofun)
  | some superclass =>
    apply (readSuperclass founded superclass).bind
    intro parent after founded _ known
    apply atScope
    apply (newScope_single founded founded.scope "super" (.callable (.ofClass parent)) known).bind
    rintro scope last founded _ ⟨inside, _, _, same⟩
    refine settleClass founded plain regular inside ?_
    rintro _ ⟨⟩
    exact same ▸ known

theorem activation {closure : Closure} {arguments : List Value} (ready : machine.heap.Ready closure)
    (known : Value.AllKnown machine.heap arguments) :
    Founds (Eval.activation closure arguments) machine fun heap scope =>
      scope.index < heap.scopes.cells.size := by
  refine (newScope founded ready.scope ?_).weaken fun _ _ made => made.1
  intro name value found
  rw [Bindings.find?_ofList_last] at found
  have member := List.mem_reverse.mp (Bindings.mem_of_findEntry found)
  exact known value (List.of_mem_zip member).2

theorem callResult {flow : Flow} (closure : Closure) (known : flow.Known machine.heap) :
    Founds (Eval.callResult closure flow) machine fun heap value => value.Known heap := by
  unfold Eval.callResult
  split
  · apply inspected
    apply pure founded
    cases found : machine.heap.scopes.valueIn? closure.scope "this" with
    | none => exact trivial
    | some value => exact founded.heap.closed.bound found
  · cases flow with
    | normal => exact pure founded trivial
    | returned value => exact pure founded known

section Composed

theorem assign {name : Name} {value : Value} (plain : name.Plain) (known : value.Known machine.heap)
    (id : NodeId) :
    Founds (Eval.targetScope setting id name >>= fun scope =>
      Eval.defineIn scope name.text value >>= fun _ => return value) machine
      fun heap value => value.Known heap := by
  apply (targetScope founded id name).bind
  intro scope after founded later _
  have known := known.later later.heap
  apply (defineIn founded plain known scope).bind
  intro _ last founded later _
  exact pure founded (known.later later.heap)

theorem assignField {value : Value} (known : value.Known machine.heap) (receiver : InstanceRef)
    (name : String) :
    Founds (Eval.setField receiver name value >>= fun _ => return value) machine
      fun heap value => value.Known heap := by
  apply (setField founded known receiver name).bind
  intro _ after founded later _
  exact pure founded (known.later later.heap)

omit founded in
theorem normally {step : Eval Unit} (founds : Founds step machine fun _ _ => True) :
    Founds (step >>= fun _ => return Flow.normal) machine fun heap flow => flow.Known heap := by
  apply founds.bind
  intro _ after founded _ _
  exact pure founded trivial

theorem declareFunction {routine : Routine} (plain : routine.name.Plain) (regular : routine.Regular) :
    Founds (Eval.currentScope >>= fun scope => Eval.newFunction ⟨routine, scope, false⟩ >>=
      Eval.define routine.name.text) machine fun _ _ => True := by
  apply atScope
  apply (newFunction founded ⟨founded.scope, regular, fun marked => Bool.noConfusion marked⟩).bind
  intro value after founded _ known
  exact define founded plain known

end Composed

end Founds

end Eval

end Lox
