import Lox.Proofs.Dispatch.Runs
import Lox.Proofs.Machine.Names

/-! Single steps from sound journals. -/

namespace Lox

theorem UnaryOp.known_of_apply (result : UnaryOp.apply op operand = .ok value) :
    value.Known heap := by
  unfold UnaryOp.apply at result
  split at result <;> cases result <;> exact trivial

theorem BinaryOp.known_of_apply (result : BinaryOp.apply op left right = .ok value) :
    value.Known heap := by
  unfold BinaryOp.apply at result
  split at result <;> cases result <;> exact trivial

theorem Value.known_ofLiteral (literal : Literal) (heap : Heap) :
    (Value.ofLiteral literal).Known heap := by
  cases literal <;> exact trivial

namespace Heap.Closed

variable {heap : Heap} (closed : heap.Closed)

include closed

theorem known_of_lookupAt? (found : heap.scopes.lookupAt? scope distance name = some value) :
    value.Known heap := by
  obtain ⟨target, _, bound⟩ := Option.bind_eq_some_iff.mp found
  exact closed.bound bound

theorem known_of_lookup? (found : heap.scopes.lookup? scope name = some value) :
    value.Known heap := by
  obtain ⟨target, _, bound⟩ := Option.bind_eq_some_iff.mp found
  exact closed.bound bound

end Heap.Closed

namespace Eval

variable {α β : Type} {machine after : Machine}

/-- A name has a value that the heap contains, or none. -/
theorem readName_cases (closed : machine.heap.Closed) (setting : Setting) (id : NodeId)
    (name : Name) :
    (∃ value, readName setting id name machine = .ok value machine ∧ value.Known machine.heap) ∨
      ∃ reason, readName setting id name machine = .error reason machine := by
  cases entry : setting.distances[id]? with
  | some distance =>
    rw [readName_local name machine entry]
    rcases orElseFault_cases name.line (.undefinedVariable name.text) _ machine with
      ⟨value, found, ran⟩ | failed
    · exact .inl ⟨value, ran, closed.known_of_lookupAt? found⟩
    · exact .inr ⟨_, failed⟩
  | none =>
    rw [readName_global name machine entry]
    rcases orElseFault_cases name.line (.undefinedVariable name.text) _ machine with
      ⟨value, found, ran⟩ | failed
    · exact .inl ⟨value, ran, closed.known_of_lookup? found⟩
    · exact .inr ⟨_, failed⟩

theorem readSuperclass_cases (closed : machine.heap.Closed) (setting : Setting)
    (superclass : Superclass) :
    (∃ parent, readSuperclass setting superclass machine = .ok parent machine ∧
      parent.index < machine.heap.classes.size) ∨
      ∃ reason, readSuperclass setting superclass machine = .error reason machine := by
  rcases readName_cases closed setting superclass.id superclass.name with
    ⟨value, ran, known⟩ | ⟨reason, failed⟩
  · have same : readSuperclass setting superclass machine = _ := bind_ok ran
    cases value with
    | callable callee =>
      cases callee with
      | ofClass parent => exact .inl ⟨parent, same, known⟩
      | _ => exact .inr ⟨_, same⟩
    | _ => exact .inr ⟨_, same⟩
  · exact .inr ⟨reason, bind_error failed⟩

end Eval

namespace Course.Runs

variable {α β : Type} {setting : Setting} {table : Entries} {journal : Journal}
  {post : Heap → α → Prop} {owner : Option ClassRef}

theorem halt (sound : Sound setting table journal) (reason : Halt) :
    Runs setting table (making owner (Eval.halt reason)) journal post :=
  failed sound rfl rfl

theorem fault (sound : Sound setting table journal) (reason : RuntimeFault) (line : Nat) :
    Runs setting table (making owner (Eval.fault reason line)) journal post :=
  failed sound rfl rfl

theorem making_pure (sound : Sound setting table journal) (held : post journal.machine.heap value) :
    Runs setting table (making owner (Pure.pure value)) journal post :=
  still sound rfl rfl rfl held

theorem orFault {result : Except RuntimeFault α} (sound : Sound setting table journal) (line : Nat)
    (held : ∀ value, result = .ok value → post journal.machine.heap value) :
    Runs setting table (making owner (Eval.orFault line result)) journal post := by
  cases result with
  | ok value => exact still sound rfl rfl rfl (held value rfl)
  | error reason => exact fault sound reason line

theorem inspect {look : Heap → α} (sound : Sound setting table journal)
    (held : post journal.machine.heap (look journal.machine.heap)) :
    Runs setting table (making owner (Eval.inspect look)) journal post :=
  still sound rfl rfl rfl held

theorem inspected {look : Heap → β} {later : β → Eval α}
    (rest : Runs setting table (making owner (later (look journal.machine.heap))) journal post) :
    Runs setting table (making owner (Eval.inspect look >>= later)) journal post :=
  rest

theorem atScope {later : ScopeRef → Eval α}
    (rest : Runs setting table (making owner (later journal.machine.scope)) journal post) :
    Runs setting table (making owner (Eval.currentScope >>= later)) journal post :=
  rest

theorem congr {step step' : Eval α} (same : step journal.machine = step' journal.machine)
    (runs : Runs setting table (making owner step') journal post) :
    Runs setting table (making owner step) journal post := by
  unfold Runs making at *
  rw [same]
  exact runs

theorem readName (sound : Sound setting table journal) (id : NodeId) (name : Name) :
    Runs setting table (making owner (Eval.readName setting id name)) journal
      fun heap value => value.Known heap := by
  rcases Eval.readName_cases sound.closed setting id name with ⟨value, ran, known⟩ | ⟨reason, ran⟩
  · exact still sound ran rfl rfl known
  · exact failed sound ran rfl

theorem targetScope (sound : Sound setting table journal) (id : NodeId) (name : Name) :
    Runs setting table (making owner (Eval.targetScope setting id name)) journal
      fun _ _ => True := by
  rcases Eval.targetScope_cases setting id name journal.machine with ⟨scope, ran⟩ | ⟨reason, ran⟩
  · exact still sound ran rfl rfl trivial
  · exact failed sound ran rfl

theorem readClock (sound : Sound setting table journal) :
    Runs setting table (making owner (Eval.readClock setting)) journal
      fun heap value => value.Known heap :=
  still sound rfl rfl rfl trivial

theorem printLine (sound : Sound setting table journal) (text : String) :
    Runs setting table (making owner (Eval.printLine text)) journal fun _ _ => True := by
  by_cases admitted : journal.machine.sink.admits (text ++ "\n").toUTF8
  · have printed : Eval.printLine text journal.machine = .ok () { journal.machine with
        sink := journal.machine.sink.write (text ++ "\n").toUTF8 } := if_pos admitted
    exact still sound printed rfl rfl trivial
  · have printed : Eval.printLine text journal.machine = .error .sinkFull { journal.machine with
        sink := journal.machine.sink.write (text ++ "\n").toUTF8 } := if_neg admitted
    exact failed sound printed rfl

theorem defineIn {name : Name} (sound : Sound setting table journal) (plain : name.Plain)
    (known : value.Known journal.machine.heap) (scope : ScopeRef) :
    Runs setting table (making owner (Eval.defineIn scope name.text value)) journal
      fun _ _ => True :=
  changed sound rfl (sound.closed.define _ _ known)
    (Heap.later_define _ _ _ ⟨plain.ne_this, plain.ne_super⟩) rfl rfl rfl trivial

theorem define {name : Name} (sound : Sound setting table journal) (plain : name.Plain)
    (known : value.Known journal.machine.heap) :
    Runs setting table (making owner (Eval.define name.text value)) journal fun _ _ => True :=
  atScope (defineIn sound plain known _)

theorem setField (sound : Sound setting table journal) (known : value.Known journal.machine.heap)
    (receiver : InstanceRef) (name : String) :
    Runs setting table (making owner (Eval.setField receiver name value)) journal
      fun _ _ => True :=
  changed sound rfl (sound.closed.setField _ _ known) (Heap.later_setField ..) rfl rfl rfl trivial

/-- A new scope, of which the bindings and the link outward are known. -/
theorem newScope {bindings : Bindings Value} (sound : Sound setting table journal)
    (known : ∀ name value, bindings.find? name = some value → value.Known journal.machine.heap)
    (enclosing : ScopeRef) :
    Runs setting table (making owner (Eval.newScope bindings enclosing)) journal fun heap scope =>
      heap.scopes.enclosing? scope = some enclosing ∧
        (∀ name, heap.scopes.valueIn? scope name = bindings.find? name) ∧
        heap.classes = journal.machine.heap.classes := by
  refine changed sound rfl (sound.closed.newScope _ known) (Heap.later_newScope ..) rfl rfl rfl
    ⟨?_, ?_, rfl⟩
  · simp [Scopes.enclosing?_push]
  · simp [Scopes.valueIn?_push]

/-- A new scope for one of the names that classes bind. -/
theorem newScope_single (sound : Sound setting table journal)
    (known : value.Known journal.machine.heap) (name : String) (enclosing : ScopeRef) :
    Runs setting table (making owner (Eval.newScope (Bindings.empty.insert name value) enclosing))
      journal fun heap scope => heap.scopes.enclosing? scope = some enclosing ∧
        heap.scopes.valueIn? scope name = some value ∧
        heap.classes = journal.machine.heap.classes := by
  refine (newScope sound ?_ enclosing).weaken ?_
  · intro wanted held found
    rw [Bindings.find?_insert] at found
    split at found
    · cases found
      exact known
    · cases found
  · rintro heap scope ⟨link, bound, same⟩
    refine ⟨link, ?_, same⟩
    rw [bound, Bindings.find?_insert, if_pos rfl]

/-- A method of a class in a scope of its own that binds an instance. -/
theorem bindMethod (sound : Sound setting table journal)
    (known : receiver.index < journal.machine.heap.instances.size) (method : Closure) :
    Runs setting table (making owner (Eval.bindMethod method receiver)) journal
      fun heap closure => heap.Bound method receiver closure := by
  have known' : (Value.object receiver).Known journal.machine.heap := known
  apply (newScope_single sound known' "this" method.scope).making_bind
  rintro scope after later ⟨link, bound, _⟩
  exact making_pure later.sound ⟨rfl, rfl, link, bound⟩

theorem newInstance (sound : Sound setting table journal)
    (known : ref.index < journal.machine.heap.classes.size) :
    Runs setting table (making owner (Eval.newInstance ref)) journal
      fun heap created => heap.IsA created ref := by
  refine changed sound rfl (sound.closed.newInstance known) (Heap.later_newInstance ..) rfl rfl rfl
    ⟨by simp, ?_⟩
  have same : (Heap.instanceAt { journal.machine.heap with
      instances := journal.machine.heap.instances.push ⟨ref, .empty⟩ }
      ⟨journal.machine.heap.instances.size⟩).owner = ref := by
    simp [Heap.instanceAt]
  rw [same]
  exact .refl _

/-- A function that is new has a place of its own. -/
theorem newFunction {closure : Closure} (sound : Sound setting table journal)
    (placed : Placed setting table journal.points journal.machine.heap closure owner) :
    Runs setting table (making owner (Eval.newFunction closure)) journal fun heap value =>
      ∃ ref, value = .callable (.ofFunction ref) ∧ ref.index < heap.functions.size ∧
        heap.closureAt ref = closure := by
  have later := Heap.later_newFunction journal.machine.heap closure
  have created (ref : FunctionRef) (old : journal.machine.heap.functions.size ≤ ref.index)
      (new : ref.index < (journal.machine.heap.functions.push closure).size) :
      Heap.closureAt { journal.machine.heap with
        functions := journal.machine.heap.functions.push closure } ref = closure := by
    rw [Array.size_push] at new
    have same : ref.index = journal.machine.heap.functions.size := by omega
    simp [Heap.closureAt, same]
  refine making_ok rfl (sound.advance (sound.closed.newFunction closure) later ?_ ?_) later rfl
    ⟨_, rfl, by simp, created _ (Nat.le_refl _) (by simp)⟩
  · intro ref old new
    rw [created ref old new]
    exact placed.later (List.Subset.refl _) later
  · intro ref old new
    exact absurd new (Nat.not_lt.mpr old)

/-- A class that is new has a declaration. -/
theorem newClass {object : ClassObject} (sound : Sound setting table journal)
    (known : ∀ parent ∈ object.superclass, parent.index < journal.machine.heap.classes.size)
    (declared : ∀ ref heap, ref.index = journal.machine.heap.classes.size →
      journal.machine.heap.Later heap → ref.index < heap.classes.size → heap.classAt ref = object →
      Declared setting table journal.points heap ref) :
    Runs setting table (making owner (Eval.newClass object)) journal
      fun heap value => value.Known heap := by
  have later := Heap.later_newClass journal.machine.heap object
  refine making_ok rfl (sound.advance (sound.closed.newClass known) later ?_ ?_) later rfl
    (by simp [Value.Known])
  · intro ref old new
    exact absurd new (Nat.not_lt.mpr old)
  · intro ref old new
    have same : ref.index = journal.machine.heap.classes.size := by
      rw [Array.size_push] at new
      omega
    exact declared ref _ same later new (by simp [Heap.classAt, same])

section Composed

theorem assign {name : Name} (sound : Sound setting table journal) (plain : name.Plain)
    (known : value.Known journal.machine.heap) (id : NodeId) :
    Runs setting table (making owner (Eval.targetScope setting id name >>= fun scope =>
        Eval.defineIn scope name.text value >>= fun _ => return value)) journal
      fun heap value => value.Known heap := by
  apply (targetScope sound id name).making_bind
  intro scope after later _
  have known := known.later later.later
  apply (defineIn later.sound plain known scope).making_bind
  intro _ last later _
  exact making_pure later.sound (known.later later.later)

theorem assignField (sound : Sound setting table journal) (known : value.Known journal.machine.heap)
    (receiver : InstanceRef) (name : String) :
    Runs setting table (making owner (Eval.setField receiver name value >>= fun _ => return value))
      journal fun heap value => value.Known heap := by
  apply (setField sound known receiver name).making_bind
  intro _ after later _
  exact making_pure later.sound (known.later later.later)

/-- A function that is declared belongs to the class around its declaration. -/
theorem declareFunction {routine : Routine} (sound : Sound setting table journal)
    (plain : routine.name.Plain)
    (placed : Placed setting table journal.points journal.machine.heap
      ⟨routine, journal.machine.scope, false⟩ owner) :
    Runs setting table (making owner (Eval.currentScope >>= fun scope =>
        Eval.newFunction ⟨routine, scope, false⟩ >>= Eval.define routine.name.text)) journal
      fun _ _ => True := by
  refine atScope ?_
  apply (newFunction sound placed).making_bind
  rintro _ last later ⟨ref, rfl, known, _⟩
  exact define later.sound plain known

/-- A method that is read as a value belongs to the class from which it comes. -/
theorem boundFunction {holder : ClassRef} {method : Closure} (sound : Sound setting table journal)
    (known : holder.index < journal.machine.heap.classes.size)
    (own : (journal.machine.heap.classAt holder).methods.find? name = some method)
    (isA : journal.machine.heap.IsA receiver holder) :
    Runs setting table (making (some holder) (Eval.bindMethod method receiver >>= Eval.newFunction))
      journal fun heap value => value.Known heap := by
  apply (bindMethod sound isA.known method).making_bind
  intro closure after later bound
  rw [← later.later.classAt known] at own
  have inside := Nat.lt_of_lt_of_le known later.later.classes
  have placed := later.sound.method inside own (.refl _) bound (isA.later later.later)
  refine (newFunction later.sound placed).weaken ?_
  rintro heap _ ⟨ref, rfl, known, _⟩
  exact known

/-- A property that is a method belongs to the class in which it is found. -/
theorem readProperty (sound : Sound setting table journal)
    (known : receiver.index < journal.machine.heap.instances.size) (name : Name) :
    Runs setting table (making (journal.machine.heap.holder?
        (journal.machine.heap.instanceAt receiver).owner name.text)
      (Eval.readProperty receiver name)) journal fun heap value => value.Known heap := by
  have owner := sound.closed.owners known
  refine inspected ?_
  cases field : journal.machine.heap.field? receiver name.text with
  | some value => exact making_pure sound (sound.closed.fields field)
  | none =>
    refine inspected ?_
    rcases Heap.lookup_cases sound.closed.ranked owner name.text with
      ⟨holder, method, found, held, finds⟩ | ⟨missing, _⟩
    · rw [found, held]
      exact boundFunction sound (sound.closed.known_of_inherits finds.inherits owner) finds.held
        ⟨known, finds.inherits⟩
    · rw [missing]
      exact fault sound _ _

end Composed

end Course.Runs

end Lox
