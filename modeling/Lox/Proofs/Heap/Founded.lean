import Lox.Proofs.Dispatch.Steps
import Lox.Proofs.Heap.Stays

/-! Heaps of which the links lead to what is older. A scope lies in an older one, a class extends an older
one, and a closure runs inside a scope that exists. An initializer that can be called is a method of a
class that is bound to an instance. -/

namespace Lox

namespace Heap

/-- A method of a class under its name, bound to an instance. -/
def MethodOf (heap : Heap) (closure : Closure) (receiver : InstanceRef) : Prop :=
  ∃ owner method, owner.index < heap.classes.size ∧
    (heap.classAt owner).methods.find? closure.routine.name.text = some method ∧
    heap.Bound method receiver closure

/-- A closure that can be called. -/
structure Ready (heap : Heap) (closure : Closure) : Prop where
  scope : closure.scope.index < heap.scopes.cells.size
  regular : closure.routine.Regular
  bound : closure.isInitializer = true → ∃ receiver, heap.MethodOf closure receiver

/-- What a class has under a name. -/
structure Method (heap : Heap) (name : String) (method : Closure) : Prop where
  scope : method.scope.index < heap.scopes.cells.size
  regular : method.routine.Regular
  named : method.routine.name.text = name
  isInitializer : method.isInitializer = decide (name = initializerName)

structure Founded (heap : Heap) : Prop where
  closed : heap.Closed
  nested : ∀ {scope outer}, heap.scopes.enclosing? scope = some outer → outer.index < scope.index
  functions : ∀ {ref : FunctionRef}, ref.index < heap.functions.size → heap.Ready (heap.closureAt ref)
  methods : ∀ {ref name method}, (heap.classAt ref).methods.find? name = some method →
    heap.Method name method

variable {heap heap' : Heap}

theorem known_of_method {ref : ClassRef} (found : (heap.classAt ref).methods.find? name = some method) :
    ref.index < heap.classes.size := by
  by_contra outside
  rw [classAt_absent outside] at found
  cases found

/-- Only classes that exist have methods. -/
theorem Finds.known (finds : heap.Finds name ref holder method) : ref.index < heap.classes.size := by
  cases finds with
  | own found => exact known_of_method found
  | inherited _ superclass => exact known_of_superclass superclass

theorem Bound.later {closure : Closure} (bound : heap.Bound method receiver closure)
    (later : heap.Later heap') : heap'.Bound method receiver closure where
  routine := bound.routine
  isInitializer := bound.isInitializer
  around := later.nested bound.around
  this := (later.receivers bound.around (.inl rfl)).trans bound.this

theorem MethodOf.later {closure : Closure} (method : heap.MethodOf closure receiver)
    (later : heap.Later heap') : heap'.MethodOf closure receiver := by
  obtain ⟨owner, method, known, own, bound⟩ := method
  exact ⟨owner, method, Nat.lt_of_lt_of_le known later.classes, (later.classAt known).symm ▸ own,
    bound.later later⟩

theorem Ready.later {closure : Closure} (ready : heap.Ready closure) (later : heap.Later heap')
    (stays : heap.Stays heap') : heap'.Ready closure where
  scope := (stays.links ready.scope).1
  regular := ready.regular
  bound initializer := by
    obtain ⟨receiver, method⟩ := ready.bound initializer
    exact ⟨receiver, method.later later⟩

theorem Method.stays {closure : Closure} (method : heap.Method name closure) (stays : heap.Stays heap') :
    heap'.Method name closure :=
  { method with scope := (stays.links method.scope).1 }

namespace Founded

/-- A change that makes no functions and no classes. -/
theorem change (founded : heap.Founded) (closed : heap'.Closed) (later : heap.Later heap')
    (stays : heap.Stays heap') (functions : heap'.functions = heap.functions)
    (classes : heap'.classes = heap.classes)
    (nested : ∀ {scope outer}, heap'.scopes.enclosing? scope = some outer →
      outer.index < scope.index) : heap'.Founded where
  closed := closed
  nested := nested
  functions {ref} inside := by
    have same : heap'.closureAt ref = heap.closureAt ref := by unfold closureAt; rw [functions]
    rw [functions] at inside
    rw [same]
    exact (founded.functions inside).later later stays
  methods {ref name method} found := by
    have same : heap'.classAt ref = heap.classAt ref := by unfold classAt; rw [classes]
    rw [same] at found
    exact (founded.methods found).stays stays

variable (founded : heap.Founded)

include founded

theorem newScope {bindings : Bindings Value} {enclosing : ScopeRef}
    (inside : enclosing.index < heap.scopes.cells.size)
    (known : ∀ name value, bindings.find? name = some value → value.Known heap) :
    Founded { heap with scopes := heap.scopes.push bindings (some enclosing) } := by
  refine founded.change (founded.closed.newScope _ known) (later_newScope ..) (.newScope ..) rfl rfl ?_
  intro scope outer link
  rw [Scopes.enclosing?_push] at link
  split at link
  · rename_i new
    cases link
    rw [new]
    exact inside
  · exact founded.nested link

theorem define (scope : ScopeRef) {name : Name} {value : Value} (plain : name.Plain)
    (known : value.Known heap) :
    Founded { heap with scopes := heap.scopes.define scope name.text value } := by
  refine founded.change (founded.closed.define _ _ known)
    (later_define _ _ _ ⟨plain.ne_this, plain.ne_super⟩) (.define ..) rfl rfl ?_
  intro other outer link
  rw [Scopes.enclosing?_define] at link
  exact founded.nested link

theorem newInstance {owner : ClassRef} (known : owner.index < heap.classes.size) :
    Founded { heap with instances := heap.instances.push ⟨owner, .empty⟩ } :=
  founded.change (founded.closed.newInstance known) (later_newInstance ..) (.newInstance ..) rfl rfl
    founded.nested

theorem setField (ref : InstanceRef) (name : String) {value : Value} (known : value.Known heap) :
    Founded (heap.setField ref name value) :=
  founded.change (founded.closed.setField _ _ known) (later_setField ..) (.setField ..) rfl rfl
    founded.nested

theorem newFunction {closure : Closure} (ready : heap.Ready closure) :
    Founded { heap with functions := heap.functions.push closure } where
  closed := founded.closed.newFunction closure
  nested := founded.nested
  functions {ref} inside := by
    have later := later_newFunction heap closure
    have stays := Stays.newFunction heap closure
    by_cases new : ref.index = heap.functions.size
    · have created : closureAt { heap with functions := heap.functions.push closure } ref = closure := by
        simp [closureAt, new]
      rw [created]
      exact ready.later later stays
    · have old : ref.index < heap.functions.size := by
        rw [Array.size_push] at inside
        omega
      rw [later.closureAt old]
      exact (founded.functions old).later later stays
  methods found := founded.methods found |>.stays (Stays.newFunction heap closure)

theorem newClass {object : ClassObject}
    (known : ∀ parent ∈ object.superclass, parent.index < heap.classes.size)
    (methods : ∀ name method, object.methods.find? name = some method → heap.Method name method) :
    Founded { heap with classes := heap.classes.push object } where
  closed := founded.closed.newClass known
  nested := founded.nested
  functions inside :=
    (founded.functions inside).later (later_newClass heap object) (Stays.newClass heap object)
  methods {ref name method} found := by
    have stays := Stays.newClass heap object
    unfold classAt at found
    rw [getD_push] at found
    split at found
    · exact (methods name method found).stays stays
    · have former := @Founded.methods _ founded ref name method found
      exact former.stays stays

/-- A method that a class has or inherits is a method under its name of the class it comes from. -/
theorem method? {ref : ClassRef} (found : heap.method? ref name = some method) :
    heap.Method name method ∧ ∃ owner, owner.index < heap.classes.size ∧
      (heap.classAt owner).methods.find? name = some method := by
  obtain ⟨holder, finds⟩ := exists_finds found
  exact ⟨founded.methods finds.held, holder, known_of_method finds.held, finds.held⟩

theorem method?_eq {ref : ClassRef} (finds : heap.Finds name ref holder method) :
    heap.method? ref name = some method :=
  finds.lookup founded.closed.ranked finds.known

end Founded

theorem founded_start : Heap.start.Founded where
  closed := closed_start
  nested {scope outer} link := by
    unfold Heap.start at link
    rw [Scopes.enclosing?_push] at link
    split at link <;> cases link
  functions inside := by cases inside
  methods found := by cases found

end Heap

end Lox
