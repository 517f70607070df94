import Lox.Proofs.Heap.Later
import Lox.Proofs.Machine.Along

/-! What never changes in a heap. Whatever exists keeps existing: a class and a function stay what they
are, an instance stays one of its class, a scope stays nested where it is, and neither a name in a scope
nor a field of an instance is ever removed. -/

namespace Lox

namespace Heap

/-- What a heap contains is in the later one as it was, and with at least as many names and fields. -/
structure Stays (heap later : Heap) : Prop where
  classes : ∀ {ref : ClassRef}, ref.index < heap.classes.size →
    ref.index < later.classes.size ∧ later.classAt ref = heap.classAt ref
  functions : ∀ {ref : FunctionRef}, ref.index < heap.functions.size →
    ref.index < later.functions.size ∧ later.closureAt ref = heap.closureAt ref
  owners : ∀ {ref : InstanceRef}, ref.index < heap.instances.size →
    ref.index < later.instances.size ∧ (later.instanceAt ref).owner = (heap.instanceAt ref).owner
  fields : ∀ {ref : InstanceRef} {name}, (heap.field? ref name).isSome → (later.field? ref name).isSome
  links : ∀ {scope : ScopeRef}, scope.index < heap.scopes.cells.size →
    scope.index < later.scopes.cells.size ∧
      later.scopes.enclosing? scope = heap.scopes.enclosing? scope
  names : ∀ {scope : ScopeRef} {name}, (heap.scopes.valueIn? scope name).isSome →
    (later.scopes.valueIn? scope name).isSome

namespace Stays

theorem refl (heap : Heap) : heap.Stays heap :=
  ⟨fun inside => ⟨inside, rfl⟩, fun inside => ⟨inside, rfl⟩, fun inside => ⟨inside, rfl⟩, id,
    fun inside => ⟨inside, rfl⟩, id⟩

theorem trans (first : Stays one two) (second : Stays two three) : Stays one three where
  classes inside := by
    obtain ⟨inside, same⟩ := first.classes inside
    obtain ⟨inside, same'⟩ := second.classes inside
    exact ⟨inside, same'.trans same⟩
  functions inside := by
    obtain ⟨inside, same⟩ := first.functions inside
    obtain ⟨inside, same'⟩ := second.functions inside
    exact ⟨inside, same'.trans same⟩
  owners inside := by
    obtain ⟨inside, same⟩ := first.owners inside
    obtain ⟨inside, same'⟩ := second.owners inside
    exact ⟨inside, same'.trans same⟩
  fields bound := second.fields (first.fields bound)
  links inside := by
    obtain ⟨inside, same⟩ := first.links inside
    obtain ⟨inside, same'⟩ := second.links inside
    exact ⟨inside, same'.trans same⟩
  names bound := second.names (first.names bound)

variable (heap : Heap)

theorem newScope (bindings : Bindings Value) (enclosing : Option ScopeRef) :
    heap.Stays { heap with scopes := heap.scopes.push bindings enclosing } := by
  have old {scope : ScopeRef} (inside : scope.index < heap.scopes.cells.size) :
      scope ≠ heap.scopes.next := by
    rintro rfl
    exact Nat.lt_irrefl _ inside
  refine { refl heap with links := ?_, names := ?_ }
  · intro scope inside
    rw [Scopes.enclosing?_push, if_neg (old inside)]
    exact ⟨by simpa [Scopes.push] using Nat.lt_succ_of_lt inside, rfl⟩
  · intro scope name bound
    have other : scope ≠ heap.scopes.next := by
      rintro rfl
      rw [Scopes.valueIn?_next] at bound
      cases bound
    rwa [Scopes.valueIn?_push, if_neg other]

theorem define (scope : ScopeRef) (name : String) (value : Value) :
    heap.Stays { heap with scopes := heap.scopes.define scope name value } := by
  refine { refl heap with links := ?_, names := ?_ }
  · intro other inside
    exact ⟨by simpa [Scopes.define] using inside, Scopes.enclosing?_define ..⟩
  · intro other wanted bound
    unfold Scopes.valueIn? at bound ⊢
    rw [Scopes.cells_define]
    split
    · cases present : heap.scopes.cells[other.index]? with
      | none => simp [present] at bound
      | some cell =>
        simp only [present, Option.bind_some, Option.map_some, Bindings.find?_insert] at bound ⊢
        split
        · rfl
        · exact bound
    · exact bound

theorem newFunction (closure : Closure) :
    heap.Stays { heap with functions := heap.functions.push closure } := by
  refine { refl heap with functions := ?_ }
  intro ref inside
  exact ⟨by simpa using Nat.lt_succ_of_lt inside, (later_newFunction heap closure).closureAt inside⟩

theorem newClass (object : ClassObject) :
    heap.Stays { heap with classes := heap.classes.push object } := by
  refine { refl heap with classes := ?_ }
  intro ref inside
  exact ⟨by simpa using Nat.lt_succ_of_lt inside, (later_newClass heap object).classAt inside⟩

theorem newInstance (created : Instance) :
    heap.Stays { heap with instances := heap.instances.push created } := by
  refine { refl heap with owners := ?_, fields := ?_ }
  · intro ref inside
    exact ⟨by simpa using Nat.lt_succ_of_lt inside, (later_newInstance heap created).owner inside⟩
  · intro ref name bound
    unfold field? instanceAt at bound ⊢
    rw [getD_push]
    split
    · rename_i new
      simp [new, Array.getD_eq_getD_getElem?] at bound
      cases bound
    · exact bound

theorem setField (ref : InstanceRef) (name : String) (value : Value) :
    heap.Stays (heap.setField ref name value) := by
  refine { refl heap with owners := ?_, fields := ?_ }
  · intro other inside
    exact ⟨by simpa [Heap.setField] using inside, (heap.instanceAt_setField ..).1⟩
  · intro other wanted bound
    simp only [field?, instanceAt, Heap.setField, Array.getD_eq_getD_getElem?,
      Array.getElem?_modify] at bound ⊢
    split
    · cases present : heap.instances[other.index]? with
      | none => simpa [present] using bound
      | some held =>
        simp only [present, Option.map_some, Option.getD_some, Bindings.find?_insert] at bound ⊢
        split
        · rfl
        · exact bound
    · exact bound

/-- Every step of the evaluator leaves what exists as it is. -/
theorem kept : Kept fun machine after => machine.heap.Stays after.heap where
  refl machine := refl machine.heap
  trans := trans
  newScope bindings enclosing machine := newScope machine.heap bindings enclosing
  defineIn scope name value machine := define machine.heap scope name value
  newFunction closure machine := newFunction machine.heap closure
  newClass object machine := newClass machine.heap object
  newInstance owner machine := newInstance machine.heap ⟨owner, .empty⟩
  setField ref name value machine := setField machine.heap ref name value
  readClock _ machine := refl machine.heap
  write machine _ := refl machine.heap
  within stays := stays
  deeper stays := stays

end Stays

end Heap

end Lox
