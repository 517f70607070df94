import Lox.Proofs.Lexical.Evaluate
import Lox.Proofs.Lexical.Store
import Lox.Proofs.Scope.Fits

/-! Machines beside states of evaluation by lexical scoping. Instances, calls in progress and output
are the same, the store fits the scopes, and functions and classes differ only in that they hold a
chain of scopes or the environment that it is linked to. -/

namespace Lox.Lexical

namespace Grows

theorem enter (slots : Slots) (scopes : Scopes) (names : List String) (bindings : Bindings Value)
    (enclosing : ScopeRef) :
    Grows none slots scopes (newSlots slots scopes.next names)
      (scopes.push bindings (some enclosing)) where
  kept := getElem?_append_old
  added found := by
    rcases newSlots_found found with old | ⟨rfl, _, _, _⟩
    · exact .inl old
    · exact .inr (.inr (Nat.le_refl _))
  nested := by
    intro scope outer link
    have old : scope ≠ scopes.next := by
      rintro rfl
      rw [Scopes.enclosing?_next] at link
      cases link
    rw [Scopes.enclosing?_push, if_neg old, link]
  bound := by
    intro scope name value
    have old : scope ≠ scopes.next := by
      rintro rfl
      rw [Scopes.valueIn?_next] at value
      cases value
    rw [Scopes.valueIn?_push, if_neg old]
    exact value
  longer := by simp [Scopes.push]

theorem declare (slots : Slots) (scopes : Scopes) (scope : ScopeRef) (name : String) :
    Grows (some scope) slots scopes (newSlots slots scope [name]) scopes where
  kept := getElem?_append_old
  added found := by
    rcases newSlots_found found with old | ⟨rfl, _, _, _⟩
    · exact .inl old
    · exact .inr (.inl rfl)
  nested := id
  bound := id
  longer := Nat.le_refl _

theorem define (slots : Slots) (scopes : Scopes) (known : scope.index < scopes.cells.size)
    (name : String) (value : Value) :
    Grows none slots scopes slots (scopes.define scope name value) where
  kept := id
  added := .inl
  nested := by simp
  bound := by
    intro target wanted bound
    rw [Scopes.valueIn?_define _ _ _ _ _ _ known]
    split
    · rfl
    · exact bound
  longer := by simp [Scopes.define]

end Grows

namespace Environment

theorem find?_locationsFrom (found : find? (Eval.locationsFrom next entries) name = some location) :
    ∃ offset, location.index = next + offset ∧ (entries.map (·.1))[offset]? = some name := by
  induction entries generalizing next with
  | nil => cases found
  | cons head rest ih =>
    obtain ⟨key, value⟩ := head
    simp only [Eval.locationsFrom, find?, Bindings.findEntry?] at found
    split at found
    · rename_i same
      cases found
      exact ⟨0, rfl, by simp [same]⟩
    · obtain ⟨offset, same, here⟩ := ih found
      exact ⟨offset + 1, by omega, by simpa using here⟩

theorem isSome_find?_locationsFrom (next : Nat) (entries : List (String × Value)) (name : String) :
    (find? (Eval.locationsFrom next entries) name).isSome =
      decide (name ∈ entries.map (·.1)) := by
  induction entries generalizing next with
  | nil => rfl
  | cons head rest ih =>
    obtain ⟨key, value⟩ := head
    have later := ih (next + 1)
    simp only [Eval.locationsFrom, find?, Bindings.findEntry?] at later ⊢
    split
    · rename_i same
      simp [same]
    · rename_i other
      rw [later]
      simp [Ne.symm other]

end Environment

namespace Linked

/-- A new scope whose names have new locations is linked to the environment that they extend. -/
theorem enter (linked : Linked slots scopes scoping scope environment)
    (apart : scopes.next ≠ Heap.globals) (entries : List (String × Value))
    (distinct : (entries.map (·.1)).Nodup) :
    Linked (newSlots slots scopes.next (entries.map (·.1)))
      (scopes.push (.ofList entries) (some scope))
      (Scoping.frame (entries.map (·.1)) :: scoping) scopes.next
      (Eval.locationsFrom slots.size entries ++ environment) := by
  refine .inside ?_ apart ?_ ?_ ?_ (linked.grow (Grows.enter ..))
  · rw [Scopes.enclosing?_push, if_pos rfl]
  · intro name
    rw [Environment.isSome_find?_locationsFrom, Scoping.contains_frame]
  · intro name location found
    obtain ⟨offset, same, here⟩ := Environment.find?_locationsFrom found
    rw [same, newSlots, getElem?_append_new]
    simp only [List.getElem?_map] at here ⊢
    simp [here]
  · intro name ready
    rw [Scoping.find?_frame] at ready
    split at ready
    · rename_i member
      obtain ⟨⟨_, value⟩, inside, rfl⟩ := List.mem_map.mp member
      rw [Scopes.valueIn?_push, if_pos rfl, Bindings.find?_ofList _ distinct,
        Bindings.findEntry?_of_mem distinct inside]
      rfl
    · cases ready

/-- Declaring a name in the scope and in the environment. -/
theorem declare {inner : Bindings Bool}
    (linked : Linked slots scopes (inner :: rest) scope environment) (name : String) :
    Linked (newSlots slots scope [name]) scopes (inner.insert name false :: rest) scope
      ((name, ⟨slots.size⟩) :: environment) := by
  cases linked with
  | inside nested apart names placed bound around =>
    rename_i outer own environment
    have around := around.grow (Grows.declare slots scopes scope name)
    rw [← List.cons_append]
    refine .inside nested apart (fun wanted => ?_) (fun wanted location found => ?_)
      (fun wanted ready => ?_) around
    · have same := names wanted
      by_cases here : name = wanted
      · simp [Environment.find?, Bindings.findEntry?, Bindings.contains_insert, here]
      · simpa [Environment.find?, Bindings.findEntry?, Bindings.contains_insert, here,
          Ne.symm here] using same
    · simp only [Environment.find?, Bindings.findEntry?] at found
      split at found
      · rename_i same
        cases found
        rw [newSlots, ← Nat.add_zero slots.size, getElem?_append_new, same]
        rfl
      · exact getElem?_append_old (placed wanted location found)
    · rw [Bindings.find?_insert] at ready
      split at ready
      · cases ready
      · exact bound wanted ready

/-- A declared name is ready once it is bound. -/
theorem settle {inner : Bindings Bool} (linked : Linked slots scopes (inner.insert name false :: rest) scope environment)
    (bound : (scopes.valueIn? scope name).isSome) :
    Linked slots scopes (inner.insert name true :: rest) scope environment := by
  cases linked with
  | inside nested apart names placed others around =>
    refine .inside nested apart (fun wanted => ?_) placed (fun wanted ready => ?_) around
    · rw [names, Bindings.contains_insert, Bindings.contains_insert]
    · rw [Bindings.find?_insert] at ready
      split at ready
      · rename_i same
        rw [same]
        exact bound
      · rename_i other
        exact others wanted (by rw [Bindings.find?_insert, if_neg other, ready])

end Linked

/-- Closures of one routine whose chain of scopes and environment are linked. -/
structure Captured (slots : Slots) (scopes : Scopes) (scoping : Scoping) (closure : Lox.Closure)
    (other : Closure) : Prop where
  name : other.name = closure.routine.name.text
  parameters : other.parameters = closure.routine.parameters.map (·.text)
  body : other.body = closure.routine.body
  isInitializer : other.isInitializer = closure.isInitializer
  linked : Linked slots scopes scoping closure.scope other.environment

/-- Functions that mean the same. An initializer is bound to an instance. -/
def SameFunction (table : Entries) (slots : Slots) (scopes : Scopes) (closure : Lox.Closure)
    (other : Closure) : Prop :=
  ∃ scoping, Captured slots scopes scoping closure other ∧
    closure.routine.Addressed table scoping ∧
    (closure.isInitializer = true → ∃ outer, scoping = Scoping.frame ["this"] :: outer)

/-- Methods that mean the same once they are bound to an instance. -/
def SameMethod (table : Entries) (slots : Slots) (scopes : Scopes) (method : Lox.Closure)
    (other : Closure) : Prop :=
  ∃ scoping, Captured slots scopes scoping method other ∧
    method.routine.Addressed table (Scoping.frame ["this"] :: scoping)

structure SameClass (table : Entries) (slots : Slots) (scopes : Scopes)
    (object : Lox.ClassObject) (other : ClassObject) : Prop where
  name : other.name = object.name
  superclass : other.superclass = object.superclass
  methods : ∀ name, Option.Rel (SameMethod table slots scopes) (object.methods.find? name)
    (other.methods.find? name)

structure Similar (table : Entries) (slots : Slots) (machine : Machine) (state : State) : Prop where
  stored : Stored slots machine.heap.scopes state.store state.globals
  functions : machine.heap.functions.size = state.functions.size ∧
    ∀ ref, SameFunction table slots machine.heap.scopes (machine.heap.closureAt ref)
      (state.closureAt ref)
  classes : machine.heap.classes.size = state.classes.size ∧
    ∀ ref, SameClass table slots machine.heap.scopes (machine.heap.classAt ref) (state.classAt ref)
  instances : state.instances = machine.heap.instances
  depth : state.depth = machine.depth
  sink : state.sink = machine.sink
  readings : state.readings = machine.readings

section Grow

variable (grows : Grows here slots scopes slots' scopes')

include grows

theorem Captured.grow {closure : Lox.Closure} (captured : Captured slots scopes scoping closure other) :
    Captured slots' scopes' scoping closure other :=
  { captured with linked := captured.linked.grow grows }

theorem SameFunction.grow {closure : Lox.Closure} (same : SameFunction table slots scopes closure other) :
    SameFunction table slots' scopes' closure other := by
  obtain ⟨scoping, captured, addressed, receives⟩ := same
  exact ⟨scoping, captured.grow grows, addressed, receives⟩

theorem SameMethod.grow {closure : Lox.Closure} (same : SameMethod table slots scopes closure other) :
    SameMethod table slots' scopes' closure other := by
  obtain ⟨scoping, captured, addressed⟩ := same
  exact ⟨scoping, captured.grow grows, addressed⟩

theorem SameClass.grow (same : SameClass table slots scopes object other) :
    SameClass table slots' scopes' object other where
  name := same.name
  superclass := same.superclass
  methods name := rel_weaken (same.methods name) fun _ _ method => method.grow grows

end Grow

namespace Similar

variable {table : Entries} {slots : Slots} {machine : Machine} {state : State}

theorem methodWithin? (similar : Similar table slots machine state) (name : String) (bound : Nat)
    (ref : ClassRef) : Option.Rel (SameMethod table slots machine.heap.scopes)
      (machine.heap.methodWithin? name bound ref) (state.methodWithin? name bound ref) := by
  induction bound generalizing ref with
  | zero => exact .none
  | succ bound ih =>
    have same := similar.classes.2 ref
    have methods := same.methods name
    unfold Heap.methodWithin? State.methodWithin?
    rw [same.superclass]
    generalize (machine.heap.classAt ref).methods.find? name = found at methods ⊢
    generalize (state.classAt ref).methods.find? name = found' at methods ⊢
    cases methods with
    | some method => exact .some method
    | none =>
      cases (machine.heap.classAt ref).superclass with
      | none => exact .none
      | some parent => exact ih parent

theorem method? (similar : Similar table slots machine state) (ref : ClassRef) (name : String) :
    Option.Rel (SameMethod table slots machine.heap.scopes) (machine.heap.method? ref name)
      (state.method? ref name) := by
  unfold Heap.method? State.method?
  rw [similar.classes.1]
  exact similar.methodWithin? name _ ref

theorem name_closureAt (similar : Similar table slots machine state) (ref : FunctionRef) :
    (state.closureAt ref).name = (machine.heap.closureAt ref).routine.name.text := by
  obtain ⟨_, captured, _⟩ := similar.functions.2 ref
  exact captured.name

theorem instanceAt (similar : Similar table slots machine state) (ref : InstanceRef) :
    state.instanceAt ref = machine.heap.instanceAt ref := by
  unfold State.instanceAt Heap.instanceAt
  rw [similar.instances]

theorem arity (similar : Similar table slots machine state) (callee : Callable) :
    state.arity callee = machine.heap.arity callee := by
  cases callee with
  | clock => rfl
  | ofFunction ref =>
    obtain ⟨_, captured, _⟩ := similar.functions.2 ref
    simp [State.arity, Heap.arity, Routine.arity, captured.parameters]
  | ofClass ref =>
    have method := similar.method? ref initializerName
    simp only [State.arity, Heap.arity]
    generalize machine.heap.method? ref initializerName = found at method ⊢
    generalize state.method? ref initializerName = found' at method ⊢
    cases method with
    | none => rfl
    | some same =>
      obtain ⟨_, captured, _⟩ := same
      simp [captured.parameters, Routine.arity]

theorem display (similar : Similar table slots machine state) (value : Value) :
    state.display value = machine.heap.display value := by
  unfold State.display Heap.display
  split <;> simp [similar.name_closureAt, (similar.classes.2 _).name, similar.instanceAt]

end Similar

end Lox.Lexical
