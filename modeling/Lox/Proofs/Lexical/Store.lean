import Lox.Proofs.Lexical.Linked

/-! The store beside the scopes. What a slot is bound to is what its location holds, every binding
outside the globals has a slot, and no two locations share one. -/

namespace Lox

namespace Lexical

/-- Only an instance is called `this` and only a class is called `super`. -/
structure Holds (name : String) (value : Value) : Prop where
  this : name = "this" → ∃ ref, value = .object ref
  super : name = "super" → ∃ ref, value = .callable (.ofClass ref)

theorem Holds.plain {name : Name} (plain : name.Plain) (value : Value) : Holds name.text value :=
  ⟨fun same => absurd same plain.ne_this, fun same => absurd same plain.ne_super⟩

structure Stored (slots : Slots) (scopes : Scopes) (store : Array Value)
    (globals : Bindings Value) : Prop where
  counted : slots.size = store.size
  agrees : ∀ {index : Nat} {scope name value}, slots[index]? = some (scope, name) →
    scopes.valueIn? scope name = some value → store[index]? = some value
  injective : ∀ {index index' : Nat} {slot}, slots[index]? = some slot →
    slots[index']? = some slot → index = index'
  inner : ∀ {index : Nat} {scope name}, slots[index]? = some (scope, name) →
    scope ≠ Heap.globals ∧ scope.index < scopes.cells.size
  slotted : ∀ {scope name}, scope ≠ Heap.globals → (scopes.valueIn? scope name).isSome →
    ∃ index : Nat, slots[index]? = some (scope, name)
  holds : ∀ {index : Nat} {scope name value}, slots[index]? = some (scope, name) →
    scopes.valueIn? scope name = some value → Holds name value
  global : ∀ name, scopes.valueIn? Heap.globals name = globals.find? name
  outermost : scopes.enclosing? Heap.globals = none
  nonempty : 0 < scopes.cells.size

theorem getElem?_append_list {former : Array α} {new : List α} {index : Nat}
    (found : (former ++ new.toArray)[index]? = some item) :
    former[index]? = some item ∨ ∃ offset, index = former.size + offset ∧ new[offset]? = some item := by
  rw [Array.getElem?_append] at found
  split at found
  · exact .inl found
  · rename_i beyond
    exact .inr ⟨index - former.size, by omega, by simpa using found⟩

theorem getElem?_append_old {former : Array α} {new : List α} {index : Nat}
    (found : former[index]? = some item) : (former ++ new.toArray)[index]? = some item := by
  obtain ⟨inside, _⟩ := Array.getElem?_eq_some_iff.mp found
  rw [Array.getElem?_append, if_pos inside, found]

theorem getElem?_append_new {former : Array α} {new : List α} (offset : Nat) :
    (former ++ new.toArray)[former.size + offset]? = new[offset]? := by
  rw [Array.getElem?_append, if_neg (by omega)]
  simp

/-- The slots of names that a scope gets. -/
def newSlots (slots : Slots) (scope : ScopeRef) (names : List String) : Slots :=
  slots ++ (names.map (scope, ·)).toArray

theorem newSlots_found (found : (newSlots slots scope names)[index]? = some (target, name)) :
    slots[index]? = some (target, name) ∨
      target = scope ∧ ∃ offset, index = slots.size + offset ∧ names[offset]? = some name := by
  rcases getElem?_append_list found with old | ⟨offset, rfl, new⟩
  · exact .inl old
  · rw [List.getElem?_map] at new
    obtain ⟨other, here, same⟩ := Option.map_eq_some_iff.mp new
    cases same
    exact .inr ⟨rfl, offset, rfl, here⟩

namespace Stored

variable {slots : Slots} {scopes : Scopes} {store : Array Value} {globals : Bindings Value}

theorem next_ne_globals (stored : Stored slots scopes store globals) :
    scopes.next ≠ Heap.globals := by
  intro same
  have positive := stored.nonempty
  simp only [Scopes.next, Heap.globals, ScopeRef.mk.injEq] at same
  omega

theorem ne_next {index : Nat} (stored : Stored slots scopes store globals)
    (found : slots[index]? = some (scope, name)) : scope ≠ scopes.next := by
  rintro rfl
  exact absurd (stored.inner found).2 (Nat.lt_irrefl _)

/-- Slots of different names in a scope that had none of them belong to different locations. -/
theorem injective_newSlots {index index' : Nat} (stored : Stored slots scopes store globals)
    (distinct : names.Nodup) (fresh : ∀ (index : Nat) name, name ∈ names → slots[index]? ≠ some (scope, name))
    (found : (newSlots slots scope names)[index]? = some slot)
    (found' : (newSlots slots scope names)[index']? = some slot) : index = index' := by
  obtain ⟨target, name⟩ := slot
  rcases newSlots_found found with old | ⟨rfl, offset, rfl, new⟩
  · rcases newSlots_found found' with old' | ⟨rfl, offset, _, new⟩
    · exact stored.injective old old'
    · exact absurd old (fresh index name (List.mem_of_getElem? new))
  · rcases newSlots_found found' with old' | ⟨_, offset', rfl, new'⟩
    · exact absurd old' (fresh index' name (List.mem_of_getElem? new))
    · have inside := (List.getElem?_eq_some_iff.mp new).1
      rw [(List.getElem?_inj inside distinct).mp (new.trans new'.symm)]

/-- A new scope and as many new locations keep the store beside the scopes. -/
theorem enter (stored : Stored slots scopes store globals) (entries : List (String × Value))
    (distinct : (entries.map (·.1)).Nodup) (holds : ∀ entry ∈ entries, Holds entry.1 entry.2)
    (enclosing : ScopeRef) :
    Stored (newSlots slots scopes.next (entries.map (·.1)))
      (scopes.push (.ofList entries) (some enclosing)) (store ++ (entries.map (·.2)).toArray)
      globals where
  counted := by simp [newSlots, stored.counted]
  agrees := by
    intro index scope name value found bound
    rw [Scopes.valueIn?_push] at bound
    rcases newSlots_found found with old | ⟨rfl, offset, rfl, new⟩
    · rw [if_neg (stored.ne_next old)] at bound
      exact getElem?_append_old (stored.agrees old bound)
    · rw [if_pos rfl, Bindings.find?_ofList _ distinct] at bound
      rw [stored.counted, getElem?_append_new, List.getElem?_map]
      rw [List.getElem?_map] at new
      obtain ⟨entry, here, rfl⟩ := Option.map_eq_some_iff.mp new
      have known := Bindings.findEntry?_of_mem distinct (List.mem_of_getElem? here)
      cases known.symm.trans bound
      rw [here]
      rfl
  injective := stored.injective_newSlots distinct fun index name _ found =>
    stored.ne_next found rfl
  inner := by
    intro index scope name found
    simp only [Scopes.push, Array.size_push]
    rcases newSlots_found found with old | ⟨rfl, _, _, _⟩
    · exact ⟨(stored.inner old).1, Nat.lt_succ_of_lt (stored.inner old).2⟩
    · exact ⟨stored.next_ne_globals, Nat.lt_succ_self _⟩
  slotted := by
    intro scope name apart bound
    rw [Scopes.valueIn?_push] at bound
    split at bound
    · rename_i new
      subst new
      rw [Bindings.find?_ofList _ distinct] at bound
      obtain ⟨value, found⟩ := Option.isSome_iff_exists.mp bound
      obtain ⟨offset, here⟩ := List.getElem?_of_mem (Bindings.mem_of_findEntry found)
      refine ⟨slots.size + offset, ?_⟩
      rw [newSlots, getElem?_append_new]
      simp [here]
    · obtain ⟨index, found⟩ := stored.slotted apart bound
      exact ⟨index, getElem?_append_old found⟩
  holds := by
    intro index scope name value found bound
    rw [Scopes.valueIn?_push] at bound
    rcases newSlots_found found with old | ⟨rfl, _, _, _⟩
    · rw [if_neg (stored.ne_next old)] at bound
      exact stored.holds old bound
    · rw [if_pos rfl, Bindings.find?_ofList _ distinct] at bound
      exact holds _ (Bindings.mem_of_findEntry bound)
  global name := by
    rw [Scopes.valueIn?_push, if_neg stored.next_ne_globals.symm]
    exact stored.global name
  outermost := by
    rw [Scopes.enclosing?_push, if_neg stored.next_ne_globals.symm]
    exact stored.outermost
  nonempty := by simp [Scopes.push]

/-- A name gets its slot before it has a value, so where a value is found the slot is an old one. -/
theorem old_slot {index : Nat} (stored : Stored slots scopes store globals) (apart : scope ≠ Heap.globals)
    (fresh : ∀ index : Nat, slots[index]? ≠ some (scope, name))
    (found : (newSlots slots scope [name])[index]? = some (target, wanted))
    (bound : scopes.valueIn? target wanted = some value) : slots[index]? = some (target, wanted) := by
  rcases newSlots_found found with old | ⟨rfl, offset, rfl, new⟩
  · exact old
  · have same := List.mem_of_getElem? new
    simp only [List.mem_singleton] at same
    subst same
    obtain ⟨index, found⟩ := stored.slotted apart (Option.isSome_of_eq_some bound)
    exact absurd found (fresh index)

/-- A location of its own for a name that its scope does not bind yet. -/
theorem declare (stored : Stored slots scopes store globals) (apart : scope ≠ Heap.globals)
    (known : scope.index < scopes.cells.size)
    (fresh : ∀ index : Nat, slots[index]? ≠ some (scope, name)) (value : Value) :
    Stored (newSlots slots scope [name]) scopes (store ++ [value].toArray) globals where
  counted := by simp [newSlots, stored.counted]
  agrees found bound := getElem?_append_old (stored.agrees (stored.old_slot apart fresh found bound) bound)
  injective := stored.injective_newSlots (by simp) fun index other member found => by
    simp only [List.mem_singleton] at member
    subst member
    exact fresh index found
  inner := by
    intro index target wanted found
    rcases newSlots_found found with old | ⟨rfl, _, _, _⟩
    · exact stored.inner old
    · exact ⟨apart, known⟩
  slotted := by
    intro target wanted apart bound
    obtain ⟨index, found⟩ := stored.slotted apart bound
    exact ⟨index, getElem?_append_old found⟩
  holds found bound := stored.holds (stored.old_slot apart fresh found bound) bound
  global := stored.global
  outermost := stored.outermost
  nonempty := stored.nonempty

/-- Writing a slot and its location. -/
theorem write (stored : Stored slots scopes store globals)
    (slot : slots[index]? = some (scope, name)) (holds : Holds name value) :
    Stored slots (scopes.define scope name value) (store.setIfInBounds index value) globals where
  counted := by simp [stored.counted]
  agrees := by
    intro other target wanted held found bound
    rw [Scopes.valueIn?_define _ _ _ _ _ _ (stored.inner slot).2] at bound
    have inside := (Array.getElem?_eq_some_iff.mp slot).1
    rw [stored.counted] at inside
    rw [Array.getElem?_setIfInBounds]
    split at bound
    · rename_i same
      obtain ⟨rfl, rfl⟩ := same
      cases bound
      rw [if_pos (stored.injective slot found), if_pos inside]
    · rename_i different
      have apart : index ≠ other := by
        rintro rfl
        cases slot.symm.trans found
        exact different ⟨rfl, rfl⟩
      rw [if_neg apart]
      exact stored.agrees found bound
  injective := stored.injective
  inner := by
    intro other target wanted found
    simpa [Scopes.define] using stored.inner found
  slotted := by
    intro target wanted apart bound
    rw [Scopes.valueIn?_define _ _ _ _ _ _ (stored.inner slot).2] at bound
    split at bound
    · rename_i same
      obtain ⟨rfl, rfl⟩ := same
      exact ⟨index, slot⟩
    · exact stored.slotted apart bound
  holds := by
    intro other target wanted held found bound
    rw [Scopes.valueIn?_define _ _ _ _ _ _ (stored.inner slot).2] at bound
    split at bound
    · rename_i same
      obtain ⟨rfl, rfl⟩ := same
      cases bound
      exact holds
    · exact stored.holds found bound
  global wanted := by
    rw [Scopes.valueIn?_define _ _ _ _ _ _ (stored.inner slot).2,
      if_neg fun same => (stored.inner slot).1 same.1]
    exact stored.global wanted
  outermost := by
    rw [Scopes.enclosing?_define]
    exact stored.outermost
  nonempty := by simpa [Scopes.define] using stored.nonempty

theorem valueIn?_define_globals (stored : Stored slots scopes store globals) :
    (scopes.define Heap.globals name value).valueIn? scope wanted =
      if Heap.globals = scope ∧ wanted = name then some value
      else scopes.valueIn? scope wanted :=
  Scopes.valueIn?_define _ _ _ _ _ _ stored.nonempty

theorem writeGlobal (stored : Stored slots scopes store globals) (name : String) (value : Value) :
    Stored slots (scopes.define Heap.globals name value) store (globals.insert name value) where
  counted := stored.counted
  agrees := by
    intro index target wanted held found bound
    rw [stored.valueIn?_define_globals,
      if_neg fun same => (stored.inner found).1 same.1.symm] at bound
    exact stored.agrees found bound
  injective := stored.injective
  inner := by
    intro index target wanted found
    simpa [Scopes.define] using stored.inner found
  slotted := by
    intro target wanted apart bound
    rw [stored.valueIn?_define_globals,
      if_neg fun same => apart same.1.symm] at bound
    exact stored.slotted apart bound
  holds := by
    intro index target wanted held found bound
    rw [stored.valueIn?_define_globals,
      if_neg fun same => (stored.inner found).1 same.1.symm] at bound
    exact stored.holds found bound
  global wanted := by
    rw [stored.valueIn?_define_globals, Bindings.find?_insert]
    by_cases same : wanted = name <;> simp [same, stored.global]
  outermost := by
    rw [Scopes.enclosing?_define]
    exact stored.outermost
  nonempty := by simpa [Scopes.define] using stored.nonempty

end Stored

end Lexical

end Lox
