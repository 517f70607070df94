import Lox.Proofs.Lexical.Basic
import Lox.Proofs.Scope.Addressed
import Lox.Proofs.Tables

/-! Environments beside chains of scopes. Each location of the store has a slot, which is a name in
one scope. A chain of scopes is linked to an environment if the names that the analysis knows in each
scope have locations with slots in that scope. What a chain may gain, be it names in its scopes or
whole scopes elsewhere, does not unlink it. -/

namespace Lox

namespace Scopes

theorem valueIn?_push (scopes : Scopes) (bindings : Bindings Value) (enclosing : Option ScopeRef)
    (scope : ScopeRef) (name : String) :
    (scopes.push bindings enclosing).valueIn? scope name =
      if scope = scopes.next then bindings.find? name else scopes.valueIn? scope name := by
  unfold valueIn?
  rw [cells_push]
  split <;> rfl

theorem enclosing?_push (scopes : Scopes) (bindings : Bindings Value)
    (enclosing : Option ScopeRef) (scope : ScopeRef) :
    (scopes.push bindings enclosing).enclosing? scope =
      if scope = scopes.next then enclosing else scopes.enclosing? scope := by
  unfold enclosing?
  rw [cells_push]
  split <;> rfl

theorem valueIn?_next (scopes : Scopes) (name : String) :
    scopes.valueIn? scopes.next name = none := by
  simp [valueIn?, next]

theorem enclosing?_next (scopes : Scopes) : scopes.enclosing? scopes.next = none := by
  simp [enclosing?, next]

end Scopes

namespace Lexical

abbrev Slot := ScopeRef × String

/-- The slots of the locations of a store. -/
abbrev Slots := Array Slot

/-- What evaluation does to scopes and slots. Only the scope given as `here`, if any, and new scopes
get new slots. -/
structure Grows (here : Option ScopeRef) (slots : Slots) (scopes : Scopes) (slots' : Slots)
    (scopes' : Scopes) : Prop where
  kept : ∀ {index : Nat} {slot}, slots[index]? = some slot → slots'[index]? = some slot
  added : ∀ {index : Nat} {scope name}, slots'[index]? = some (scope, name) →
    slots[index]? = some (scope, name) ∨ some scope = here ∨ scopes.cells.size ≤ scope.index
  nested : ∀ {scope outer}, scopes.enclosing? scope = some outer →
    scopes'.enclosing? scope = some outer
  bound : ∀ {scope name}, (scopes.valueIn? scope name).isSome →
    (scopes'.valueIn? scope name).isSome
  longer : scopes.cells.size ≤ scopes'.cells.size

namespace Grows

theorem refl : Grows here slots scopes slots scopes :=
  ⟨id, .inl, id, id, Nat.le_refl _⟩

theorem trans (before : Grows here slots scopes slots' scopes')
    (after : Grows here slots' scopes' slots'' scopes'') :
    Grows here slots scopes slots'' scopes'' where
  kept found := after.kept (before.kept found)
  added found := by
    rcases after.added found with found | own | new
    · exact before.added found
    · exact .inr (.inl own)
    · exact .inr (.inr (Nat.le_trans before.longer new))
  nested link := after.nested (before.nested link)
  bound value := after.bound (before.bound value)
  longer := Nat.le_trans before.longer after.longer

theorem anywhere (grows : Grows none slots scopes slots' scopes') :
    Grows here slots scopes slots' scopes' where
  kept := grows.kept
  added found := by
    rcases grows.added found with found | own | new
    · exact .inl found
    · cases own
    · exact .inr (.inr new)
  nested := grows.nested
  bound := grows.bound
  longer := grows.longer

/-- What happens in a scope that is new happens nowhere in the scopes of before. -/
theorem inside (grows : Grows (some scope) slots scopes slots' scopes')
    (before : Grows none former scopesBefore slots scopes)
    (new : scopesBefore.cells.size ≤ scope.index) :
    Grows none former scopesBefore slots' scopes' where
  kept found := grows.kept (before.kept found)
  added found := by
    rcases grows.added found with found | own | later
    · exact before.added found
    · cases own
      exact .inr (.inr new)
    · exact .inr (.inr (Nat.le_trans before.longer later))
  nested link := grows.nested (before.nested link)
  bound value := grows.bound (before.bound value)
  longer := Nat.le_trans before.longer grows.longer

end Grows

/-- A chain of scopes from the given one outward, beside the scopes of the analysis and an
environment. A name that the analysis takes to be ready is bound. -/
inductive Linked (slots : Slots) (scopes : Scopes) :
    Scoping → ScopeRef → Environment → Prop where
  | globals : Linked slots scopes [] Heap.globals []
  | inside {inner : Bindings Bool} (nested : scopes.enclosing? scope = some outer)
      (apart : scope ≠ Heap.globals)
      (names : ∀ name, (Environment.find? own name).isSome = inner.contains name)
      (placed : ∀ name location, Environment.find? own name = some location →
        slots[location.index]? = some (scope, name))
      (bound : ∀ name, inner.find? name = some true → (scopes.valueIn? scope name).isSome)
      (around : Linked slots scopes rest outer environment) :
      Linked slots scopes (inner :: rest) scope (own ++ environment)

theorem Environment.find?_append (own environment : Environment) (name : String) :
    find? (own ++ environment) name = (own.find? name).or (environment.find? name) :=
  Bindings.findEntry?_append name own environment

theorem Linked.grow (linked : Linked slots scopes scoping scope environment)
    (grows : Grows here slots scopes slots' scopes') :
    Linked slots' scopes' scoping scope environment := by
  induction linked with
  | globals => exact .globals
  | inside nested apart names placed bound _ ih =>
    exact .inside (grows.nested nested) apart names
      (fun name location found => grows.kept (placed name location found))
      (fun name ready => grows.bound (bound name ready)) ih

/-- What the distance of a name leads to in a linked chain. -/
structure Reaches (slots : Slots) (scopes : Scopes) (scope : ScopeRef) (environment : Environment)
    (name : String) (distance : Nat) (target : ScopeRef) (location : Location) : Prop where
  ancestor : scopes.ancestor? scope distance = some target
  found : environment.find? name = some location
  slot : slots[location.index]? = some (target, name)

theorem Linked.reaches (linked : Linked slots scopes scoping scope environment)
    (declared : scoping.distance? name = some distance) :
    ∃ target location, Reaches slots scopes scope environment name distance target location ∧
      (scoping.find? name ≠ some false → (scopes.valueIn? target name).isSome) := by
  induction linked generalizing distance with
  | globals => simp [Scoping.distance?] at declared
  | inside nested apart names placed bound _ ih =>
    rename_i scope outer own rest environment inner _
    rw [Scoping.distance?_cons] at declared
    split at declared
    · rename_i contains
      cases declared
      obtain ⟨location, found⟩ := Option.isSome_iff_exists.mp ((names name).trans contains)
      refine ⟨scope, location, ⟨rfl, ?_, placed name location found⟩, fun ready => ?_⟩
      · rw [Environment.find?_append, found, Option.some_or]
      · obtain ⟨value, known⟩ := Option.isSome_iff_exists.mp contains
        rw [Scoping.find?, known, Option.some_or] at ready
        exact bound name (known.trans (by cases value <;> simp_all))
    · rename_i absent
      obtain ⟨later, found, rfl⟩ := Option.map_eq_some_iff.mp declared
      obtain ⟨target, location, reached, bound⟩ := ih found
      have missing : own.find? name = none := by
        simpa [absent] using names name
      have unknown : inner.find? name = none := by
        simpa [Bindings.contains] using absent
      refine ⟨target, location, ⟨?_, ?_, reached.slot⟩, ?_⟩
      · simp only [Scopes.ancestor?, nested, Option.bind_some]
        exact reached.ancestor
      · rw [Environment.find?_append, missing, Option.none_or]
        exact reached.found
      · rw [Scoping.find?, unknown, Option.none_or]
        exact bound

/-- A name without a distance is in no environment. -/
theorem Linked.absent (linked : Linked slots scopes scoping scope environment)
    (undeclared : scoping.distance? name = none) : environment.find? name = none := by
  induction linked with
  | globals => rfl
  | inside nested apart names placed bound _ ih =>
    rename_i own rest environment inner _
    rw [Scoping.distance?_cons] at undeclared
    split at undeclared
    · cases undeclared
    · rename_i absent
      have missing : own.find? name = none := by
        simpa [absent] using names name
      rw [Environment.find?_append, missing, Option.none_or]
      exact ih (Option.map_eq_none_iff.mp undeclared)

end Lexical

end Lox
