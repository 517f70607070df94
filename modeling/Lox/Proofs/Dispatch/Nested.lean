import Lox.Proofs.Heap.Later
import Lox.Proofs.Scope.Fits

/-! Chains of scopes with the class to which the code in them belongs. The scope in which a method is
bound holds an instance of the class or of one that inherits from it, and around it a class with a
superclass has a scope that holds the superclass. -/

namespace Lox

/-- The nearest scope outward that binds a name. -/
inductive Scopes.Nearest (scopes : Scopes) (name : String) : ScopeRef → ScopeRef → Prop where
  | here (bound : (scopes.valueIn? scope name).isSome) : Nearest scopes name scope scope
  | outward (free : scopes.valueIn? scope name = none) (link : scopes.enclosing? scope = some outer)
      (around : Nearest scopes name outer target) : Nearest scopes name scope target

namespace Heap

/-- The scope in which all methods of a class were declared. -/
structure Houses (heap : Heap) (home : ScopeRef) (owner : ClassRef) : Prop where
  known : owner.index < heap.classes.size
  closes : ∀ {name method}, (heap.classAt owner).methods.find? name = some method →
    method.scope = home

/-- What `this` denotes in a scope: the nearest scope that binds it binds it to the instance and stands
right inside that in which the methods of the class were declared. -/
structure Denotes (heap : Heap) (scope : ScopeRef) (receiver : InstanceRef) (owner : ClassRef)
    (inner home : ScopeRef) : Prop where
  nearest : heap.scopes.Nearest "this" scope inner
  bound : heap.scopes.valueIn? inner "this" = some (.object receiver)
  link : heap.scopes.enclosing? inner = some home
  houses : heap.Houses home owner

/-- A chain of scopes from the given one outward, beside the scopes of the analysis, and the class whose
declaration is the nearest one around. -/
inductive Nested (heap : Heap) : Scoping → ScopeRef → Option ClassRef → Prop where
  | globals : Nested heap [] Heap.globals none
  | inside {inner : Bindings Bool} (link : heap.scopes.enclosing? scope = some outer)
      (plain : inner.contains "this" = false ∧ inner.contains "super" = false)
      (free : heap.scopes.valueIn? scope "this" = none)
      (around : Nested heap scoping outer owner) : Nested heap (inner :: scoping) scope owner
  | base {inner : Bindings Bool} (link : heap.scopes.enclosing? scope = some outer)
      (declares : inner.contains "this" = true ∧ inner.contains "super" = false)
      (this : heap.scopes.valueIn? scope "this" = some (.object receiver))
      (isA : heap.IsA receiver owner) (houses : heap.Houses outer owner)
      (around : Nested heap scoping outer other) : Nested heap (inner :: scoping) scope (some owner)
  | derived {inner : Bindings Bool} (link : heap.scopes.enclosing? scope = some middle)
      (declares : inner.contains "this" = true ∧ inner.contains "super" = false)
      (this : heap.scopes.valueIn? scope "this" = some (.object receiver))
      (isA : heap.IsA receiver owner) (houses : heap.Houses middle owner)
      (link' : heap.scopes.enclosing? middle = some outer)
      (declares' : next.contains "super" = true)
      (super : heap.scopes.valueIn? middle "super" = some (.callable (.ofClass parent)))
      (superclass : (heap.classAt owner).superclass = some parent)
      (around : Nested heap scoping outer other) :
      Nested heap (inner :: next :: scoping) scope (some owner)

/-- The scope in which the methods of a class are declared, beside the scopes of the analysis around
that in which they are bound. -/
inductive Home (heap : Heap) (owner : ClassRef) : Scoping → ScopeRef → Prop where
  | base (around : Nested heap scoping scope other) : Home heap owner scoping scope
  | derived (link : heap.scopes.enclosing? scope = some outer)
      (super : heap.scopes.valueIn? scope "super" = some (.callable (.ofClass parent)))
      (superclass : (heap.classAt owner).superclass = some parent)
      (around : Nested heap scoping outer other) :
      Home heap owner (Scoping.frame ["super"] :: scoping) scope

variable {heap heap' : Heap} {scoping : Scoping} {scope : ScopeRef} {owner : Option ClassRef}

theorem Houses.later {home : ScopeRef} {owner : ClassRef} (houses : heap.Houses home owner)
    (later : heap.Later heap') : heap'.Houses home owner where
  known := Nat.lt_of_lt_of_le houses.known later.classes
  closes := by
    rw [later.classAt houses.known]
    exact houses.closes

theorem Nested.later (nested : Nested heap scoping scope owner) (later : heap.Later heap') :
    Nested heap' scoping scope owner := by
  induction nested with
  | globals => exact .globals
  | inside link plain free _ ih =>
    exact .inside (later.nested link) plain ((later.receivers link (.inl rfl)).trans free) ih
  | base link declares this isA houses _ ih =>
    exact .base (later.nested link) declares ((later.receivers link (.inl rfl)).trans this)
      (isA.later later) (houses.later later) ih
  | derived link declares this isA houses link' declares' super superclass _ ih =>
    exact .derived (later.nested link) declares ((later.receivers link (.inl rfl)).trans this)
      (isA.later later) (houses.later later) (later.nested link') declares'
      ((later.receivers link' (.inr rfl)).trans super) (later.superclass superclass) ih

theorem Home.later {owner : ClassRef} (home : Home heap owner scoping scope)
    (later : heap.Later heap') : Home heap' owner scoping scope := by
  cases home with
  | base around => exact .base (around.later later)
  | derived link super superclass around =>
    exact .derived (later.nested link) ((later.receivers link (.inr rfl)).trans super)
      (later.superclass superclass) (around.later later)

/-- Declaring an ordinary name changes nothing that classes bind. -/
theorem Nested.bind {name : Name} (nested : Nested heap scoping scope owner) (plain : name.Plain)
    (ready : Bool) : Nested heap (scoping.bind name.text ready) scope owner := by
  have same (inner : Bindings Bool) (wanted : String) (different : name.text ≠ wanted) :
      (inner.insert name.text ready).contains wanted = inner.contains wanted := by
    rw [Bindings.contains_insert]
    simp [different.symm]
  cases nested with
  | globals => exact .globals
  | inside link declares free around =>
    refine .inside link ?_ free around
    rwa [same _ _ plain.ne_this, same _ _ plain.ne_super]
  | base link declares this isA houses around =>
    refine .base link ?_ this isA houses around
    rwa [same _ _ plain.ne_this, same _ _ plain.ne_super]
  | derived link declares this isA houses link' declares' super superclass around =>
    refine .derived link ?_ this isA houses link' declares' super superclass around
    rwa [same _ _ plain.ne_this, same _ _ plain.ne_super]

theorem Nested.after {stmt : Stmt} (nested : Nested heap scoping scope owner)
    (plain : ∀ name ∈ stmt.introduces, name.Plain) :
    Nested heap (scoping.after stmt) scope owner := by
  unfold Scoping.after
  split
  · rename_i name introduces
    exact nested.bind (plain name introduces) true
  · exact nested

/-- A scope for ordinary names. -/
theorem Nested.enter {inner : ScopeRef} {names : List Name} (nested : Nested heap scoping scope owner)
    (plain : ∀ name ∈ names, name.Plain) (link : heap.scopes.enclosing? inner = some scope)
    (free : heap.scopes.valueIn? inner "this" = none) :
    Nested heap (Scoping.frame (names.map (·.text)) :: scoping) inner owner := by
  refine .inside link ⟨?_, ?_⟩ free nested <;>
    · simp only [Scoping.contains_frame, decide_eq_false_iff_not, List.mem_map]
      rintro ⟨name, member, same⟩
      first
      | exact (plain name member).ne_this same
      | exact (plain name member).ne_super same

/-- Binding a method to an instance makes the scope for code of the class. -/
theorem Home.enter {owner : ClassRef} {inner : ScopeRef} {receiver : InstanceRef}
    (home : Home heap owner scoping scope) (houses : heap.Houses scope owner)
    (isA : heap.IsA receiver owner) (link : heap.scopes.enclosing? inner = some scope)
    (this : heap.scopes.valueIn? inner "this" = some (.object receiver)) :
    Nested heap (Scoping.frame ["this"] :: scoping) inner (some owner) := by
  have declares : (Scoping.frame ["this"]).contains "this" = true ∧
      (Scoping.frame ["this"]).contains "super" = false := by
    simp [Scoping.contains_frame]
  cases home with
  | base around => exact .base link declares this isA houses around
  | derived link' super superclass around =>
    refine .derived link declares this isA houses link' ?_ super superclass around
    simp [Scoping.contains_frame]

theorem Nested.super_ne_zero (nested : Nested heap scoping scope owner) :
    scoping.distance? "super" ≠ some 0 := by
  cases nested with
  | globals => exact nofun
  | inside _ plain => simp [Scoping.distance?_cons, plain.2]
  | base _ declares => simp [Scoping.distance?_cons, declares.2]
  | derived _ declares => simp [Scoping.distance?_cons, declares.2]

/-- Where `this` is declared it denotes an instance of the class around or of one that inherits from
it. -/
theorem Nested.this (nested : Nested heap scoping scope owner)
    (declared : scoping.distance? "this" = some distance) :
    ∃ around receiver inner home, owner = some around ∧
      heap.scopes.lookupAt? scope distance "this" = some (.object receiver) ∧
      heap.Denotes scope receiver around inner home ∧ heap.IsA receiver around := by
  induction nested generalizing distance with
  | globals => cases declared
  | inside link plain free _ ih =>
    rw [Scoping.distance?_cons, plain.1] at declared
    obtain ⟨further, outside, rfl⟩ := Option.map_eq_some_iff.mp declared
    obtain ⟨around, receiver, inner, home, same, found, denotes, isA⟩ := ih outside
    refine ⟨around, receiver, inner, home, same, ?_,
      { denotes with nearest := .outward free link denotes.nearest }, isA⟩
    simpa [Scopes.lookupAt?, Scopes.ancestor?, link] using found
  | base link declares this isA houses _ _ =>
    rw [Scoping.distance?_cons, declares.1] at declared
    cases declared
    exact ⟨_, _, _, _, rfl, this, ⟨.here (Option.isSome_of_eq_some this), this, link, houses⟩, isA⟩
  | derived link declares this isA houses _ _ _ _ _ _ =>
    rw [Scoping.distance?_cons, declares.1] at declared
    cases declared
    exact ⟨_, _, _, _, rfl, this, ⟨.here (Option.isSome_of_eq_some this), this, link, houses⟩, isA⟩

/-- Where `super` is declared right around `this` it is bound to the superclass of the class around. -/
theorem Nested.super (nested : Nested heap scoping scope owner)
    (this : scoping.distance? "this" = some distance)
    (super : scoping.distance? "super" = some (distance + 1)) :
    ∃ around parent, owner = some around ∧ (heap.classAt around).superclass = some parent ∧
      heap.scopes.lookupAt? scope (distance + 1) "super" = some (.callable (.ofClass parent)) := by
  induction nested generalizing distance with
  | globals => cases this
  | inside link plain free _ ih =>
    rw [Scoping.distance?_cons, plain.1] at this
    rw [Scoping.distance?_cons, plain.2] at super
    obtain ⟨further, outside, rfl⟩ := Option.map_eq_some_iff.mp this
    obtain ⟨_, outside', same⟩ := Option.map_eq_some_iff.mp super
    cases same
    obtain ⟨around, parent, same, superclass, found⟩ := ih outside outside'
    refine ⟨around, parent, same, superclass, ?_⟩
    simpa [Scopes.lookupAt?, Scopes.ancestor?, link] using found
  | base link declares _ _ _ around _ =>
    rw [Scoping.distance?_cons, declares.1] at this
    rw [Scoping.distance?_cons, declares.2] at super
    cases this
    obtain ⟨further, outside, same⟩ := Option.map_eq_some_iff.mp super
    cases same
    exact absurd outside around.super_ne_zero
  | derived link declares _ _ _ _ _ super' superclass _ _ =>
    rw [Scoping.distance?_cons, declares.1] at this
    cases this
    refine ⟨_, _, rfl, superclass, ?_⟩
    simpa [Scopes.lookupAt?, Scopes.ancestor?, link] using super'

end Heap

end Lox
