import Lox.Proofs.Heap.Founded

/-! Chains of links. Outward from a scope and upward from a class there are older and older ones up to a
last one, and what is looked for on the way is looked for in these, in order. -/

namespace Lox

/-- What is reached link by link, up to where no link leads on. -/
inductive Chain {α : Type} (link : α → Option α) : α → List α → Prop where
  | last (ended : link here = none) : Chain link here [here]
  | next (linked : link here = some there) (rest : Chain link there chain) :
      Chain link here (here :: chain)

namespace Chain

variable {α : Type} {link : α → Option α}

/-- Links along which a rank decreases lead to an end. -/
theorem exists_of_decreasing (rank : α → Nat)
    (decreasing : ∀ {here there}, link here = some there → rank there < rank here) (here : α) :
    ∃ chain, Chain link here chain := by
  -- The induction is on the rank, since a link may lead to any lower one.
  induction bound : rank here using Nat.strongRecOn generalizing here with
  | ind _ ih =>
    cases linked : link here with
    | none => exact ⟨[here], .last linked⟩
    | some there =>
      obtain ⟨chain, rest⟩ := ih (rank there) (bound ▸ decreasing linked) there rfl
      exact ⟨here :: chain, .next linked rest⟩

variable {rank : α → Nat} {here : α} {chain : List α}
  (decreasing : ∀ {here there}, link here = some there → rank there < rank here)

include decreasing

theorem rank_le (along : Chain link here chain) (member : other ∈ chain) : rank other ≤ rank here := by
  induction along with
  | last => exact Nat.le_of_eq (congrArg rank (List.mem_singleton.mp member))
  | next linked _ ih =>
    rcases List.mem_cons.mp member with rfl | member
    · exact Nat.le_refl _
    · exact Nat.le_trans (ih member) (Nat.le_of_lt (decreasing linked))

theorem older (along : Chain link here chain) :
    chain.Pairwise fun nearer farther => rank farther < rank nearer := by
  induction along with
  | last => exact List.pairwise_singleton ..
  | next linked rest ih =>
    refine List.pairwise_cons.mpr ⟨?_, ih⟩
    intro other member
    exact Nat.lt_of_le_of_lt (rest.rank_le decreasing member) (decreasing linked)

end Chain

namespace Scopes

/-- The scopes outward from one, each older than those before it. What is looked for outward is looked for
in these. -/
structure Outward (scopes : Scopes) (scope : ScopeRef) (chain : List ScopeRef) : Prop where
  linked : Chain scopes.enclosing? scope chain
  older : chain.Pairwise fun inner outer => outer.index < inner.index
  nearest : ∀ name, scopes.nearest? scope name =
    chain.find? fun scope => (scopes.valueIn? scope name).isSome
  lookup : ∀ name, scopes.lookup? scope name = chain.findSome? (scopes.valueIn? · name)
  assign : ∀ name value, scopes.assign? scope name value =
    (chain.find? fun scope => (scopes.valueIn? scope name).isSome).map (scopes.define · name value)
  ancestor : ∀ distance, scopes.ancestor? scope distance = chain[distance]?

variable {scopes : Scopes} {scope : ScopeRef} {chain : List ScopeRef}

/-- The bound on the search never cuts it short. -/
theorem nearestWithin?_eq_find?
    (nested : ∀ {scope outer}, scopes.enclosing? scope = some outer → outer.index < scope.index)
    (along : Chain scopes.enclosing? scope chain) (name : String) (bound : Nat)
    (inside : scope.index < bound) : scopes.nearestWithin? name bound scope =
      chain.find? fun scope => (scopes.valueIn? scope name).isSome := by
  induction along generalizing bound with
  | last ended =>
    obtain ⟨bound, rfl⟩ := Nat.exists_eq_add_of_lt (Nat.zero_lt_of_lt inside)
    simp only [Nat.zero_add, nearestWithin?, ended, Option.bind_none, List.find?_singleton]
  | next linked rest ih =>
    obtain ⟨bound, rfl⟩ := Nat.exists_eq_add_of_lt (Nat.zero_lt_of_lt inside)
    have older := nested linked
    simp only [Nat.zero_add, nearestWithin?, linked, Option.bind_some, List.find?_cons,
      ih bound (by omega)]
    cases (scopes.valueIn? _ name).isSome <;> rfl

theorem ancestor?_eq_getElem? (along : Chain scopes.enclosing? scope chain) (distance : Nat) :
    scopes.ancestor? scope distance = chain[distance]? := by
  induction along generalizing distance with
  | last ended => cases distance <;> simp [ancestor?, ended]
  | next linked rest ih =>
    cases distance with
    | zero => rfl
    | succ distance => simp [ancestor?, linked, ih]

theorem find?_bind_valueIn? (scopes : Scopes) (name : String) (chain : List ScopeRef) :
    (chain.find? fun scope => (scopes.valueIn? scope name).isSome).bind (scopes.valueIn? · name) =
      chain.findSome? (scopes.valueIn? · name) := by
  induction chain with
  | nil => rfl
  | cons first rest ih =>
    simp only [List.find?_cons, List.findSome?_cons]
    cases held : scopes.valueIn? first name with
    | none => simpa [held] using ih
    | some value => simp [held]

theorem exists_outward
    (nested : ∀ {scope outer}, scopes.enclosing? scope = some outer → outer.index < scope.index)
    (inside : scope.index < scopes.cells.size) : ∃ chain, scopes.Outward scope chain := by
  obtain ⟨chain, along⟩ := Chain.exists_of_decreasing ScopeRef.index nested scope
  have nearest (name : String) := nearestWithin?_eq_find? nested along name _ inside
  exact ⟨chain, {
    linked := along
    older := along.older nested
    nearest := nearest
    lookup := fun name => by rw [← find?_bind_valueIn?, ← nearest]; rfl
    assign := fun name value => by rw [← nearest]; rfl
    ancestor := ancestor?_eq_getElem? along }⟩

end Scopes

namespace Heap

/-- The classes upward from one, each older than those before it. A method is looked for in these. -/
structure Upward (heap : Heap) (ref : ClassRef) (chain : List ClassRef) : Prop where
  linked : Chain (fun ref => (heap.classAt ref).superclass) ref chain
  older : chain.Pairwise fun lower upper => upper.index < lower.index
  method : ∀ name, heap.method? ref name =
    chain.findSome? fun ref => (heap.classAt ref).methods.find? name

/-- Links lead to what is older, and ways along them end. -/
structure Acyclic (heap : Heap) : Prop where
  nested : ∀ {scope outer}, heap.scopes.enclosing? scope = some outer → outer.index < scope.index
  ranked : ∀ {ref parent}, (heap.classAt ref).superclass = some parent → parent.index < ref.index
  outward : ∀ scope, scope.index < heap.scopes.cells.size → ∃ chain, heap.scopes.Outward scope chain
  upward : ∀ ref, ref.index < heap.classes.size → ∃ chain, heap.Upward ref chain

variable {heap : Heap} {ref : ClassRef} {chain : List ClassRef}

theorem methodWithin?_eq_findSome? (ranked : heap.Ranked)
    (along : Chain (fun ref => (heap.classAt ref).superclass) ref chain) (name : String) (bound : Nat)
    (inside : ref.index < bound) : heap.methodWithin? name bound ref =
      chain.findSome? fun ref => (heap.classAt ref).methods.find? name := by
  induction along generalizing bound with
  | last ended =>
    obtain ⟨bound, rfl⟩ := Nat.exists_eq_add_of_lt (Nat.zero_lt_of_lt inside)
    simp only [Nat.zero_add, methodWithin?, ended, Option.bind_none, List.findSome?_singleton]
    cases (heap.classAt _).methods.find? name <;> rfl
  | next linked rest ih =>
    obtain ⟨bound, rfl⟩ := Nat.exists_eq_add_of_lt (Nat.zero_lt_of_lt inside)
    have older := ranked _ _ linked
    simp only [Nat.zero_add, methodWithin?, linked, Option.bind_some, List.findSome?_cons,
      ih bound (by omega)]
    cases (heap.classAt _).methods.find? name <;> rfl

theorem exists_upward (ranked : heap.Ranked) (inside : ref.index < heap.classes.size) :
    ∃ chain, heap.Upward ref chain := by
  obtain ⟨chain, along⟩ := Chain.exists_of_decreasing ClassRef.index (ranked _ _) ref
  exact ⟨chain, along, along.older (ranked _ _), fun name =>
    methodWithin?_eq_findSome? ranked along name _ inside⟩

theorem Founded.acyclic (founded : heap.Founded) : heap.Acyclic where
  nested := founded.nested
  ranked := founded.closed.ranked _ _
  outward _ := Scopes.exists_outward founded.nested
  upward _ := exists_upward founded.closed.ranked

end Heap

end Lox
