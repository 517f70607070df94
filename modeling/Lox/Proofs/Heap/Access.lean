import Lox.Proofs.Heap.Chains
import Lox.Proofs.Heap.Populated
import Lox.Proofs.Lexical.Linked
import Lox.Proofs.Machine.Along
import Lox.Proofs.Machine.Names
import Lox.Proofs.Trace.Basic

/-! Names found by search and names found by distance. Both ways lead from a scope to a slot, which is a
name in one scope. Whatever was done with the scopes before, the search leads to the nearest scope that
binds the name, and a write is seen along the ways to its slot and along no other. -/

namespace Lox

/-- A chain has a last element, from which no link leads on. -/
theorem Chain.exists_last {α : Type} {link : α → Option α} {here : α} {chain : List α}
    (along : Chain link here chain) :
    ∃ final, chain[chain.length - 1]? = some final ∧ link final = none := by
  induction along with
  | last ended => exact ⟨_, rfl, ended⟩
  | next _ rest ih =>
    obtain ⟨final, there, ended⟩ := ih
    refine ⟨final, ?_, ended⟩
    cases rest <;> simpa using there

namespace Scopes

/-- What can be done with scopes. -/
inductive Operation where
  | root
  | child (enclosing : ScopeRef)
  | define (scope : ScopeRef) (name : String) (value : Value)
  | assign (scope : ScopeRef) (name : String) (value : Value)
  | assignAt (scope : ScopeRef) (distance : Nat) (name : String) (value : Value)

/-- The scope that an operation starts from, if it needs one. -/
def Operation.origin? : Operation → Option ScopeRef
  | .root => none
  | .child scope | .define scope _ _ | .assign scope _ _ | .assignAt scope _ _ _ => some scope

def Operation.value? : Operation → Option Value
  | .root | .child _ => none
  | .define _ _ value | .assign _ _ value | .assignAt _ _ _ value => some value

/-- The scopes after an operation that succeeds. None does that starts from a scope that there is not. -/
def perform? (scopes : Scopes) (operation : Operation) : Option Scopes :=
  if ∀ scope ∈ operation.origin?, scope.index < scopes.cells.size then
    match operation with
    | .root => some (scopes.push .empty none)
    | .child enclosing => some (scopes.push .empty (some enclosing))
    | .define scope name value => some (scopes.define scope name value)
    | .assign scope name value => scopes.assign? scope name value
    | .assignAt scope distance name value => scopes.assignAt? scope distance name value
  else none

/-- The scopes after operations, of which those that fail change nothing. -/
def performAll (scopes : Scopes) : List Operation → Scopes
  | [] => scopes
  | first :: rest => ((scopes.perform? first).getD scopes).performAll rest

/-- The ways from a scope to a name. -/
inductive Access where
  | search (scope : ScopeRef) (name : String)
  | direct (scope : ScopeRef) (distance : Nat) (name : String)

/-- The slot that a way leads to. -/
def slot? (scopes : Scopes) : Access → Option (ScopeRef × String)
  | .search scope name => (scopes.nearest? scope name).map (·, name)
  | .direct scope distance name => (scopes.ancestor? scope distance).map (·, name)

def read? (scopes : Scopes) : Access → Option Value
  | .search scope name => scopes.lookup? scope name
  | .direct scope distance name => scopes.lookupAt? scope distance name

/-- The slot that an operation writes. -/
def target? (scopes : Scopes) : Operation → Option (ScopeRef × String)
  | .root | .child _ => none
  | .define scope name _ => some (scope, name)
  | .assign scope name _ => scopes.slot? (.search scope name)
  | .assignAt scope distance name _ => scopes.slot? (.direct scope distance name)

/-- The scope at a distance binds a name and no nearer one does. -/
structure BindsFirst (scopes : Scopes) (scope : ScopeRef) (distance : Nat) (name : String) : Prop where
  bound : ∃ value, scopes.Binds scope distance name value
  least : ∀ nearer < distance, ∀ value, ¬ scopes.Binds scope nearer name value

/-- What is found from a scope by search is what is found at the least distance, and beyond the outermost
scope nothing is found or written. -/
structure Searched (scopes : Scopes) (scope : ScopeRef) : Prop where
  read : ∀ {distance name}, scopes.BindsFirst scope distance name →
    scopes.lookup? scope name = scopes.lookupAt? scope distance name
  missing : ∀ name, scopes.lookup? scope name = none ↔
    ∀ distance value, ¬ scopes.Binds scope distance name value
  assignable : ∀ name value,
    (scopes.assign? scope name value).isSome = (scopes.lookup? scope name).isSome
  assign : ∀ {distance name}, scopes.BindsFirst scope distance name → ∀ value,
    scopes.assign? scope name value = scopes.assignAt? scope distance name value
  beyond : ∃ depth, (∃ root, scopes.ancestor? scope depth = some root ∧ scopes.enclosing? root = none) ∧
    ∀ distance, depth < distance → scopes.ancestor? scope distance = none ∧
      ∀ name, scopes.lookupAt? scope distance name = none ∧
        ∀ value, scopes.assignAt? scope distance name value = none

/-- Along the ways to a slot a value is found, and along others what was found before. -/
def Writes (before after : Scopes) (slot : ScopeRef × String) (value : Value) : Prop :=
  ∀ access, after.read? access =
    if after.slot? access = some slot then some value else before.read? access

/-- Scopes are nested in older ones. -/
def Layered (scopes : Scopes) : Prop :=
  ∀ scope outer, scopes.enclosing? scope = some outer → outer.index < scope.index

variable {scopes after : Scopes} {scope target : ScopeRef} {operation : Operation}

section Outward

variable {chain : List ScopeRef} (outward : scopes.Outward scope chain)

include outward

theorem Outward.binds_iff : scopes.Binds scope distance name value ↔
    ∃ target, chain[distance]? = some target ∧ scopes.valueIn? target name = some value := by
  unfold Binds
  rw [outward.ancestor]

/-- The search ends at the scope that is reached by the least distance. -/
theorem Outward.nearest?_eq (first : scopes.BindsFirst scope distance name) :
    scopes.nearest? scope name = scopes.ancestor? scope distance := by
  obtain ⟨⟨value, bound⟩, least⟩ := first
  obtain ⟨target, here, held⟩ := outward.binds_iff.mp bound
  obtain ⟨inside, same⟩ := List.getElem?_eq_some_iff.mp here
  rw [outward.nearest, outward.ancestor, here, List.find?_eq_some_iff_getElem]
  refine ⟨by simp [held], distance, inside, same, fun nearer less => ?_⟩
  cases found : scopes.valueIn? chain[nearer] name with
  | none => rfl
  | some other =>
    have closer : chain[nearer]? = some chain[nearer] := List.getElem?_eq_getElem _
    exact absurd (outward.binds_iff.mpr ⟨_, closer, found⟩) (least nearer less other)

theorem Outward.lookup?_eq_none_iff : scopes.lookup? scope name = none ↔
    ∀ distance value, ¬ scopes.Binds scope distance name value := by
  rw [outward.lookup, List.findSome?_eq_none_iff]
  constructor
  · intro missing distance value bound
    obtain ⟨target, here, held⟩ := outward.binds_iff.mp bound
    rw [missing target (List.mem_of_getElem? here)] at held
    cases held
  · intro unbound target member
    obtain ⟨distance, here⟩ := List.getElem?_of_mem member
    cases found : scopes.valueIn? target name with
    | none => rfl
    | some value => exact absurd (outward.binds_iff.mpr ⟨target, here, found⟩) (unbound distance value)

theorem Outward.isSome_assign? (name : String) (value : Value) :
    (scopes.assign? scope name value).isSome = (scopes.lookup? scope name).isSome := by
  rw [outward.assign, outward.lookup, Option.isSome_map, Bool.eq_iff_iff, List.find?_isSome,
    List.findSome?_isSome_iff]

theorem Outward.beyond (distance : Nat) (far : chain.length - 1 < distance) :
    scopes.ancestor? scope distance = none := by
  rw [outward.ancestor, List.getElem?_eq_none_iff]
  omega

theorem Outward.searched : scopes.Searched scope where
  read first := by
    unfold lookup? lookupAt?
    rw [outward.nearest?_eq first]
  missing _ := outward.lookup?_eq_none_iff
  assignable := outward.isSome_assign?
  assign first value := by
    unfold assign? assignAt?
    rw [outward.nearest?_eq first]
  beyond := by
    obtain ⟨root, there, ended⟩ := outward.linked.exists_last
    refine ⟨chain.length - 1, ⟨root, (outward.ancestor _).trans there, ended⟩, ?_⟩
    intro distance far
    have none := outward.beyond distance far
    exact ⟨none, fun name => ⟨by rw [lookupAt?, none]; rfl, fun value => by rw [assignAt?, none]; rfl⟩⟩

end Outward

namespace Layered

theorem empty : Scopes.empty.Layered := by
  intro scope outer link
  cases link

/-- No operation changes how the scopes that there are are nested, and a new one is nested in one of
them. -/
theorem perform? (layered : scopes.Layered) (performed : scopes.perform? operation = some after) :
    after.Layered := by
  intro inner outer link
  unfold Scopes.perform? at performed
  split at performed
  · rename_i known
    cases operation with
    | root =>
      cases performed
      rw [enclosing?_push] at link
      split at link
      · cases link
      · exact layered _ _ link
    | child enclosing =>
      cases performed
      rw [enclosing?_push] at link
      split at link
      · rename_i new
        cases link
        rw [new]
        exact known outer rfl
      · exact layered _ _ link
    | define scope name value =>
      cases performed
      exact layered _ _ (enclosing?_define .. ▸ link)
    | assign scope name value =>
      obtain ⟨target, _, rfl⟩ := Option.map_eq_some_iff.mp performed
      exact layered _ _ (enclosing?_define .. ▸ link)
    | assignAt scope distance name value =>
      obtain ⟨target, _, rfl⟩ := Option.map_eq_some_iff.mp performed
      exact layered _ _ (enclosing?_define .. ▸ link)
  · cases performed

theorem performAll (layered : scopes.Layered) (operations : List Operation) :
    (scopes.performAll operations).Layered := by
  induction operations generalizing scopes with
  | nil => exact layered
  | cons first rest ih =>
    unfold Scopes.performAll
    cases performed : scopes.perform? first with
    | none => exact ih layered
    | some after => exact ih (layered.perform? performed)

theorem searched (layered : scopes.Layered) (known : scope.index < scopes.cells.size) :
    scopes.Searched scope := by
  obtain ⟨chain, outward⟩ := exists_outward (layered _ _) known
  exact outward.searched

theorem ancestor?_le (layered : scopes.Layered) (distance : Nat)
    (found : scopes.ancestor? scope distance = some target) : target.index ≤ scope.index := by
  induction distance generalizing scope with
  | zero =>
    cases found
    exact Nat.le_refl _
  | succ distance ih =>
    obtain ⟨outer, link, found⟩ := Option.bind_eq_some_iff.mp found
    exact Nat.le_trans (ih found) (Nat.le_of_lt (layered _ _ link))

end Layered

theorem index_lt_of_nearest? (found : scopes.nearest? scope name = some target) :
    target.index < scopes.cells.size := by
  obtain ⟨value, held⟩ := Option.isSome_iff_exists.mp (isSome_of_nearestWithin? found)
  obtain ⟨cell, present, _⟩ := Option.bind_eq_some_iff.mp held
  exact (Array.getElem?_eq_some_iff.mp present).1

/-- The search after a write goes the way it went before, unless it comes past the slot that was
written. -/
theorem lookupWithin_define (known : target.index < scopes.cells.size) (name wanted : String)
    (value : Value) (bound : Nat) (scope : ScopeRef) :
    ((scopes.define target name value).nearestWithin? wanted bound scope).bind
        ((scopes.define target name value).valueIn? · wanted) =
      if (scopes.define target name value).nearestWithin? wanted bound scope = some target ∧
        wanted = name then some value
      else (scopes.nearestWithin? wanted bound scope).bind (scopes.valueIn? · wanted) := by
  induction bound generalizing scope with
  | zero => rfl
  | succ bound ih =>
    have here := valueIn?_define scopes target scope name wanted value known
    simp only [nearestWithin?, enclosing?_define]
    by_cases written : target = scope ∧ wanted = name
    · rw [if_pos written] at here
      obtain ⟨rfl, rfl⟩ := written
      simp [here]
    · rw [if_neg written] at here
      rw [here]
      cases held : scopes.valueIn? scope wanted with
      | some other =>
        have elsewhere : ¬(scope = target ∧ wanted = name) := fun both => written ⟨both.1.symm, both.2⟩
        simp [here, held, elsewhere]
      | none =>
        cases scopes.enclosing? scope with
        | none => simp
        | some outer => simpa using ih outer

theorem writes_define (known : target.index < scopes.cells.size) (name : String) (value : Value) :
    Writes scopes (scopes.define target name value) (target, name) value := by
  intro access
  cases access with
  | search scope wanted =>
    have size : (scopes.define target name value).cells.size = scopes.cells.size := by simp [define]
    simpa [read?, slot?, lookup?, nearest?, size] using
      lookupWithin_define known name wanted value scopes.cells.size scope
  | direct scope distance wanted =>
    simp only [read?, slot?, lookupAt?, ancestor?_define]
    cases scopes.ancestor? scope distance with
    | none => simp
    | some reached => simpa [eq_comm] using valueIn?_define scopes target reached name wanted value known

/-- An operation that gives a value writes it. -/
theorem Layered.writes (layered : scopes.Layered)
    (performed : scopes.perform? operation = some after) (given : operation.value? = some value) :
    ∃ slot, scopes.target? operation = some slot ∧ Writes scopes after slot value := by
  unfold Scopes.perform? at performed
  split at performed
  · rename_i known
    cases operation with
    | root => cases given
    | child => cases given
    | define scope name value =>
      cases performed
      cases given
      exact ⟨_, rfl, writes_define (known scope rfl) name value⟩
    | assign scope name value =>
      obtain ⟨target, found, rfl⟩ := Option.map_eq_some_iff.mp performed
      cases given
      exact ⟨(target, name), by simp [target?, slot?, found],
        writes_define (index_lt_of_nearest? found) name value⟩
    | assignAt scope distance name value =>
      obtain ⟨target, found, rfl⟩ := Option.map_eq_some_iff.mp performed
      cases given
      have inside : target.index < scopes.cells.size :=
        Nat.lt_of_le_of_lt (layered.ancestor?_le distance found) (known scope rfl)
      exact ⟨(target, name), by simp [target?, slot?, found], writes_define inside name value⟩
  · cases performed

/-- How a run assigns: at the distance that the table has for the name, or else by search from the
globals. -/
def assignBy? (scopes : Scopes) (scope : ScopeRef) (distance : Option Nat) (name : String)
    (value : Value) : Option Scopes :=
  match distance with
  | some distance => scopes.assignAt? scope distance name value
  | none => scopes.assign? Heap.globals name value

open Eval in
theorem evaluate_assign {expression : Expr} {before machine : Machine} {value : Value}
    (given : evaluate setting fuel expression before = .ok value machine) (id : NodeId) (name : Name) :
    evaluate setting (fuel + 1) (.assign id name expression) before =
      match machine.heap.scopes.assignBy? machine.scope setting.distances[id]? name.text value with
      | some scopes => .ok value { machine with heap.scopes := scopes }
      | none => .error (.fault ⟨.undefinedVariable name.text, name.line⟩) machine := by
  have write (found : Option ScopeRef)
      (same : targetScope setting id name machine =
        orElseFault name.line (.undefinedVariable name.text) found machine) :
      (do defineIn (← targetScope setting id name) name.text value; return value : Eval Value) machine =
        match found.map (machine.heap.scopes.define · name.text value) with
        | some scopes => .ok value { machine with heap.scopes := scopes }
        | none => .error (.fault ⟨.undefinedVariable name.text, name.line⟩) machine := by
    cases found with
    | none => exact bind_error same
    | some target => exact bind_ok same
  unfold evaluate
  refine (bind_ok given).trans ?_
  unfold assignBy?
  cases entry : setting.distances[id]? with
  | some distance => exact write _ (targetScope_local name machine entry)
  | none => exact write _ (targetScope_global name machine entry)

/-- The laws of reading and writing. Where an assignment fails, alone or as a step of a run, nothing is
changed. -/
structure Lawful (scopes : Scopes) : Prop where
  searched : ∀ {scope}, scope.index < scopes.cells.size → scopes.Searched scope
  writes : ∀ {operation after value}, scopes.perform? operation = some after →
    operation.value? = some value →
    ∃ slot, scopes.target? operation = some slot ∧ Writes scopes after slot value
  fails : ∀ {operation}, scopes.perform? operation = none → scopes.performAll [operation] = scopes
  keeps : ∀ {setting fuel expression before value machine},
    Eval.evaluate setting fuel expression before = .ok value machine → machine.heap.scopes = scopes →
    ∀ (id : NodeId) (name : Name),
      scopes.assignBy? machine.scope setting.distances[id]? name.text value = none →
      Eval.evaluate setting (fuel + 1) (.assign id name expression) before =
        .error (.fault ⟨.undefinedVariable name.text, name.line⟩) machine

/-- Access by search and access by distance agree on all scopes that operations lead to. -/
theorem lawful_performAll (operations : List Operation) : (empty.performAll operations).Lawful where
  searched := (Layered.empty.performAll operations).searched
  writes := (Layered.empty.performAll operations).writes
  fails failed := by simp [performAll, failed]
  keeps given same id name failed := by
    rw [evaluate_assign given, same, failed]

-- What is written from one inner scope is read from another one beside it.
example : (empty.performAll [.root, .child ⟨0⟩, .child ⟨0⟩, .define ⟨0⟩ "x" .nil,
    .assign ⟨1⟩ "x" (.bool true)]).read? (.direct ⟨2⟩ 1 "x") = some (.bool true) := rfl

end Scopes

end Lox
