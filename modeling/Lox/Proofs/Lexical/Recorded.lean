import Lox.Proofs.Lexical.Declare
import Lox.Proofs.Trace.Evaluate

/-! Recording steps of a machine in lockstep with steps by lexical scoping, such that all uses in the
record are sound. -/

namespace Lox

theorem Heap.methodWithin?_instances (heap : Heap) (instances : Array Instance) (name : String)
    (bound : Nat) (ref : ClassRef) :
    ({ heap with instances } : Heap).methodWithin? name bound ref =
      heap.methodWithin? name bound ref := by
  induction bound generalizing ref with
  | zero => rfl
  | succ bound ih => simp only [methodWithin?, classAt, funext ih]

namespace Lexical

open Trace (Traced Visit erase recorded)

variable {α β γ δ : Type} {table : Entries} {here : Option ScopeRef} {slots slots' : Slots}
  {machine machine' : Machine} {state state' : State} {scoping : Scoping} {place : Place}
  {environment : Environment} {distances : Distances} {id : NodeId} {name : Name}

def AllSound (distances : Distances) (visits : List Visit) : Prop :=
  ∀ visit ∈ visits, visit.Sound distances

section Sound

theorem binds_of_lookupAt? {scopes : Scopes} {name : String}
    (found : scopes.lookupAt? scope distance name = some value) :
    scopes.Binds scope distance name value :=
  Option.bind_eq_some_iff.mp found

variable (similar : Similar table slots machine state)

include similar

theorem sound_read (linked : Linked slots machine.heap.scopes scoping machine.scope environment)
    (ready : scoping.find? name.text ≠ some false)
    (entry : distances[id]? = scoping.distance? name.text) :
    Visit.Sound distances ⟨.read id name, machine⟩ := by
  intro distance held
  obtain ⟨_, value, _, found, _⟩ := similar.value linked (entry.symm.trans held) ready
  exact ⟨value, binds_of_lookupAt? found⟩

theorem sound_this (linked : Linked slots machine.heap.scopes scoping machine.scope environment)
    (ready : scoping.find? "this" = some true)
    (declared : scoping.distance? "this" = some distance)
    (entry : distances[id]? = some distance) (line : Nat) :
    Visit.Sound distances ⟨.this id line, machine⟩ := by
  obtain ⟨_, value, _, found, _, holds⟩ := similar.value linked declared (by simp [ready])
  obtain ⟨receiver, rfl⟩ := holds.this rfl
  exact ⟨distance, receiver, entry, binds_of_lookupAt? found⟩

theorem sound_super (keeps : ∀ id found, table id found → distances[id]? = found)
    (linked : Linked slots machine.heap.scopes scoping machine.scope environment)
    (addressed : (Expr.super id line method).Addressed table scoping) :
    Visit.Sound distances ⟨.super id line method, machine⟩ := by
  obtain ⟨distance, ready, ready', declared, declared', entry⟩ := addressed
  obtain ⟨_, value, _, found, _, holds⟩ := similar.value linked declared (by simp [ready])
  obtain ⟨_, value', _, found', _, holds'⟩ := similar.value linked declared' (by simp [ready'])
  obtain ⟨superclass, rfl⟩ := holds.super rfl
  obtain ⟨receiver, rfl⟩ := holds'.this rfl
  exact ⟨distance, superclass, receiver, keeps _ _ entry, binds_of_lookupAt? found,
    binds_of_lookupAt? found'⟩

theorem sound_result {closure : Lox.Closure}
    (same : SameFunction table slots machine.heap.scopes closure closure') :
    Visit.Sound distances ⟨.result closure, machine⟩ := by
  intro initializes
  obtain ⟨_, captured, _, receives⟩ := same
  obtain ⟨outer, rfl⟩ := receives initializes
  have nearest : Scoping.distance? (Scoping.frame ["this"] :: outer) "this" = some 0 := by
    simp [Scoping.distance?_cons, Scoping.contains_frame]
  obtain ⟨_, value, _, found, _, holds⟩ := similar.value captured.linked nearest
    (by simp [Scoping.find?, Scoping.find?_frame])
  obtain ⟨receiver, rfl⟩ := holds.this rfl
  exact ⟨receiver, found⟩

omit similar in
theorem sound_assign (linked : Linked slots machine.heap.scopes scoping machine.scope environment)
    (entry : distances[id]? = scoping.distance? name.text) :
    Visit.Sound distances ⟨.assign id name, machine⟩ := by
  intro distance held
  obtain ⟨target, _, reached, _⟩ := linked.reaches (entry.symm.trans held)
  exact ⟨target, reached.ancestor⟩

end Sound

def Recorded (distances : Distances) (table : Entries) (here : Option ScopeRef)
    (related : Related α β) (traced : Traced α) (other : Eval β) (slots : Slots)
    (machine : Machine) (state : State) : Prop :=
  ∀ visits, AllSound distances visits →
    Agree table here related slots machine (erase (traced ⟨machine, visits⟩)) (other state) ∧
      AllSound distances (recorded (traced ⟨machine, visits⟩))

namespace Lockstep

/-- A step that is worth no record. -/
theorem lift {related : Related α β} {step : Lox.Eval α} {other : Eval β}
    (steps : Lockstep table here related step other slots machine state) :
    Recorded distances table here related (Trace.lift step) other slots machine state := by
  intro visits sound
  unfold Lockstep at steps
  unfold Trace.lift
  cases ran : step machine with
  | ok value machine' =>
    rw [ran] at steps
    exact ⟨steps, sound⟩
  | error reason machine' =>
    rw [ran] at steps
    exact ⟨steps, sound⟩

end Lockstep

namespace Recorded

theorem pure {related : Related α β} (similar : Similar table slots machine state)
    (same : related slots machine.heap.scopes value value') :
    Recorded distances table here related (Pure.pure value) (Pure.pure value') slots machine state :=
  fun _ sound => ⟨Lockstep.pure similar same, sound⟩

theorem halt {related : Related α β} (similar : Similar table slots machine state)
    (reason : Halt) :
    Recorded distances table here related (Trace.lift (Lox.Eval.halt reason) : Traced α)
      (Eval.halt reason : Eval β) slots machine state :=
  Lockstep.lift (.halt similar reason)

theorem fault {related : Related α β} (similar : Similar table slots machine state)
    (reason : RuntimeFault) (line : Nat) :
    Recorded distances table here related (Trace.lift (Lox.Eval.fault reason line) : Traced α)
      (Eval.fault reason line : Eval β) slots machine state :=
  halt similar _

theorem record {related : Related α β} {traced : Traced α} {other : Eval β} (use : Trace.Use)
    (sound : Visit.Sound distances ⟨use, machine⟩)
    (rest : Recorded distances table here related traced other slots machine state) :
    Recorded distances table here related (Trace.record use >>= fun _ => traced) other slots machine
      state :=
  fun visits before => rest (⟨use, machine⟩ :: visits) (List.forall_mem_cons.mpr ⟨sound, before⟩)

theorem weaken {related stronger : Related α β} {traced : Traced α} {other : Eval β}
    (steps : Recorded distances table here related traced other slots machine state)
    (implies : ∀ {slots' machine' state'} value value',
      After table here slots machine slots' machine' state' →
      related slots' machine'.heap.scopes value value' →
      stronger slots' machine'.heap.scopes value value') :
    Recorded distances table here stronger traced other slots machine state := by
  intro visits sound
  obtain ⟨agree, kept⟩ := steps visits sound
  exact ⟨agree.weaken implies, kept⟩

theorem bind {first : Related α β} {related : Related γ δ} {traced : Traced α} {other : Eval β}
    {later : α → Traced γ} {later' : β → Eval δ}
    (steps : Recorded distances table none first traced other slots machine state)
    (rest : ∀ {slots' machine' state'} value value',
      After table none slots machine slots' machine' state' →
      first slots' machine'.heap.scopes value value' →
      Recorded distances table here related (later value) (later' value') slots' machine' state') :
    Recorded distances table here related (traced >>= later) (other >>= later') slots machine
      state := by
  intro visits sound
  obtain ⟨agree, kept⟩ := steps visits sound
  cases ran : traced ⟨machine, visits⟩ with
  | ok value log =>
    rw [ran] at agree kept
    cases ran' : other state with
    | ok value' state' =>
      rw [ran'] at agree
      obtain ⟨slots', after, same⟩ := agree
      obtain ⟨agree, kept⟩ := rest value value' after same log.visits kept
      rw [bind_ok ran, bind_ok ran']
      exact ⟨Agree.since after.anywhere agree, kept⟩
    | error => rw [ran'] at agree; exact agree.elim
  | error reason log =>
    rw [ran] at agree kept
    cases ran' : other state with
    | ok => rw [ran'] at agree; exact agree.elim
    | error =>
      rw [ran'] at agree
      rw [bind_error ran, bind_error ran']
      exact ⟨agree.halted, kept⟩

theorem discard {related : Related α β} {traced : Traced α} {other : Eval β}
    (steps : Recorded distances table none related traced other slots machine state) :
    Recorded distances table none Equal (Functor.discard traced) (Functor.discard other) slots
      machine state :=
  steps.bind fun _ _ after _ => pure after.similar rfl

theorem inspect_left {related : Related α β} {other : Eval β} {later : γ → Traced α}
    (held : view machine.heap = value)
    (rest : Recorded distances table here related (later value) other slots machine state) :
    Recorded distances table here related (Trace.lift (Lox.Eval.inspect view) >>= later) other
      slots machine state := by
  subst held
  exact rest

theorem inspect_right {related : Related α β} {traced : Traced α} {later : γ → Eval β}
    (held : view state = value)
    (rest : Recorded distances table here related traced (later value) slots machine state) :
    Recorded distances table here related traced (Eval.inspect view >>= later) slots machine
      state := by
  subst held
  exact rest

theorem introduce_right {related : Related α β} {traced : Traced α} {later : Place → Eval β}
    (introduced : After table here slots machine slots' machine state')
    (ran : Eval.introduce place stmt state = .ok place' state')
    (rest : Recorded distances table here related traced (later place') slots' machine state') :
    Recorded distances table here related traced (Eval.introduce place stmt >>= later) slots machine
      state := by
  intro visits sound
  obtain ⟨agree, kept⟩ := rest visits sound
  rw [bind_ok ran]
  exact ⟨Agree.since introduced agree, kept⟩

theorem newInstance_bind {related : Related α β} {later : InstanceRef → Traced α}
    {later' : InstanceRef → Eval β} (similar : Similar table slots machine state) (owner : ClassRef)
    (rest : ∀ {slots' machine' state'} created, Similar table slots' machine' state' →
      (∀ name, machine'.heap.method? owner name = machine.heap.method? owner name) →
      Recorded distances table none related (later created) (later' created) slots' machine'
        state') :
    Recorded distances table none related (Trace.lift (Lox.Eval.newInstance owner) >>= later)
      (Eval.newInstance owner >>= later') slots machine state := by
  intro visits sound
  obtain ⟨slots', after, _⟩ := Lockstep.newInstance similar owner
  have size : state.instances.size = machine.heap.instances.size := by rw [similar.instances]
  obtain ⟨agree, kept⟩ := rest ⟨machine.heap.instances.size⟩ after.similar
    (fun name => machine.heap.methodWithin?_instances _ name _ owner) visits sound
  refine ⟨?_, kept⟩
  have result := Agree.since after agree
  change Agree _ _ _ _ _ _ (later' ⟨state.instances.size⟩ _)
  rw [size]
  exact result

theorem within {related : Related α β} {traced : Traced α} {other : Eval β}
    (before : After table none slots machine slots' machine' state')
    (new : machine.heap.scopes.cells.size ≤ scope.index)
    (inside : Recorded distances table (some scope) related traced other slots'
      { machine' with scope } state') (visits : List Visit) (sound : AllSound distances visits) :
    Agree table none related slots machine (erase (Trace.within scope traced ⟨machine', visits⟩))
        (other state') ∧
      AllSound distances (recorded (Trace.within scope traced ⟨machine', visits⟩)) := by
  obtain ⟨agree, kept⟩ := inside visits sound
  rw [Trace.erase_within, Trace.recorded_within]
  exact ⟨Lockstep.within before new agree, kept⟩

/-- A step inside a new scope. -/
theorem enter (related : Related α β) {traced : Traced α} {other : Environment → Eval β}
    (similar : Similar table slots machine state) (entries : List (String × Value))
    (distinct : (entries.map (·.1)).Nodup) (holds : ∀ entry ∈ entries, Holds entry.1 entry.2)
    (linked : Linked slots machine.heap.scopes scoping enclosing environment)
    (body : ∀ {slots' machine' state'} scope environment',
      After table none slots machine slots' machine' state' →
      Linked slots' machine'.heap.scopes (Scoping.frame (entries.map (·.1)) :: scoping) scope
        environment' →
      Owned slots' scope (Scoping.frame (entries.map (·.1)) :: scoping) →
      Recorded distances table (some scope) related traced (other environment') slots'
        { machine' with scope } state') :
    Recorded distances table none related
      (Trace.lift (Lox.Eval.newScope (.ofList entries) enclosing) >>= fun scope =>
        Trace.within scope traced)
      (Eval.extend environment entries >>= other) slots machine state := by
  intro visits sound
  obtain ⟨slots', after, located, owned, new, _⟩ :=
    Lockstep.newScope similar entries distinct holds linked
  exact within after new (body _ _ after located owned) visits sound

theorem deeper {traced : Traced α} {other : Eval α} (similar : Similar table slots machine state)
    (line : Nat)
    (steps : Recorded distances table none Equal traced other slots
      { machine with depth := machine.depth + 1 } { state with depth := state.depth + 1 }) :
    Recorded distances table none Equal (Trace.deeper line traced) (Eval.deeper line other) slots
      machine state := by
  intro visits sound
  obtain ⟨agree, kept⟩ := steps visits sound
  constructor
  · rw [Trace.erase_deeper]
    exact Lockstep.deeper similar line agree
  · rw [Trace.recorded_deeper]
    split
    · exact kept
    · exact sound

end Recorded

end Lexical

end Lox
