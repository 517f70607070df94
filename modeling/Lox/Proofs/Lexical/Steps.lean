import Lox.Proofs.Lexical.Lockstep
import Lox.Proofs.Machine.Names

/-! The single steps of a machine in lockstep with those by lexical scoping. -/

namespace Lox

namespace Scopes

theorem nearest?_outermost (scopes : Scopes) (outermost : scopes.enclosing? scope = none)
    (known : 0 < scopes.cells.size) (name : String) :
    scopes.nearest? scope name =
      if (scopes.valueIn? scope name).isSome then some scope else none := by
  unfold nearest?
  obtain ⟨bound, size⟩ := Nat.exists_eq_add_one_of_ne_zero (Nat.ne_of_gt known)
  rw [size, nearestWithin?, outermost]
  rfl

theorem lookup?_outermost (scopes : Scopes) (outermost : scopes.enclosing? scope = none)
    (known : 0 < scopes.cells.size) (name : String) :
    scopes.lookup? scope name = scopes.valueIn? scope name := by
  unfold lookup?
  rw [scopes.nearest?_outermost outermost known]
  cases found : scopes.valueIn? scope name <;> simp [found]

end Scopes

/-- The distances of a run are as they are known to be. -/
def Setting.Keeps (setting : Setting) (table : Entries) : Prop :=
  ∀ id found, table id found → setting.distances[id]? = found

namespace Lexical

/-- The locations in a scope are those of the names that the analysis knows in it. -/
def Owned (slots : Slots) (scope : ScopeRef) (scoping : Scoping) : Prop :=
  ∀ (index : Nat) name, slots[index]? = some (scope, name) →
    ∃ inner ∈ scoping.head?, inner.contains name = true

variable {α β γ : Type} {table : Entries} {here : Option ScopeRef} {slots slots' : Slots}
  {machine machine' : Machine} {state state' : State} {scoping : Scoping} {environment : Environment}

namespace Similar

/-- The globals are found by name in the outermost scope. -/
theorem lookup?_globals (similar : Similar table slots machine state) (name : String) :
    machine.heap.scopes.lookup? Heap.globals name = state.globals.find? name := by
  rw [Scopes.lookup?_outermost _ similar.stored.outermost similar.stored.nonempty]
  exact similar.stored.global name

theorem nearest?_globals (similar : Similar table slots machine state) (name : String) :
    machine.heap.scopes.nearest? Heap.globals name =
      if state.globals.contains name then some Heap.globals else none := by
  rw [Scopes.nearest?_outermost _ similar.stored.outermost similar.stored.nonempty,
    similar.stored.global]
  rfl

/-- A ready name has its value both in the scope that its distance leads to and at its location. -/
theorem value (similar : Similar table slots machine state)
    (linked : Linked slots machine.heap.scopes scoping scope environment)
    (declared : scoping.distance? name = some distance) (ready : scoping.find? name ≠ some false) :
    ∃ location value, environment.find? name = some location ∧
      machine.heap.scopes.lookupAt? scope distance name = some value ∧
      state.store.getD location.index .nil = value ∧ Holds name value := by
  obtain ⟨target, location, reached, bound⟩ := linked.reaches declared
  obtain ⟨value, found⟩ := Option.isSome_iff_exists.mp (bound ready)
  refine ⟨location, value, reached.found, ?_, ?_, similar.stored.holds reached.slot found⟩
  · unfold Scopes.lookupAt?
    rw [reached.ancestor]
    exact found
  · rw [Array.getD_eq_getD_getElem?, similar.stored.agrees reached.slot found]
    rfl

/-- Similarity when nothing but the scopes and the store changes. -/
theorem restore (similar : Similar table slots machine state)
    (grows : Grows here slots machine.heap.scopes slots' scopes')
    (stored : Stored slots' scopes' store' globals') :
    Similar table slots' { machine with heap.scopes := scopes' }
      { state with store := store', globals := globals' } where
  stored := stored
  functions := ⟨similar.functions.1, fun ref => (similar.functions.2 ref).grow grows⟩
  classes := ⟨similar.classes.1, fun ref => (similar.classes.2 ref).grow grows⟩
  instances := similar.instances
  depth := similar.depth
  sink := similar.sink
  readings := similar.readings

end Similar

namespace Lockstep

section OneSided

variable {related : Related α β} {other : Eval β}

theorem pure_left {later : γ → Lox.Eval α}
    (rest : Lockstep table here related (later value) other slots machine state) :
    Lockstep table here related (Pure.pure value >>= later) other slots machine state :=
  rest

theorem scope_left {later : ScopeRef → Lox.Eval α}
    (rest : Lockstep table here related (later machine.scope) other slots machine state) :
    Lockstep table here related (Lox.Eval.currentScope >>= later) other slots machine state :=
  rest

theorem inspect_left {later : γ → Lox.Eval α} (held : view machine.heap = value)
    (rest : Lockstep table here related (later value) other slots machine state) :
    Lockstep table here related (Lox.Eval.inspect view >>= later) other slots machine state := by
  subst held
  exact rest

theorem inspect_right {step : Lox.Eval α} {later : γ → Eval β} (held : view state = value)
    (rest : Lockstep table here related step (later value) slots machine state) :
    Lockstep table here related step (Eval.inspect view >>= later) slots machine state := by
  subst held
  exact rest

theorem local_right {step : Lox.Eval α} {later : Option Value → Eval β}
    (found : environment.find? name = some location)
    (stored : state.store.getD location.index .nil = value)
    (rest : Lockstep table here related step (later (some value)) slots machine state) :
    Lockstep table here related step (Eval.local? environment name >>= later) slots machine
      state := by
  have held : (environment.find? name).map (fun location =>
      state.store.getD location.index .nil) = some value := by
    rw [found, Option.map_some, stored]
  exact inspect_right held rest

end OneSided

theorem readName (similar : Similar table slots machine state)
    (linked : Linked slots machine.heap.scopes scoping machine.scope environment) (id : NodeId)
    (name : Name) (ready : scoping.find? name.text ≠ some false)
    (entry : setting.distances[id]? = scoping.distance? name.text) :
    Lockstep table here Equal (Lox.Eval.readName setting id name)
      (Eval.readName environment name) slots machine state := by
  unfold Lockstep
  cases declared : scoping.distance? name.text with
  | some distance =>
    obtain ⟨location, value, found, held, stored, _⟩ := similar.value linked declared ready
    rw [Lox.Eval.readName_local name machine (entry.trans declared)]
    simp only [held, Eval.readName, found]
    exact ⟨slots, ⟨.refl, similar, rfl⟩, stored.symm⟩
  | none =>
    rw [Lox.Eval.readName_global name machine (entry.trans declared)]
    simp only [Eval.readName, linked.absent declared, similar.lookup?_globals]
    exact orElseFault similar _ _ _

theorem define (similar : Similar table slots machine state) (scope : ScopeRef) (location : Location)
    (slot : slots[location.index]? = some (scope, name)) (holds : Holds name value) :
    Lockstep table none (fun _ scopes _ _ => (scopes.valueIn? scope name).isSome)
      (Lox.Eval.defineIn scope name value) (Eval.write location value) slots machine state := by
  have known := (similar.stored.inner slot).2
  have grows := Grows.define slots machine.heap.scopes known name value
  refine ⟨slots, ⟨grows, similar.restore grows (similar.stored.write slot holds), rfl⟩, ?_⟩
  change ((machine.heap.scopes.define scope name value).valueIn? scope name).isSome
  rw [Scopes.valueIn?_define _ _ _ _ _ _ known, if_pos ⟨rfl, rfl⟩]
  rfl

theorem defineGlobal (similar : Similar table slots machine state) (name : String) (value : Value) :
    Lockstep table none Equal (Lox.Eval.defineIn Heap.globals name value)
      (Eval.writeGlobal name value) slots machine state := by
  have grows := Grows.define slots machine.heap.scopes similar.stored.nonempty name value
  exact ⟨slots, ⟨grows, similar.restore grows (similar.stored.writeGlobal name value), rfl⟩, rfl⟩

theorem writeName (similar : Similar table slots machine state)
    (linked : Linked slots machine.heap.scopes scoping machine.scope environment) (id : NodeId)
    (name : Name) (plain : name.Plain) (value : Value)
    (entry : setting.distances[id]? = scoping.distance? name.text) :
    Lockstep table none Equal
      (Lox.Eval.targetScope setting id name >>= fun scope =>
        Lox.Eval.defineIn scope name.text value)
      (Eval.writeName environment name value) slots machine state := by
  unfold Lockstep
  rw [bind_apply]
  cases declared : scoping.distance? name.text with
  | some distance =>
    obtain ⟨scope, location, reached, _⟩ := linked.reaches declared
    rw [Lox.Eval.targetScope_local name machine (entry.trans declared)]
    simp only [reached.ancestor, Eval.writeName, reached.found]
    exact (define similar scope location reached.slot (.plain plain value)).weaken fun _ _ _ _ => rfl
  | none =>
    have known := similar.nearest?_globals name.text
    have other : Eval.writeName environment name value state =
        (if state.globals.contains name.text then Eval.writeGlobal name.text value
          else Eval.fault (.undefinedVariable name.text) name.line) state := by
      unfold Eval.writeName
      rw [linked.absent declared]
      rfl
    rw [Lox.Eval.targetScope_global name machine (entry.trans declared), other, known]
    cases state.globals.contains name.text with
    | true => exact defineGlobal similar name.text value
    | false => exact (fault similar _ _ : Lockstep _ _ Equal _ _ _ _ _)

/-- A new scope for names with values, beside the environment that they extend. -/
theorem newScope (similar : Similar table slots machine state) (entries : List (String × Value))
    (distinct : (entries.map (·.1)).Nodup) (holds : ∀ entry ∈ entries, Holds entry.1 entry.2)
    (linked : Linked slots machine.heap.scopes scoping enclosing environment) :
    Lockstep table none (fun slots' scopes' scope environment' =>
        Linked slots' scopes' (Scoping.frame (entries.map (·.1)) :: scoping) scope environment' ∧
          Owned slots' scope (Scoping.frame (entries.map (·.1)) :: scoping) ∧
          machine.heap.scopes.cells.size ≤ scope.index ∧
          scopes'.enclosing? scope = some enclosing)
      (Lox.Eval.newScope (.ofList entries) enclosing) (Eval.extend environment entries) slots machine
      state := by
  have grows := Grows.enter slots machine.heap.scopes (entries.map (·.1)) (.ofList entries) enclosing
  have located := linked.enter similar.stored.next_ne_globals entries distinct
  rw [similar.stored.counted] at located
  refine ⟨_, ⟨grows, similar.restore grows
    (similar.stored.enter entries distinct holds enclosing), rfl⟩, located, ?_, Nat.le_refl _, ?_⟩
  · intro index name found
    refine ⟨_, rfl, ?_⟩
    rcases newSlots_found found with old | ⟨_, offset, _, new⟩
    · exact absurd rfl (similar.stored.ne_next old)
    · rw [Scoping.contains_frame]
      simpa using List.mem_of_getElem? new
  · change (machine.heap.scopes.push _ _).enclosing? _ = _
    rw [Scopes.enclosing?_push, if_pos rfl]

/-- A step in a scope that is new since the present one was entered. -/
theorem within {related : Related α β} {step : Lox.Eval α} {other : Eval β}
    (before : After table none slots machine slots' machine' state')
    (new : machine.heap.scopes.cells.size ≤ scope.index)
    (steps : Lockstep table (some scope) related step other slots' { machine' with scope } state') :
    Agree table none related slots machine (Lox.Eval.within scope step machine') (other state') := by
  unfold Lockstep at steps
  unfold Lox.Eval.within
  cases ran : step { machine' with scope } with
  | ok value machine'' =>
    cases ran' : other state' with
    | ok value' state'' =>
      rw [ran, ran'] at steps
      obtain ⟨slots'', after, same⟩ := steps
      refine ⟨slots'', ⟨after.grows.inside before.grows new, ?_, before.scope⟩, same⟩
      exact { after.similar with }
    | error => rw [ran, ran'] at steps; exact steps.elim
  | error reason machine'' =>
    cases ran' : other state' with
    | ok => rw [ran, ran'] at steps; exact steps.elim
    | error =>
      rw [ran, ran'] at steps
      obtain ⟨same, slots'', after⟩ := steps
      refine ⟨same, slots'', after.grows.inside before.grows new, ?_, before.scope⟩
      exact { after.similar with }

theorem bindMethod (similar : Similar table slots machine state)
    (same : SameMethod table slots machine.heap.scopes method method') (receiver : InstanceRef) :
    Lockstep table none (fun slots scopes closure closure' =>
        SameFunction table slots scopes closure closure' ∧ closure.routine = method.routine)
      (Lox.Eval.bindMethod method receiver) (Eval.bindMethod method' receiver) slots machine
      state := by
  obtain ⟨scoping, captured, addressed⟩ := same
  refine (newScope similar [("this", .object receiver)] (by simp) ?_ captured.linked).bind ?_
  · simpa using ⟨fun _ => ⟨receiver, rfl⟩, nofun⟩
  · rintro slots' machine' state' scope environment after ⟨linked, _⟩
    exact pure after.similar ⟨⟨_, { captured with linked }, addressed,
      fun _ => ⟨scoping, rfl⟩⟩, rfl⟩

theorem newFunction {closure : Lox.Closure} (similar : Similar table slots machine state)
    (same : SameFunction table slots machine.heap.scopes closure closure') :
    Lockstep table none Equal (Lox.Eval.newFunction closure) (Eval.newFunction closure') slots
      machine state := by
  have size := similar.functions.1
  refine ⟨slots, ⟨.refl, { similar with functions := ⟨by simp [size], fun ref => ?_⟩ }, rfl⟩, ?_⟩
  · have former := similar.functions.2 ref
    unfold Heap.closureAt State.closureAt at former ⊢
    rw [getD_push, getD_push, size]
    split
    · exact same
    · exact former
  · simp [Equal, size]

theorem newClass (similar : Similar table slots machine state)
    (same : SameClass table slots machine.heap.scopes object object') :
    Lockstep table none Equal (Lox.Eval.newClass object) (Eval.newClass object') slots machine
      state := by
  have size := similar.classes.1
  refine ⟨slots, ⟨.refl, { similar with classes := ⟨by simp [size], fun ref => ?_⟩ }, rfl⟩, ?_⟩
  · have former := similar.classes.2 ref
    unfold Heap.classAt State.classAt at former ⊢
    rw [getD_push, getD_push, size]
    split
    · exact same
    · exact former
  · simp [Equal, size]

theorem newInstance (similar : Similar table slots machine state) (owner : ClassRef) :
    Lockstep table none Equal (Lox.Eval.newInstance owner) (Eval.newInstance owner) slots machine
      state := by
  refine ⟨slots, ⟨.refl, { similar with instances := ?_ }, rfl⟩, ?_⟩
  · simp [similar.instances]
  · simp [Equal, similar.instances]

theorem setField (similar : Similar table slots machine state) (ref : InstanceRef) (name : String)
    (value : Value) :
    Lockstep table none Equal (Lox.Eval.setField ref name value) (Eval.setField ref name value)
      slots machine state := by
  refine ⟨slots, ⟨.refl, { similar with instances := ?_ }, rfl⟩, rfl⟩
  simp [similar.instances, Heap.setField]

theorem readClock (similar : Similar table slots machine state) (setting : Setting) :
    Lockstep table none Equal (Lox.Eval.readClock setting) (Eval.readClock setting.clock) slots
      machine state := by
  refine ⟨slots, ⟨.refl, { similar with readings := ?_ }, rfl⟩, ?_⟩
  · simp [similar.readings]
  · simp [Equal, similar.readings]

theorem printLine (similar : Similar table slots machine state) (text : String) :
    Lockstep table none Equal (Lox.Eval.printLine text) (Eval.printLine text) slots machine
      state := by
  unfold Lockstep Lox.Eval.printLine Eval.printLine
  rw [similar.sink]
  dsimp only
  split
  · exact ⟨slots, ⟨.refl, { similar with sink := rfl }, rfl⟩, rfl⟩
  · exact ⟨rfl, slots, .refl, { similar with sink := rfl }, rfl⟩

theorem deeper {step : Lox.Eval α} {other : Eval α} (similar : Similar table slots machine state)
    (line : Nat)
    (steps : Lockstep table none Equal step other slots
      { machine with depth := machine.depth + 1 } { state with depth := state.depth + 1 }) :
    Lockstep table none Equal (Lox.Eval.deeper line step) (Eval.deeper line other) slots machine
      state := by
  unfold Lockstep Lox.Eval.deeper Eval.deeper at *
  rw [similar.depth] at steps ⊢
  dsimp only
  split
  · cases ran : step { machine with depth := machine.depth + 1 } with
    | ok value machine' =>
      cases ran' : other { state with depth := machine.depth + 1 } with
      | ok value' state' =>
        rw [ran, ran'] at steps
        obtain ⟨slots', after, same⟩ := steps
        exact ⟨slots', ⟨after.grows, { after.similar with depth := rfl }, after.scope⟩, same⟩
      | error => rw [ran, ran'] at steps; exact steps.elim
    | error reason machine' =>
      cases ran' : other { state with depth := machine.depth + 1 } with
      | ok => rw [ran, ran'] at steps; exact steps.elim
      | error =>
        rw [ran, ran'] at steps
        obtain ⟨same, slots', after⟩ := steps
        exact ⟨same, slots', after.grows, { after.similar with depth := rfl }, after.scope⟩
  · exact (fault similar _ _ : Lockstep _ _ Equal _ _ _ _ _)

theorem readProperty (similar : Similar table slots machine state) (receiver : InstanceRef)
    (name : Name) :
    Lockstep table none Equal (Lox.Eval.readProperty receiver name)
      (Eval.readProperty receiver name) slots machine state := by
  refine (inspect Equal similar ?_).bind ?_
  · simp [Equal, Heap.field?, similar.instanceAt]
  rintro slots' machine state value _ after rfl
  cases value with
  | some value => exact pure after.similar rfl
  | none =>
    have method := after.similar.method? (machine.heap.instanceAt receiver).owner name.text
    rw [← after.similar.instanceAt] at method
    refine (inspect (fun slots scopes => Option.Rel (SameMethod table slots scopes)) after.similar
      ?_).bind ?_
    · rwa [after.similar.instanceAt] at method ⊢
    rintro slots'' machine state found found' after found
    cases found with
    | none => exact fault after.similar _ _
    | some same =>
      refine (bindMethod after.similar same receiver).bind ?_
      rintro slots'' machine state closure closure' after ⟨same, _⟩
      exact newFunction after.similar same

theorem readSuperclass (keeps : setting.Keeps table)
    (similar : Similar table slots machine state)
    (linked : Linked slots machine.heap.scopes scoping machine.scope environment)
    (superclass : Superclass) (addressed : superclass.toExpr.Addressed table scoping) :
    Lockstep table none Equal (Lox.Eval.readSuperclass setting superclass)
      (Eval.readSuperclass environment superclass) slots machine state := by
  refine (readName similar linked _ _ addressed.1 (keeps _ _ addressed.2)).bind ?_
  rintro slots' machine state value _ after rfl
  cases value with
  | callable callee =>
    cases callee with
    | ofClass ref => exact pure after.similar rfl
    | _ => exact fault after.similar _ _
  | _ => exact fault after.similar _ _

theorem readSuper (keeps : setting.Keeps table) (similar : Similar table slots machine state)
    (linked : Linked slots machine.heap.scopes scoping machine.scope environment) (id : NodeId)
    (line : Nat) (method : Name)
    (addressed : (Expr.super id line method).Addressed table scoping) :
    Lockstep table none Equal (Lox.Eval.readSuper setting id line method)
      (Eval.readSuper environment line method) slots machine state := by
  obtain ⟨distance, readySuper, readyThis, super, this, entry⟩ := addressed
  obtain ⟨location, value, found, held, stored, holds⟩ :=
    similar.value linked super (by simp [readySuper])
  obtain ⟨location', value', found', held', stored', holds'⟩ :=
    similar.value linked this (by simp [readyThis])
  obtain ⟨superclass, rfl⟩ := holds.super rfl
  obtain ⟨receiver, rfl⟩ := holds'.this rfl
  unfold Lox.Eval.readSuper Eval.readSuper
  rw [keeps _ _ entry]
  refine pure_left (scope_left (inspect_left held (inspect_left held' ?_)))
  refine local_right found stored (local_right found' stored' ?_)
  refine (inspect (fun slots scopes => Option.Rel (SameMethod table slots scopes)) similar
    (similar.method? _ _)).bind ?_
  rintro slots' machine state found found' after found
  cases found with
  | none => exact fault after.similar _ _
  | some same =>
    refine (bindMethod after.similar same receiver).bind ?_
    rintro slots'' machine state closure closure' after ⟨same, _⟩
    exact newFunction after.similar same

end Lockstep

end Lexical

end Lox
