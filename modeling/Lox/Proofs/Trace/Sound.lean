import Lox.Proofs.Lexical.Program

/-! No run of an accepted program meets an internal error. What a use relies on is there whenever the
use is reached, so it can only fail at a global name. -/

namespace Lox

namespace Trace

variable {α : Type} {setting : Setting} {id : NodeId} {name method : Name}
  {machine after : Machine}

theorem reason_of_orElseFault {found : Option α}
    (failed : Eval.orElseFault line fault found machine = .error reason after) :
    reason = .fault ⟨fault, line⟩ := by
  cases found <;> cases failed
  rfl

theorem readName_of_binds (entry : setting.distances[id]? = some distance)
    (binds : machine.heap.scopes.Binds machine.scope distance name.text value) :
    Eval.readName setting id name machine = .ok value machine := by
  have found : machine.heap.scopes.lookupAt? machine.scope distance name.text = some value :=
    Option.bind_eq_some_iff.mpr binds
  rw [Eval.readName_local name machine entry, found]
  rfl

theorem reason_of_readName (failed : Eval.readName setting id name machine = .error reason after) :
    reason = .fault ⟨.undefinedVariable name.text, name.line⟩ := by
  change Eval.orElseFault name.line (.undefinedVariable name.text) _ machine = _ at failed
  exact reason_of_orElseFault failed

theorem targetScope_of_ancestor (entry : setting.distances[id]? = some distance)
    (reached : machine.heap.scopes.ancestor? machine.scope distance = some target) :
    Eval.targetScope setting id name machine = .ok target machine := by
  rw [Eval.targetScope_local name machine entry, reached]
  rfl

theorem reason_of_targetScope
    (failed : Eval.targetScope setting id name machine = .error reason after) :
    reason = .fault ⟨.undefinedVariable name.text, name.line⟩ := by
  change Eval.orElseFault name.line (.undefinedVariable name.text) _ machine = _ at failed
  exact reason_of_orElseFault failed

/-- Bound to a class and an instance, `super` lacks at most the method. -/
theorem reason_of_readSuper {superclass : ClassRef} {receiver : InstanceRef}
    (entry : setting.distances[id]? = some (distance + 1))
    (super : machine.heap.scopes.Binds machine.scope (distance + 1) "super"
      (.callable (.ofClass superclass)))
    (this : machine.heap.scopes.Binds machine.scope distance "this" (.object receiver))
    (failed : Eval.readSuper setting id line method machine = .error reason after) :
    reason = .fault ⟨.undefinedProperty method.text, method.line⟩ := by
  have found := Option.bind_eq_some_iff.mpr super
  have found' := Option.bind_eq_some_iff.mpr this
  change machine.heap.scopes.lookupAt? _ _ _ = _ at found found'
  simp only [Eval.readSuper, entry, bind, EStateM.bind, Eval.orElseFault, pure, EStateM.pure,
    Eval.currentScope, Eval.inspect, found, Nat.add_sub_cancel, found'] at failed
  cases known : machine.heap.method? superclass method.text <;>
    · rw [known] at failed
      cases failed
      try rfl

/-- A sound use only halts at a name without an entry. -/
theorem Visit.Sound.global {visit : Visit} (sound : visit.Sound setting.distances)
    (halts : visit.Halts setting reason) (ofUse : reason.OfUse) :
    ∃ id name machine, setting.distances[id]? = none ∧
      reason = .fault ⟨.undefinedVariable name.text, name.line⟩ ∧
      (visit = ⟨.read id name, machine⟩ ∨ visit = ⟨.assign id name, machine⟩) := by
  obtain ⟨use, machine⟩ := visit
  cases use with
  | read id name =>
    obtain ⟨_, failed⟩ := halts
    refine ⟨id, name, machine, ?_, reason_of_readName failed, .inl rfl⟩
    cases entry : setting.distances[id]? with
    | none => rfl
    | some distance =>
      obtain ⟨value, binds⟩ := sound distance entry
      cases (readName_of_binds entry binds).symm.trans failed
  | assign id name =>
    obtain ⟨_, failed⟩ := halts
    refine ⟨id, name, machine, ?_, reason_of_targetScope failed, .inr rfl⟩
    cases entry : setting.distances[id]? with
    | none => rfl
    | some distance =>
      obtain ⟨target, reached⟩ := sound distance entry
      cases (targetScope_of_ancestor entry reached).symm.trans failed
  | this id line =>
    obtain ⟨_, failed⟩ := halts
    obtain ⟨distance, receiver, entry, binds⟩ := sound
    cases (readName_of_binds entry binds).symm.trans failed
  | super id line method =>
    obtain ⟨_, failed⟩ := halts
    obtain ⟨distance, superclass, receiver, entry, super, this⟩ := sound
    cases reason_of_readSuper entry super this failed
    exact ofUse.elim
  | result closure => exact halts.elim

end Trace

variable {setting : Setting} {clock : Nat → Float} {capacity : Option Nat} {program : Program}

/-- What no user is to be told. -/
def internalMessages : List String :=
  ["Unresolved 'super'.", "Unresolved 'this'.", "Invalid unary operator.",
    "Invalid binary operator."]

/-- A text with another opening than all internal messages. -/
theorem not_internal {opening rest text : String} (same : text = opening ++ rest)
    (long : 3 ≤ opening.toList.length)
    (other : opening.toList.take 3 ∉ internalMessages.map (·.toList.take 3)) :
    text ∉ internalMessages := by
  intro member
  have taken := List.mem_map_of_mem (f := fun text => text.toList.take 3) member
  rw [same, String.toList_append, List.take_append_of_le_length long] at taken
  exact other taken

theorem RuntimeFault.eq_of_internal {fault : RuntimeFault}
    (internal : fault.message ∈ internalMessages) :
    fault = .unresolvedSuper ∨ fault = .unresolvedThis := by
  cases fault with
  | unresolvedSuper => exact .inl rfl
  | unresolvedThis => exact .inr rfl
  | undefinedVariable name =>
    have same : (undefinedVariable name).message = "Undefined variable '" ++ (name ++ "'.") :=
      String.append_assoc
    exact absurd internal (not_internal same (by decide +kernel) (by decide +kernel))
  | undefinedProperty name =>
    have same : (undefinedProperty name).message = "Undefined property '" ++ (name ++ "'.") :=
      String.append_assoc
    exact absurd internal (not_internal same (by decide +kernel) (by decide +kernel))
  | wrongArity expected given =>
    have regroup (first second third fourth last : String) :
        first ++ second ++ third ++ fourth ++ last =
          first ++ (second ++ (third ++ (fourth ++ last))) := by
      simp only [String.append_assoc]
    have same : (wrongArity expected given).message = "Expected " ++
        (toString expected ++ (" arguments but got " ++ (toString given ++ "."))) :=
      regroup _ _ _ _ _
    exact absurd internal (not_internal same (by decide +kernel) (by decide +kernel))
  | _ =>
    revert internal
    decide +kernel

theorem Trace.visits_sound (checked : (checkSource source 0).outcome = .ok program)
    (clock : Nat → Float) (fuel : Nat) (capacity : Option Nat) :
    ∀ visit ∈ Trace.visits ⟨program.distances, clock⟩ fuel capacity program.body,
      visit.Sound program.distances :=
  have keeps : Setting.Keeps ⟨program.distances, clock⟩ fun id found =>
    id ∈ Stmt.allIds program.body ∧ program.distances[id]? = found := fun _ _ known => known.2
  (Lexical.Recorded.interpret keeps (.start _ capacity) rfl fuel program.body
    (checkSource_addressed checked) [] nofun).2

/-- A run that halts where a name is looked up halts at a visit. -/
theorem Trace.exists_visit_of_error
    (failed : Eval.interpret setting fuel body (.start capacity) = .error reason after)
    (ofUse : reason.OfUse) :
    ∃ visit ∈ Trace.visits setting fuel capacity body, visit.Halts setting reason := by
  have faithful := Trace.faithful_interpret setting fuel body
  have erased := faithful.erases ⟨.start capacity, []⟩
  rw [failed] at erased
  unfold Trace.visits
  cases ran : Trace.interpret setting fuel body ⟨.start capacity, []⟩ with
  | ok value log =>
    rw [ran] at erased
    cases erased
  | error other log =>
    rw [ran] at erased
    cases erased
    exact faithful.blames ran ofUse

theorem error_of_stopped (checked : (checkSource source 0).outcome = .ok program)
    (stopped : (run clock fuel capacity source).ending = .stopped (.runtime error)) :
    ∃ after, Eval.interpret ⟨program.distances, clock⟩ fuel program.body (.start capacity) =
      .error (.fault error) after := by
  unfold run at stopped
  rw [checked] at stopped
  dsimp only [Machine.interpret] at stopped
  split at stopped
  · cases stopped
  · rename_i reason after ran
    cases reason with
    | fault held =>
      cases stopped
      exact ⟨after, ran⟩
    | _ => cases stopped

/-- A name that halts a run of an accepted program has no entry. -/
theorem global_of_stopped (checked : (checkSource source 0).outcome = .ok program)
    (stopped : (run clock fuel capacity source).ending = .stopped (.runtime error))
    (ofUse : (Halt.fault error).OfUse) :
    ∃ (id : NodeId) (name : Name) (machine : Machine), program.distances[id]? = none ∧
      error = ⟨.undefinedVariable name.text, name.line⟩ ∧
      (⟨.read id name, machine⟩ ∈
          Trace.visits ⟨program.distances, clock⟩ fuel capacity program.body ∨
        ⟨.assign id name, machine⟩ ∈
          Trace.visits ⟨program.distances, clock⟩ fuel capacity program.body) := by
  obtain ⟨after, failed⟩ := error_of_stopped checked stopped
  obtain ⟨visit, member, halts⟩ := Trace.exists_visit_of_error failed ofUse
  have sound := Trace.visits_sound checked clock fuel capacity visit member
  obtain ⟨id, name, machine, none, reason, rfl | rfl⟩ := sound.global halts ofUse
  · cases reason
    exact ⟨id, name, machine, none, rfl, .inl member⟩
  · cases reason
    exact ⟨id, name, machine, none, rfl, .inr member⟩

/-- No run of an accepted program meets an internal error. Every use in it is sound, an undefined
variable is a name without an entry, and no message tells of an unresolved name or operator. -/
theorem run_sound (checked : (checkSource source 0).outcome = .ok program) (clock : Nat → Float)
    (fuel : Nat) (capacity : Option Nat) :
    (∀ visit ∈ Trace.visits ⟨program.distances, clock⟩ fuel capacity program.body,
      visit.Sound program.distances) ∧
    (∀ name line, (run clock fuel capacity source).ending =
        .stopped (.runtime ⟨.undefinedVariable name, line⟩) →
      ∃ (id : NodeId) (machine : Machine), program.distances[id]? = none ∧
        (⟨.read id ⟨name, line⟩, machine⟩ ∈
            Trace.visits ⟨program.distances, clock⟩ fuel capacity program.body ∨
          ⟨.assign id ⟨name, line⟩, machine⟩ ∈
            Trace.visits ⟨program.distances, clock⟩ fuel capacity program.body)) ∧
    (∀ error, (run clock fuel capacity source).ending = .stopped (.runtime error) →
      error.fault.message ∉ internalMessages) := by
  refine ⟨Trace.visits_sound checked clock fuel capacity, fun name line stopped => ?_,
    fun error stopped internal => ?_⟩
  · obtain ⟨id, ⟨_, _⟩, machine, none, same, member⟩ := global_of_stopped checked stopped trivial
    cases same
    exact ⟨id, machine, none, member⟩
  · obtain ⟨fault, line⟩ := error
    rcases RuntimeFault.eq_of_internal internal with rfl | rfl
    · obtain ⟨_, _, _, _, same, _⟩ := global_of_stopped checked stopped trivial
      cases same
    · obtain ⟨_, _, _, _, same, _⟩ := global_of_stopped checked stopped trivial
      cases same

/-- An initializer that calls that of the superclass. -/
private def derived : String :=
  "class A { init() { this.a = 1; } } class B < A { init() { super.init(); } } print B().a;"

theorem derived_sound : ∃ program, (checkSource derived 0).outcome = .ok program ∧
    (∀ visit ∈ Trace.visits ⟨program.distances, fun _ => 0⟩ 100 none program.body,
      visit.Sound program.distances) := by
  have accepted : (checkSource derived 0).outcome.isOk = true := by decide +kernel
  cases checked : (checkSource derived 0).outcome with
  | error reports =>
    rw [checked] at accepted
    cases accepted
  | ok program => exact ⟨program, rfl, (run_sound checked (fun _ => 0) 100 none).1⟩

end Lox
