import Lox.Proofs.Lexical.Similar
import Lox.Proofs.Steps

/-! Steps of a machine beside steps by lexical scoping. Two steps are in lockstep from similar states
if they end alike: with related results or for the same reason, in similar states and with the machine
back in its scope. -/

namespace Lox.Lexical

variable {α β γ δ : Type} {table : Entries} {here : Option ScopeRef} {slots slots' : Slots}
  {machine machine' : Machine} {state state' : State} {scoping : Scoping}
  {environment : Environment}

/-- What holds after steps, also where they halt. -/
structure After (table : Entries) (here : Option ScopeRef) (slots : Slots) (machine : Machine)
    (slots' : Slots) (machine' : Machine) (state' : State) : Prop where
  grows : Grows here slots machine.heap.scopes slots' machine'.heap.scopes
  similar : Similar table slots' machine' state'
  scope : machine'.scope = machine.scope

theorem After.trans (before : After table here slots machine slots' machine' state')
    (after : After table here slots' machine' slots'' machine'' state'') :
    After table here slots machine slots'' machine'' state'' :=
  ⟨before.grows.trans after.grows, after.similar, after.scope.trans before.scope⟩

theorem After.anywhere (after : After table none slots machine slots' machine' state') :
    After table here slots machine slots' machine' state' :=
  { after with grows := after.grows.anywhere }

/-- Results that are related by the slots and scopes in which they were found. -/
abbrev Related (α β : Type) := Slots → Scopes → α → β → Prop

def Equal : Related α α := fun _ _ value value' => value = value'

def Agree (table : Entries) (here : Option ScopeRef) (related : Related α β) (slots : Slots)
    (machine : Machine) : EStateM.Result Halt Machine α → EStateM.Result Halt State β → Prop
  | .ok value machine', .ok value' state' =>
    ∃ slots', After table here slots machine slots' machine' state' ∧
      related slots' machine'.heap.scopes value value'
  | .error reason machine', .error reason' state' =>
    reason' = reason ∧ ∃ slots', After table here slots machine slots' machine' state'
  | _, _ => False

def Lockstep (table : Entries) (here : Option ScopeRef) (related : Related α β)
    (step : Lox.Eval α) (other : Eval β) (slots : Slots) (machine : Machine) (state : State) : Prop :=
  Agree table here related slots machine (step machine) (other state)

theorem Agree.since {related : Related α β}
    (before : After table here slots machine slots' machine' state')
    (rest : Agree table here related slots' machine' result result') :
    Agree table here related slots machine result result' := by
  unfold Agree at rest ⊢
  split at rest
  · obtain ⟨slots'', after, same⟩ := rest
    exact ⟨slots'', before.trans after, same⟩
  · obtain ⟨same, slots'', after⟩ := rest
    exact ⟨same, slots'', before.trans after⟩
  · exact rest

/-- Where a step halts, what would follow does not matter. -/
theorem Agree.halted {first : Related α β} {related : Related γ δ}
    (agree : Agree table none first slots machine (.error reason machine') (.error reason' state')) :
    Agree table here related slots machine (.error reason machine') (.error reason' state') := by
  obtain ⟨same, slots', after⟩ := agree
  exact ⟨same, slots', after.anywhere⟩

theorem Agree.weaken {related other : Related α β}
    (agree : Agree table here related slots machine result result')
    (implies : ∀ {slots' machine' state'} value value',
      After table here slots machine slots' machine' state' →
      related slots' machine'.heap.scopes value value' →
      other slots' machine'.heap.scopes value value') :
    Agree table here other slots machine result result' := by
  unfold Agree at agree ⊢
  split at agree
  · obtain ⟨slots', after, same⟩ := agree
    exact ⟨slots', after, implies _ _ after same⟩
  · exact agree
  · exact agree

namespace Lockstep

theorem pure {related : Related α β} (similar : Similar table slots machine state)
    (same : related slots machine.heap.scopes value value') :
    Lockstep table here related (Pure.pure value) (Pure.pure value') slots machine state :=
  ⟨slots, ⟨.refl, similar, rfl⟩, same⟩

theorem halt {related : Related α β} (similar : Similar table slots machine state)
    (reason : Halt) :
    Lockstep table here related (Lox.Eval.halt reason : Lox.Eval α) (Eval.halt reason : Eval β) slots
      machine state :=
  ⟨rfl, slots, .refl, similar, rfl⟩

theorem fault {related : Related α β} (similar : Similar table slots machine state)
    (reason : RuntimeFault) (line : Nat) :
    Lockstep table here related (Lox.Eval.fault reason line : Lox.Eval α)
      (Eval.fault reason line : Eval β) slots machine state :=
  halt similar _

theorem orFault (similar : Similar table slots machine state) (line : Nat)
    (result : Except RuntimeFault α) :
    Lockstep table here Equal (Lox.Eval.orFault line result) (Eval.orFault line result) slots machine
      state := by
  cases result with
  | ok value => exact pure similar rfl
  | error reason => exact fault similar reason line

theorem orElseFault (similar : Similar table slots machine state) (line : Nat)
    (reason : RuntimeFault) (result : Option α) :
    Lockstep table here Equal (Lox.Eval.orElseFault line reason result)
      (Eval.orElseFault line reason result) slots machine state := by
  cases result with
  | some value => exact pure similar rfl
  | none => exact fault similar reason line

theorem inspect (related : Related α β) (similar : Similar table slots machine state)
    (same : related slots machine.heap.scopes (view machine.heap) (view' state)) :
    Lockstep table here related (Lox.Eval.inspect view) (Eval.inspect view') slots machine state :=
  ⟨slots, ⟨.refl, similar, rfl⟩, same⟩

theorem weaken {related other : Related α β} {step : Lox.Eval α} {step' : Eval β}
    (steps : Lockstep table here related step step' slots machine state)
    (implies : ∀ {slots' machine' state'} value value',
      After table here slots machine slots' machine' state' →
      related slots' machine'.heap.scopes value value' →
      other slots' machine'.heap.scopes value value') :
    Lockstep table here other step step' slots machine state :=
  Agree.weaken steps implies

/-- What follows a step may use that the step gave the present scope no slots. -/
theorem bind {first : Related α β} {related : Related γ δ} {step : Lox.Eval α} {other : Eval β}
    {later : α → Lox.Eval γ} {later' : β → Eval δ}
    (steps : Lockstep table none first step other slots machine state)
    (rest : ∀ {slots' machine' state'} value value',
      After table none slots machine slots' machine' state' →
      first slots' machine'.heap.scopes value value' →
      Lockstep table here related (later value) (later' value') slots' machine' state') :
    Lockstep table here related (step >>= later) (other >>= later') slots machine state := by
  unfold Lockstep at steps ⊢
  cases ran : step machine with
  | ok value machine' =>
    cases ran' : other state with
    | ok value' state' =>
      rw [ran, ran'] at steps
      obtain ⟨slots', after, same⟩ := steps
      rw [bind_ok ran, bind_ok ran']
      exact Agree.since after.anywhere (rest value value' after same)
    | error reason' state' =>
      rw [ran, ran'] at steps
      exact steps.elim
  | error reason machine' =>
    cases ran' : other state with
    | ok value' state' =>
      rw [ran, ran'] at steps
      exact steps.elim
    | error reason' state' =>
      rw [ran, ran'] at steps
      rw [bind_error ran, bind_error ran']
      exact steps.halted

end Lockstep

end Lox.Lexical
