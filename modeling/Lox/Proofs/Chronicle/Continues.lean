import Lox.Proofs.Chronicle.Orderly
import Lox.Proofs.Lexical.Linked
import Lox.Proofs.Machine.Along

/-! Evaluation goes on in order. Of each form of a statement the parts pass a returned value on, a call ends
with it, and outside of calls nothing returns where there is no `return`. -/

namespace Lox

/-- A step that never returns. -/
def Eval.Normal (step : Eval Flow) : Prop :=
  ∀ machine flow after, step machine = .ok flow after → flow = .normal

namespace Eval.Normal

theorem pure : Normal (Pure.pure .normal) := by
  intro machine flow after ran
  cases ran
  rfl

theorem bind {step : Eval α} {later : α → Eval Flow} (rest : ∀ value, Normal (later value)) :
    Normal (step >>= later) := by
  intro machine flow after ran
  obtain ⟨value, middle, _, ended⟩ := bind_eq_ok ran
  exact rest value middle flow after ended

end Eval.Normal

/-- A routine is entered in a new scope inside that of its closure, which binds the parameters. -/
structure Machine.Enters (machine : Machine) (closure : Closure) (arguments : List Value) : Prop where
  enclosing : machine.heap.scopes.enclosing? machine.scope = some closure.scope
  bound : ∀ name, machine.heap.scopes.valueIn? machine.scope name =
    (Bindings.ofList ((closure.routine.parameters.map (·.text)).zip arguments)).find? name

namespace Chronicle

open Course (Task)

variable {α β : Type} {calls : List Closure} {pending : α → Option Value} {record : Record}

/-- The events up to where a step ends are in order, and other calls than before are not in progress. -/
def Lands (calls : List Closure) (pending : α → Option Value) : EStateM.Result Halt Record α → Prop
  | .ok value after => Orderly (pending value) after.events ∧ inProgress after.events = calls
  | .error _ after => Orderly none after.events ∧ inProgress after.events = calls

theorem Lands.conclude {change : Record → Record} {result : EStateM.Result Halt Record α}
    (events : ∀ record, (change record).events = record.events) (lands : Lands calls pending result) :
    Lands calls pending (conclude change result) := by
  cases result with
  | ok value record | error reason record =>
    simp only [Lands, Chronicle.conclude, events] at lands ⊢
    exact lands

/-- A step that goes on from orderly events in order and ends the calls that it begins. -/
def Continues (calls : List Closure) (pending : α → Option Value) (chronicle : Chronicle α) : Prop :=
  ∀ record : Record, Orderly none record.events → inProgress record.events = calls →
    Lands calls pending (chronicle record)

/-- A step after which no value is on its way. -/
def Calm (chronicle : Chronicle α) : Prop :=
  ∀ calls, Continues calls (fun _ => none) chronicle

/-- Statements in the body of the innermost call, or else without a `return`. -/
def Within (trees : List Stmt) : (calls : List Closure) → Prop
  | [] => Stmt.Returnless trees
  | closure :: _ => trees ⊆ Stmt.allInner closure.routine.body

theorem Within.mono (within : Within trees calls) (part : trees' ⊆ trees) : Within trees' calls := by
  cases calls with
  | nil => exact fun line value member => within line value (part member)
  | cons closure callers => exact List.Subset.trans part within

namespace Continues

theorem pure (still : pending value = none) : Continues calls pending (Pure.pure value) := by
  intro record orderly here
  change Orderly (pending value) record.events ∧ _
  rw [still]
  exact ⟨orderly, here⟩

theorem bind {pending : β → Option Value} {chronicle : Chronicle α} {later : α → Chronicle β}
    (first : Continues calls (fun _ => none) chronicle)
    (rest : ∀ value, Continues calls pending (later value)) :
    Continues calls pending (chronicle >>= later) := by
  intro record orderly here
  have started := first record orderly here
  cases ran : chronicle record with
  | ok value middle =>
    rw [ran] at started
    rw [bind_ok ran]
    exact rest value middle started.1 started.2
  | error reason middle =>
    rw [ran] at started
    rw [bind_error ran]
    exact started

/-- What comes after a statement is left out if that one returns. -/
theorem andThen {first rest : Chronicle Flow} (one : Continues calls Flow.value? first)
    (other : Continues calls Flow.value? rest) :
    Continues calls Flow.value? (first >>= fun
      | .normal => rest
      | .returned value => return .returned value) := by
  intro record orderly here
  have started := one record orderly here
  cases ran : first record with
  | ok flow middle =>
    rw [ran] at started
    rw [bind_ok ran]
    cases flow with
    | normal => exact other middle started.1 started.2
    | returned value => exact started
  | error reason middle =>
    rw [ran] at started
    rw [bind_error ran]
    exact started

theorem step {single : Eval α}
    (still : ∀ {machine value after}, single machine = .ok value after → pending value = none) :
    Continues calls pending (Host.step single) := by
  intro record orderly here
  change Lands calls pending (lift single record)
  unfold lift
  cases ran : single record.machine with
  | ok value after =>
    refine ⟨?_, here⟩
    rw [still ran]
    exact orderly
  | error reason after => exact ⟨orderly, here⟩

theorem normally {single : Eval Flow} (normal : single.Normal) :
    Continues calls Flow.value? (Host.step single) :=
  step fun ran => by rw [normal _ _ _ ran]; rfl

theorem within (scope : ScopeRef) {chronicle : Chronicle α} (inside : Continues calls pending chronicle) :
    Continues calls pending (Host.within scope chronicle) :=
  fun record orderly here => .conclude (fun _ => rfl)
    (inside { record with machine.scope := scope } orderly here)

theorem deeper (line : Nat) {chronicle : Chronicle α} (inside : Continues calls pending chronicle) :
    Continues calls pending (Host.deeper line chronicle) := by
  intro record orderly here
  change Lands calls pending (Chronicle.deeper line chronicle record)
  by_cases room : record.machine.depth < maxDepth
  · simp only [Chronicle.deeper, if_pos room]
    exact .conclude (fun _ => rfl)
      (inside { record with machine.depth := record.machine.depth + 1 } orderly here)
  · simp only [Chronicle.deeper, if_neg room]
    exact ⟨orderly, here⟩

/-- At the top level no value is on its way. -/
theorem atTopLevel {chronicle : Chronicle α} (continues : Continues [] pending chronicle) :
    Continues [] (fun _ => none) chronicle := by
  intro record orderly here
  have ended := continues record orderly here
  cases ran : chronicle record with
  | error reason after =>
    rw [ran] at ended
    exact ended
  | ok value after =>
    rw [ran] at ended
    obtain ⟨orderly, outside⟩ := ended
    cases kept : pending value with
    | none => exact ⟨kept ▸ orderly, outside⟩
    | some returned =>
      rw [kept] at orderly
      obtain ⟨closure, callers, innermost⟩ := orderly.innermost
      cases outside.symm.trans innermost

end Continues

namespace Calm

theorem relating : Relating fun α (chronicle _ : Chronicle α) => Calm chronicle where
  pure _ _ := .pure rfl
  bind first rest calls := .bind (first calls) fun value => rest value calls
  step _ _ := .step fun _ => rfl
  within scope _ _ inside calls := .within scope (inside calls)
  deeper line _ _ inside calls := .deeper line (inside calls)

/-- Tasks other than calls of routines and statements leave no trace in what is in progress. -/
theorem observe {chronicle : Chronicle α} (calm : Calm chronicle) {task : Task} {result : α → Result}
    (apart : ∀ closure arguments, task ≠ .invoke closure arguments)
    (stays : ∀ value returned, result value ≠ .flow (.returned returned)) :
    Calm (observe task result chronicle) := by
  intro calls record orderly here
  have begun : inProgress (record.note (.began task record.machine)).events = calls :=
    (inProgress_began apart).trans here
  have ended := calm calls _ (.began orderly) begun
  unfold Chronicle.observe
  cases ran : chronicle (record.note (.began task record.machine)) with
  | ok value after =>
    rw [ran] at ended
    exact ⟨.ended ended.1 apart (stays value), (inProgress_ended apart).trans ended.2⟩
  | error reason after =>
    rw [ran] at ended
    exact ⟨.ended ended.1 apart nofun, (inProgress_ended apart).trans ended.2⟩

end Calm

/-- A statement that is part of the innermost call passes on what its parts return. -/
theorem Continues.observe {chronicle : Chronicle Flow} (continues : Continues calls Flow.value? chronicle)
    {task : Task} (inside : ∀ {closure callers}, calls = closure :: callers → task.PartOf closure)
    (apart : ∀ closure arguments, task ≠ .invoke closure arguments)
    (around : ∀ line tree, task ≠ .execute (.return line tree)) :
    Continues calls Flow.value? (observe task .flow chronicle) := by
  intro record orderly here
  have begun : inProgress (record.note (.began task record.machine)).events = calls :=
    (inProgress_began apart).trans here
  have ended := continues _ (.began orderly) begun
  unfold Chronicle.observe
  cases ran : chronicle (record.note (.began task record.machine)) with
  | error reason after =>
    rw [ran] at ended
    exact ⟨.ended ended.1 apart nofun, (inProgress_ended apart).trans ended.2⟩
  | ok flow after =>
    rw [ran] at ended
    obtain ⟨orderly, here⟩ := ended
    refine ⟨?_, (inProgress_ended apart).trans here⟩
    cases flow with
    | normal => exact .ended orderly apart nofun
    | returned value =>
      -- The value has come from a `return`, so there is a call of which the statement is part.
      obtain ⟨closure, callers, innermost⟩ := orderly.innermost
      exact .passed orderly innermost (inside (here.symm.trans innermost)) around

/-- A call runs the body of its closure, in a new scope that binds the parameters, and gives what follows
from its end. -/
theorem invokeWhole_run (parts : Parts Chronicle) (closure : Closure) (arguments : List Value)
    (record : Record) : ∃ entered : Record, entered.events = record.events ∧
      entered.machine.Enters closure arguments ∧
      parts.invokeWhole closure arguments record =
        match parts.executeAll closure.routine.body entered with
        | .ok flow after => .ok (closure.result after.machine.heap flow)
            { after with machine.scope := record.machine.scope }
        | .error reason after => .error reason { after with machine.scope := record.machine.scope } := by
  obtain ⟨scope, made, activated, stayed, enters⟩ : ∃ scope made,
      Eval.activation closure arguments record.machine = .ok scope made ∧
        made.scope = record.machine.scope ∧ Machine.Enters { made with scope } closure arguments := by
    refine ⟨_, _, rfl, rfl, ?_, ?_⟩
    · simp [Scopes.enclosing?_push]
    · simp [Scopes.valueIn?_push]
  refine ⟨{ record with machine := { made with scope } }, rfl, enters, ?_⟩
  unfold Parts.invokeWhole
  change EStateM.bind (lift (Eval.activation closure arguments)) _ record = _
  simp only [EStateM.bind, lift, activated]
  change EStateM.bind (Chronicle.within scope (parts.executeAll closure.routine.body)) _ _ = _
  simp only [EStateM.bind, Chronicle.within]
  cases parts.executeAll closure.routine.body { record with machine := { made with scope } } with
  | error reason after => simp only [conclude, stayed]
  | ok flow after =>
    simp only [conclude, stayed]
    change lift (Eval.callResult closure flow) _ = _
    by_cases initializer : closure.isInitializer
    · simp only [lift, Eval.callResult, Closure.result, if_pos initializer]
      rfl
    · simp only [lift, Eval.callResult, Closure.result, if_neg initializer]
      cases flow <;> rfl

/-- Of a task that has ended the end is what was written last. -/
theorem ends_observed {chronicle : Chronicle α} {task : Task} {result : α → Result}
    (ran : observe task result chronicle record = .ok value after) :
    ∃ machine, after.events.head? = some (.ended task (result value) machine) := by
  unfold observe at ran
  cases here : chronicle (record.note (.began task record.machine)) with
  | ok value last =>
    rw [here] at ran
    cases ran
    exact ⟨last.machine, rfl⟩
  | error reason last =>
    rw [here] at ran
    cases ran

/-- Parts that go on in order, and what they write at last. -/
structure Orders (parts : Parts Chronicle) : Prop where
  evaluate : ∀ tree, Calm (parts.evaluate tree)
  evaluateAll : ∀ trees, Calm (parts.evaluateAll trees)
  call : ∀ callee arguments, Calm (parts.call callee arguments)
  invoke : ∀ closure arguments, Calm (parts.invoke closure arguments)
  execute : ∀ {calls} tree, Within (Stmt.inner tree) calls →
    Continues calls Flow.value? (parts.execute tree)
  executeAll : ∀ {calls} trees, Within (Stmt.allInner trees) calls →
    Continues calls Flow.value? (parts.executeAll trees)
  evaluated : ∀ {tree record value after}, parts.evaluate tree record = .ok value after →
    ∃ machine, after.events.head? = some (.ended (.evaluate tree) (.value value) machine)
  executed : ∀ {trees record flow after}, parts.executeAll trees record = .ok flow after →
    ∃ machine, after.events.head? = some (.ended (.executeAll trees) (.flow flow) machine)

namespace Orders

theorem exhausted : Orders .exhausted where
  evaluate _ _ := .step nofun
  evaluateAll _ _ := .step nofun
  call _ _ _ := .step nofun
  invoke _ _ _ := .step nofun
  execute _ _ := .step nofun
  executeAll _ _ := .step nofun
  evaluated := nofun
  executed := nofun

variable {parts : Parts Chronicle} (orders : Orders parts) {setting : Setting}

include orders

theorem invokeWhole (closure : Closure) (arguments : List Value) :
    Calm (observe (.invoke closure arguments) .value (parts.invokeWhole closure arguments)) := by
  intro calls record orderly here
  let begun := record.note (.began (.invoke closure arguments) record.machine)
  have innermost : inProgress begun.events = closure :: calls := congrArg (closure :: ·) here
  obtain ⟨entered, same, _, run⟩ := invokeWhole_run parts closure arguments begun
  have within : Within (Stmt.allInner closure.routine.body) (closure :: calls) := List.Subset.refl _
  have body := orders.executeAll closure.routine.body within entered (same ▸ .began orderly)
    (same ▸ innermost)
  unfold Chronicle.observe
  simp only [begun] at run ⊢
  rw [run]
  cases ran : parts.executeAll closure.routine.body entered with
  | ok flow after =>
    rw [ran] at body
    obtain ⟨last, wrote⟩ := orders.executed ran
    exact ⟨.finished body.1 body.2 wrote rfl, congrArg List.tail body.2⟩
  | error reason after =>
    rw [ran] at body
    exact ⟨.abandoned body.1 body.2, congrArg List.tail body.2⟩

theorem executeAllWhole (trees : List Stmt) (within : Within (Stmt.allInner trees) calls) :
    Continues calls Flow.value? (parts.executeAllWhole trees) := by
  cases trees with
  | nil => exact .pure rfl
  | cons first rest =>
    exact .andThen (orders.execute first (within.mono (List.subset_append_left ..)))
      (orders.executeAll rest (within.mono (List.subset_append_right ..)))

theorem executeWhole (tree : Stmt) (around : ∀ line value, tree ≠ .return line value)
    (within : Within tree.inner calls) :
    Continues calls Flow.value? (parts.executeWhole setting tree) := by
  cases tree with
  | expression value => exact .bind (orders.evaluate value calls) fun _ => .pure rfl
  | print value =>
    apply Continues.bind (orders.evaluate value calls)
    intro value
    exact .normally (.bind fun _ => .bind fun _ => .pure)
  | declareVar name initializer =>
    cases initializer with
    | none => exact .normally (.bind fun _ => .pure)
    | some value =>
      apply Continues.bind (orders.evaluate value calls)
      intro value
      exact .normally (.bind fun _ => .pure)
  | block body =>
    apply Continues.bind (.step fun _ => rfl)
    intro scope
    apply Continues.bind (.step fun _ => rfl)
    intro inner
    exact .within inner (orders.executeAll body (within.mono (List.subset_cons_self ..)))
  | ifThen condition consequent =>
    apply Continues.bind (orders.evaluate condition calls)
    intro value
    split
    · exact orders.execute consequent (within.mono (List.subset_cons_self ..))
    · exact .pure rfl
  | ifElse condition consequent alternative =>
    have parts := within.mono (List.subset_cons_self ..)
    apply Continues.bind (orders.evaluate condition calls)
    intro value
    split
    · exact orders.execute consequent (parts.mono (List.subset_append_left ..))
    · exact orders.execute alternative (parts.mono (List.subset_append_right ..))
  | «while» condition body =>
    apply Continues.bind (orders.evaluate condition calls)
    intro value
    split
    · exact .andThen (orders.execute body (within.mono (List.subset_cons_self ..)))
        (orders.execute (.while condition body) within)
    · exact .pure rfl
  | declareFunction routine => exact .normally (.bind fun _ => .bind fun _ => .bind fun _ => .pure)
  | «return» line value => exact absurd rfl (around line value)
  | declareClass name superclass methods => exact .normally (.bind fun _ => .pure)

/-- A `return` evaluates its expression, if it has one, and gives its value. -/
theorem executeWhole_return (setting : Setting) (line : Nat) (tree : Option Expr) :
    Calm (parts.executeWhole setting (.return line tree)) ∧
      ∀ {record flow after}, parts.executeWhole setting (.return line tree) record = .ok flow after →
        ∃ value, flow = .returned value ∧ Gives value after.events tree := by
  cases tree with
  | none =>
    refine ⟨fun calls => .pure rfl, ?_⟩
    intro record flow after ran
    cases ran
    exact ⟨.nil, rfl, rfl⟩
  | some tree =>
    refine ⟨fun calls => .bind (orders.evaluate tree calls) fun _ => .pure rfl, ?_⟩
    intro record flow after ran
    obtain ⟨value, middle, evaluated, ended⟩ := bind_eq_ok ran
    cases ended
    exact ⟨value, rfl, orders.evaluated evaluated⟩

/-- A `return` is executed only in a call, to the end of which its value is on its way. -/
theorem execute_return (line : Nat) (tree : Option Expr)
    (within : Within (Stmt.inner (.return line tree)) calls) :
    Continues calls Flow.value?
      (observe (.execute (.return line tree)) .flow (parts.executeWhole setting (.return line tree))) := by
  obtain ⟨calm, gives⟩ := orders.executeWhole_return setting line tree
  cases calls with
  | nil => exact absurd (Stmt.mem_inner _) (within line tree)
  | cons closure callers =>
    have inside := within (Stmt.mem_inner _)
    intro record orderly here
    have ended := calm _ (record.note (.began (.execute (.return line tree)) record.machine))
      (.began orderly) here
    unfold Chronicle.observe
    cases ran : parts.executeWhole setting (.return line tree)
        (record.note (.began (.execute (.return line tree)) record.machine)) with
    | error reason after =>
      rw [ran] at ended
      exact ⟨.ended ended.1 nofun nofun, ended.2⟩
    | ok flow after =>
      rw [ran] at ended
      obtain ⟨value, rfl, given⟩ := gives ran
      exact ⟨.returned ended.1 ended.2 inside given, ended.2⟩

theorem execute_observed (tree : Stmt) (within : Within tree.inner calls) :
    Continues calls Flow.value? (observe (.execute tree) .flow (parts.executeWhole setting tree)) := by
  by_cases returns : ∃ line value, tree = .return line value
  · obtain ⟨line, value, rfl⟩ := returns
    exact orders.execute_return line value within
  · have around : ∀ line value, tree ≠ .return line value := fun line value same =>
      returns ⟨line, value, same⟩
    refine (orders.executeWhole tree around within).observe ?_ nofun ?_
    · rintro closure callers rfl
      exact within (Stmt.mem_inner tree)
    · rintro line value ⟨⟩
      exact returns ⟨line, value, rfl⟩

/-- What is written down on the way is in order. -/
theorem observed (setting : Setting) : Orders (Chronicle.observed (parts.whole setting)) where
  evaluate tree := by
    have whole := @Relating.evaluateWhole _ _ _ _ _ Calm.relating parts parts setting
    exact (whole orders.evaluate orders.evaluateAll orders.call tree).observe nofun nofun
  evaluateAll trees := by
    have whole := @Relating.evaluateAllWhole _ _ _ _ _ Calm.relating parts parts
    exact (whole orders.evaluate orders.evaluateAll trees).observe nofun nofun
  call callee arguments := by
    have whole := @Relating.callWhole _ _ _ _ _ Calm.relating parts parts setting
    exact (whole orders.invoke callee arguments).observe nofun nofun
  invoke := orders.invokeWhole
  execute tree within := orders.execute_observed tree within
  executeAll trees within := by
    refine (orders.executeAllWhole trees within).observe ?_ nofun nofun
    rintro closure callers rfl
    exact within
  evaluated ran := ends_observed ran
  executed ran := ends_observed ran

end Orders

/-- By induction on the fuel, evaluation goes on in order. -/
theorem parts_order (setting : Setting) (fuel : Nat) : Orders (parts setting fuel) := by
  induction fuel with
  | zero => exact .exhausted
  | succ fuel orders => exact orders.observed setting

/-- Statements without a `return` leave no value on its way at the top level. -/
theorem interpret_continues (setting : Setting) (fuel : Nat) {body : List Stmt}
    (returnless : Stmt.Returnless (Stmt.allInner body)) :
    Continues [] (fun _ => none) (interpret setting fuel body) := by
  induction body with
  | nil => exact .pure rfl
  | cons first rest ih =>
    have within : Within (Stmt.allInner (first :: rest)) [] := returnless
    have here := (parts_order setting fuel).execute first (within.mono (List.subset_append_left ..))
    exact here.atTopLevel.bind fun _ => ih (within.mono (List.subset_append_right ..))

/-- Where there is no `return` nothing is returned, whatever the machine. -/
theorem execute_normal (setting : Setting) (fuel : Nat) {tree : Stmt}
    (returnless : Stmt.Returnless tree.inner) (machine : Machine) (value : Value) (after : Machine) :
    Eval.execute setting fuel tree machine ≠ .ok (.returned value) after := by
  intro ran
  have erased := (parts_related Erases.relating Erases.observe setting fuel).execute tree ⟨machine, []⟩
  have outside : Within tree.inner [] := returnless
  have ended := (parts_order setting fuel).execute tree outside ⟨machine, []⟩ .start rfl
  change _ = Eval.execute setting fuel tree machine at erased
  rw [ran] at erased
  cases written : (parts setting fuel).execute tree ⟨machine, []⟩ with
  | error reason last =>
    rw [written] at erased
    cases erased
  | ok flow last =>
    rw [written] at erased ended
    cases erased
    -- A value on its way would need a call in progress, of which there is none.
    obtain ⟨closure, callers, innermost⟩ := ended.1.innermost
    cases ended.2.symm.trans innermost

end Chronicle

end Lox
