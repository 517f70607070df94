import Lox.Proofs.Chronicle.Episodes
import Lox.Proofs.Lexical.Recorded

/-! Evaluation writes down whole episodes. Each task adds one episode, which accords with what was done in it,
however it ends. -/

namespace Lox

namespace Eval

variable {α β : Type} {machine : Machine} {setting : Setting}

/-- What is known of the value that a step gives, if it gives one, and of the machine in which it ends. -/
def Leads (step : Eval α) (machine : Machine) (post : α → Machine → Prop) : Prop :=
  ∀ value after, step machine = .ok value after → post value after

namespace Leads

variable {post : α → Machine → Prop}

theorem ok {step : Eval α} {after : Machine} (ran : step machine = .ok value after)
    (held : post value after) : Leads step machine post := by
  intro value after ran'
  cases ran.symm.trans ran'
  exact held

theorem fault (reason : RuntimeFault) (line : Nat) : Leads (Eval.fault reason line) machine post :=
  nofun

theorem inspected {look : Heap → β} {next : β → Eval α}
    (rest : Leads (next (look machine.heap)) machine post) :
    Leads (Eval.inspect look >>= next) machine post :=
  rest

theorem atScope {next : ScopeRef → Eval α} (rest : Leads (next machine.scope) machine post) :
    Leads (Eval.currentScope >>= next) machine post :=
  rest

theorem orElseFault {found : Option β} {line : Nat} {reason : RuntimeFault} {next : β → Eval α}
    (rest : ∀ value, found = some value → Leads (next value) machine post) :
    Leads (Eval.orElseFault line reason found >>= next) machine post := by
  cases found with
  | some value => exact rest value rfl
  | none => exact nofun

/-- A method that was found and bound is one that the value takes. -/
theorem newBound {method : Closure} {receiver : InstanceRef} {owner : ClassRef}
    (found : machine.heap.method? owner name = some method) :
    Leads (bindMethod method receiver >>= newFunction) machine fun value after =>
      machine.heap.Takes after.heap owner name receiver value := by
  obtain ⟨ref, last, made, bound⟩ := newBound_ok method receiver machine
  exact .ok made ⟨method, ref, found, rfl, bound⟩

theorem readProperty (receiver : InstanceRef) (name : Name) :
    Leads (Eval.readProperty receiver name) machine fun value after =>
      machine.heap.field? receiver name.text = some value ∨
        machine.heap.field? receiver name.text = none ∧ machine.heap.Takes after.heap
          (machine.heap.instanceAt receiver).owner name.text receiver value := by
  apply inspected
  cases field : machine.heap.field? receiver name.text with
  | some value => exact .ok rfl (.inl rfl)
  | none =>
    apply inspected
    cases found : machine.heap.method? (machine.heap.instanceAt receiver).owner name.text with
    | some method =>
      intro value after ran
      exact .inr ⟨rfl, newBound found value after ran⟩
    | none => exact .fault _ _

theorem readSuper (id : NodeId) (line : Nat) (name : Name) :
    Leads (Eval.readSuper setting id line name) machine fun value after =>
      ∃ distance parent receiver, setting.distances[id]? = some distance ∧
        machine.heap.scopes.lookupAt? machine.scope distance "super" =
          some (.callable (.ofClass parent)) ∧
        machine.heap.scopes.lookupAt? machine.scope (distance - 1) "this" = some (.object receiver) ∧
        machine.heap.Takes after.heap parent name.text receiver value := by
  apply orElseFault
  intro distance address
  apply atScope
  apply inspected
  split
  · rename_i parent super
    apply inspected
    split
    · rename_i receiver this
      apply inspected
      cases found : machine.heap.method? parent name.text with
      | some method =>
        intro value after ran
        exact ⟨distance, parent, receiver, address, super, this, newBound found value after ran⟩
      | none => exact .fault _ _
    · exact .fault _ _
  · exact .fault _ _

end Leads

/-- A method is bound to an instance in a new scope. -/
theorem bindMethod_ok (method : Closure) (receiver : InstanceRef) (machine : Machine) :
    ∃ closure after, bindMethod method receiver machine = .ok closure after ∧
      after.heap.Bound method receiver closure ∧ after.heap.instances = machine.heap.instances := by
  refine ⟨_, _, rfl, ⟨rfl, rfl, ?_, ?_⟩, rfl⟩
  · simp [Scopes.enclosing?_push]
  · simp [Scopes.valueIn?_push, Bindings.find?_insert]

end Eval

namespace Chronicle

open Course (Task)

variable {α β : Type} {record middle : Record}

/-- A step that writes down whole episodes. -/
def Adds (setting : Setting) (chronicle : Chronicle α) : Prop :=
  ∀ record, ∃ events, Whole setting events ∧ (ended (chronicle record)).events = events ++ record.events

namespace Adds

variable {setting : Setting}

theorem pure (value : α) : Adds setting (Pure.pure value) :=
  fun _ => ⟨[], .nil, rfl⟩

theorem bind {chronicle : Chronicle α} {later : α → Chronicle β} (first : Adds setting chronicle)
    (rest : ∀ value, Adds setting (later value)) : Adds setting (chronicle >>= later) := by
  intro record
  obtain ⟨events, whole, added⟩ := first record
  cases ran : chronicle record with
  | error reason middle =>
    rw [ran] at added
    rw [bind_error ran]
    exact ⟨events, whole, added⟩
  | ok value middle =>
    rw [ran] at added
    rw [bind_ok ran]
    obtain ⟨others, whole', added'⟩ := rest value middle
    refine ⟨others ++ events, whole'.append whole, ?_⟩
    rw [added', List.append_assoc]
    exact congrArg (others ++ ·) added

theorem step (single : Eval α) : Adds setting (Host.step single) := by
  intro record
  refine ⟨[], .nil, ?_⟩
  change (ended (lift single record)).events = record.events
  unfold lift
  cases single record.machine <;> rfl

theorem within (scope : ScopeRef) {chronicle : Chronicle α} (inside : Adds setting chronicle) :
    Adds setting (Host.within scope chronicle) := by
  intro record
  change ∃ events, Whole setting events ∧ (ended (Chronicle.within scope chronicle record)).events = _
  unfold Chronicle.within
  rw [ended_conclude]
  exact inside { record with machine.scope := scope }

theorem deeper (line : Nat) {chronicle : Chronicle α} (inside : Adds setting chronicle) :
    Adds setting (Host.deeper line chronicle) := by
  intro record
  change ∃ events, Whole setting events ∧ (ended (Chronicle.deeper line chronicle record)).events = _
  by_cases room : record.machine.depth < maxDepth
  · simp only [Chronicle.deeper, if_pos room, ended_conclude]
    exact inside { record with machine.depth := record.machine.depth + 1 }
  · simp only [Chronicle.deeper, if_neg room]
    exact ⟨[], .nil, rfl⟩

theorem relating : Relating fun α (chronicle _ : Chronicle α) => Adds setting chronicle where
  pure := pure
  bind := bind
  step {_ single} _ := step single
  within scope _ _ inside := within scope inside
  deeper line _ _ inside := deeper line inside

end Adds

/-- What a step comes to. -/
def told (tell : α → Result) : EStateM.Result Halt Record α → Result
  | .ok value _ => tell value
  | .error reason _ => .halted reason

/-- A step that writes down one whole episode of a task. -/
def Notes (setting : Setting) (task : Task) (tell : α → Result) (chronicle : Chronicle α) : Prop :=
  ∀ record, ∃ episode : Episode, episode.task = task ∧ episode.start = record.machine ∧
    Whole setting episode.events ∧
    ((∃ value, chronicle record = .ok value ⟨episode.last, episode.events ++ record.events⟩ ∧
        episode.result = tell value) ∨
      ∃ reason, chronicle record = .error reason ⟨episode.last, episode.events ++ record.events⟩ ∧
        episode.result = .halted reason)

/-- Whatever a step writes down inside a task accords with what it does. -/
def Accounts (setting : Setting) (task : Task) (tell : α → Result) (chronicle : Chronicle α)
    (record : Record) : Prop :=
  ∀ inside (balanced : Balanced inside), (ended (chronicle record)).events = inside ++ record.events →
    Episode.Accords setting ⟨task, record.machine, inside, told tell (chronicle record),
      (ended (chronicle record)).machine, balanced⟩

namespace Accounts

variable {setting : Setting} {task : Task} {tell : α → Result} {chronicle : Chronicle α}

theorem ok (ran : chronicle record = .ok value after) (added : after.events = events ++ record.events)
    (accords : ∀ balanced,
      Episode.Accords setting ⟨task, record.machine, events, tell value, after.machine, balanced⟩) :
    Accounts setting task tell chronicle record := by
  intro inside balanced added'
  rw [ran] at added' ⊢
  obtain rfl := List.append_cancel_right (added.symm.trans added')
  exact accords balanced

theorem error (ran : chronicle record = .error reason after)
    (added : after.events = events ++ record.events)
    (accords : ∀ balanced,
      Episode.Accords setting ⟨task, record.machine, events, .halted reason, after.machine, balanced⟩) :
    Accounts setting task tell chronicle record := by
  intro inside balanced added'
  rw [ran] at added' ⊢
  obtain rfl := List.append_cancel_right (added.symm.trans added')
  exact accords balanced

end Accounts

namespace Notes

variable {setting : Setting} {task : Task} {tell : α → Result} {chronicle : Chronicle α}

theorem adds (notes : Notes setting task tell chronicle) : Adds setting chronicle := by
  intro record
  obtain ⟨episode, _, _, whole, ⟨value, ran, _⟩ | ⟨reason, ran, _⟩⟩ := notes record <;>
    exact ⟨episode.events, whole, by rw [ran]; rfl⟩

theorem observe (adds : Adds setting chronicle)
    (accounts : ∀ record, Accounts setting task tell chronicle record) :
    Notes setting task tell (observe task tell chronicle) := by
  intro record
  obtain ⟨inside, whole, added⟩ := adds (record.note (.began task record.machine))
  have accords := accounts _ inside whole.balanced added
  refine ⟨⟨task, record.machine, inside, _, _, whole.balanced⟩, rfl, rfl, .single _ whole accords, ?_⟩
  unfold Chronicle.observe
  cases ran : chronicle (record.note (.began task record.machine)) with
  | ok value after =>
    rw [ran] at added
    refine .inl ⟨value, ?_, rfl⟩
    simp only [Record.note, Episode.events, told, ended] at added ⊢
    simp [added]
  | error reason after =>
    rw [ran] at added
    refine .inr ⟨reason, ?_, rfl⟩
    simp only [Record.note, Episode.events, told, ended] at added ⊢
    simp [added]

end Notes

/-- Parts of which each writes down one whole episode. -/
structure Tells (setting : Setting) (parts : Parts Chronicle) : Prop where
  evaluate : ∀ tree, Notes setting (.evaluate tree) .value (parts.evaluate tree)
  evaluateAll : ∀ trees, Notes setting (.evaluateAll trees) .values (parts.evaluateAll trees)
  call : ∀ callee arguments, Notes setting (.call callee arguments) .value (parts.call callee arguments)
  invoke : ∀ closure arguments,
    Notes setting (.invoke closure arguments) .value (parts.invoke closure arguments)
  execute : ∀ tree, Notes setting (.execute tree) .flow (parts.execute tree)
  executeAll : ∀ trees, Notes setting (.executeAll trees) .flow (parts.executeAll trees)

theorem Tells.adds {setting : Setting} {parts : Parts Chronicle} (tells : Tells setting parts) :
    parts.Related (fun α (chronicle _ : Chronicle α) => Adds setting chronicle) parts where
  evaluate tree := (tells.evaluate tree).adds
  evaluateAll trees := (tells.evaluateAll trees).adds
  call callee arguments := (tells.call callee arguments).adds
  invoke closure arguments := (tells.invoke closure arguments).adds
  execute tree := (tells.execute tree).adds
  executeAll trees := (tells.executeAll trees).adds

/-- How the parts of calls, and of what gives methods, come to their values. -/
structure Accounted (setting : Setting) (parts : Parts Chronicle) : Prop where
  evaluate : ∀ tree record, Accounts setting (.evaluate tree) .value (parts.evaluateWhole setting tree) record
  call : ∀ callee arguments record,
    Accounts setting (.call callee arguments) .value (parts.callWhole setting callee arguments) record
  invoke : ∀ closure arguments record,
    Accounts setting (.invoke closure arguments) .value (parts.invokeWhole closure arguments) record

theorem lift_ok {single : Eval α} (ran : single record.machine = .ok value after) :
    (Host.step single : Chronicle α) record = .ok value { record with machine := after } := by
  change lift single record = _
  simp only [lift, ran]

theorem lift_error {single : Eval α} (ran : single record.machine = .error reason after) :
    (Host.step single : Chronicle α) record = .error reason { record with machine := after } := by
  change lift single record = _
  simp only [lift, ran]

theorem evaluateWhole_super (parts : Parts Chronicle) (setting : Setting) (id : NodeId) (line : Nat)
    (name : Name) (record : Record) : Accounts setting (.evaluate (.super id line name)) .value
      (parts.evaluateWhole setting (.super id line name)) record := by
  cases ran : Eval.readSuper setting id line name record.machine with
  | error reason after => exact .error (lift_error ran) (List.nil_append _).symm nofun
  | ok value after =>
    refine .ok (lift_ok ran) (List.nil_append _).symm ?_
    rintro _ _ ⟨⟩
    exact Eval.Leads.readSuper id line name value after ran

/-- A call of a class creates an instance. If there is an initializer, it is invoked, bound to the instance,
and whatever it gives, the instance is what comes of the call. -/
theorem callWhole_ofClass (parts : Parts Chronicle) (setting : Setting) (owner : ClassRef)
    (arguments : List Value) (record : Record) : ∃ created : InstanceRef,
      (record.machine.heap.method? owner initializerName = none ∧ ∃ after : Machine,
        record.machine.heap.Creates after.heap owner created ∧
        parts.callWhole setting (.ofClass owner) arguments record =
          .ok (.object created) { record with machine := after }) ∨
      ∃ method closure, ∃ bound : Machine,
        record.machine.heap.method? owner initializerName = some method ∧
        record.machine.heap.Creates bound.heap owner created ∧
        bound.heap.Bound method created closure ∧
        parts.callWhole setting (.ofClass owner) arguments record =
          (parts.invoke closure arguments >>= fun _ => pure (.object created))
            { record with machine := bound } := by
  let created : InstanceRef := ⟨record.machine.heap.instances.size⟩
  let made : Machine := { record.machine with
    heap.instances := record.machine.heap.instances.push ⟨owner, .empty⟩ }
  have creates : record.machine.heap.Creates made.heap owner created :=
    ⟨rfl, by simp [made, created], by simp [made, created, Heap.instanceAt]⟩
  have looked : made.heap.method? owner initializerName =
      record.machine.heap.method? owner initializerName := Heap.methodWithin?_instances ..
  have making : (Host.step (Eval.newInstance owner) : Chronicle InstanceRef) record =
      .ok created { record with machine := made } := lift_ok rfl
  have looking : (Host.step (Eval.inspect (·.method? owner initializerName)) :
      Chronicle (Option Closure)) { record with machine := made } =
      .ok (record.machine.heap.method? owner initializerName) { record with machine := made } :=
    lift_ok (by rw [← looked]; rfl)
  refine ⟨created, ?_⟩
  cases found : record.machine.heap.method? owner initializerName with
  | none =>
    rw [found] at looking
    exact .inl ⟨rfl, made, creates, (bind_ok making).trans (bind_ok looking)⟩
  | some method =>
    rw [found] at looking
    obtain ⟨closure, last, ran, bound, same⟩ := Eval.bindMethod_ok method created made
    have binding : (Host.step (Eval.bindMethod method created) : Chronicle Closure)
        { record with machine := made } = .ok closure { record with machine := last } := lift_ok ran
    refine .inr ⟨method, closure, last, rfl, ?_, bound, ?_⟩
    · exact ⟨creates.new, same ▸ creates.made, by rw [Heap.instanceAt, same]; exact creates.owner⟩
    · exact (bind_ok making).trans ((bind_ok looking).trans (bind_ok binding))

namespace Tells

variable {setting : Setting} {parts : Parts Chronicle} (tells : Tells setting parts)

include tells

/-- What a call expression does when it has the values of its arguments. -/
theorem prepared {callee : Expr} {arguments : List Expr} {function : Callable} {values : List Value}
    {first second : Episode} (prepares : Prepares callee arguments function values first second)
    (line : Nat) (record : Record)
    (reached : parts.evaluateWhole setting (.call callee line arguments) record =
      (if values.length = second.last.heap.arity function then
        Host.deeper line (parts.call function values)
      else Host.step (Eval.fault (.wrongArity (second.last.heap.arity function) values.length) line))
        ⟨second.last, second.events ++ (first.events ++ record.events)⟩) :
    Accounts setting (.evaluate (.call callee line arguments)) .value
      (parts.evaluateWhole setting (.call callee line arguments)) record := by
  have added : second.events ++ (first.events ++ record.events) =
      (second.events ++ first.events) ++ record.events := (List.append_assoc ..).symm
  by_cases count : values.length = second.last.heap.arity function
  · rw [if_pos count] at reached
    by_cases room : second.last.depth < maxDepth
    · have entered := reached.trans (if_pos room)
      obtain ⟨third, task, start, _, outcome⟩ :=
        tells.call function values ⟨{ second.last with depth := second.last.depth + 1 },
          second.events ++ (first.events ++ record.events)⟩
      have heap : third.start.heap = second.last.heap := by rw [start]
      have called : Applies callee line arguments _ third.result := .called prepares count task heap
      have added : third.events ++ (second.events ++ (first.events ++ record.events)) =
          (third.events ++ (second.events ++ first.events)) ++ record.events := by
        simp only [List.append_assoc]
      rcases outcome with ⟨value, ran, result⟩ | ⟨reason, ran, result⟩
      · rw [ran] at entered
        exact .ok entered added fun _ => result ▸ called
      · rw [ran] at entered
        exact .error entered added fun _ => result ▸ called
    · exact .error (reached.trans (if_neg room)) added fun _ =>
        .full prepares count (Nat.not_lt.mp room)
  · rw [if_neg count] at reached
    exact .error reached added fun _ => .refused prepares count

theorem evaluateWhole_call (callee : Expr) (line : Nat) (arguments : List Expr) (record : Record) :
    Accounts setting (.evaluate (.call callee line arguments)) .value
      (parts.evaluateWhole setting (.call callee line arguments)) record := by
  obtain ⟨first, task, _, _, ⟨value, ran, result⟩ | ⟨reason, ran, result⟩⟩ := tells.evaluate callee record
  · cases value with
    | callable function =>
      obtain ⟨second, task', _, _, ⟨values, ran', result'⟩ | ⟨reason, ran', result'⟩⟩ :=
        tells.evaluateAll arguments ⟨first.last, first.events ++ record.events⟩
      · exact tells.prepared ⟨task, result, task', result'⟩ line record
          ((bind_ok ran).trans (bind_ok ran'))
      · exact .error ((bind_ok ran).trans (bind_error ran')) (List.append_assoc ..).symm
          fun _ => .interrupted task result task' result'
    | _ => exact .error (bind_ok ran) rfl fun _ => .unready task (by rw [result]; nofun)
  · exact .error (bind_error ran) rfl fun _ => .unready task (by rw [result]; nofun)

theorem evaluateWhole_get (object : Expr) (name : Name) (record : Record) :
    Accounts setting (.evaluate (.get object name)) .value (parts.evaluateWhole setting (.get object name))
      record := by
  obtain ⟨first, task, _, _, ⟨value, ran, result⟩ | ⟨reason, ran, result⟩⟩ := tells.evaluate object record
  · cases value with
    | object receiver =>
      cases read : Eval.readProperty receiver name first.last with
      | error reason after => exact .error ((bind_ok ran).trans (lift_error read)) rfl nofun
      | ok value after =>
        refine .ok ((bind_ok ran).trans (lift_ok read)) rfl ?_
        rintro _ _ ⟨⟩
        exact ⟨first, receiver, task, result, rfl, Eval.Leads.readProperty receiver name value after read⟩
    | _ => exact .error (bind_ok ran) rfl nofun
  · exact .error (bind_error ran) rfl nofun

theorem evaluateWhole (tree : Expr) (record : Record) :
    Accounts setting (.evaluate tree) .value (parts.evaluateWhole setting tree) record := by
  cases tree with
  | call callee line arguments => exact tells.evaluateWhole_call callee line arguments record
  | get object name => exact tells.evaluateWhole_get object name record
  | super id line name => exact evaluateWhole_super parts setting id line name record
  | _ => exact fun _ _ _ => trivial

theorem callWhole (callee : Callable) (arguments : List Value) (record : Record) :
    Accounts setting (.call callee arguments) .value (parts.callWhole setting callee arguments) record := by
  cases callee with
  | clock => exact fun _ _ _ => trivial
  | ofFunction ref =>
    have looked : (Host.step (Eval.inspect (·.closureAt ref)) : Chronicle Closure) record =
        .ok (record.machine.heap.closureAt ref) record := lift_ok rfl
    obtain ⟨run, task, _, _, ⟨value, ran, result⟩ | ⟨reason, ran, _⟩⟩ :=
      tells.invoke (record.machine.heap.closureAt ref) arguments record
    · refine .ok ((bind_ok looked).trans ran) rfl ?_
      rintro _ _ ⟨⟩
      exact ⟨run, task, result, rfl⟩
    · exact .error ((bind_ok looked).trans ran) rfl nofun
  | ofClass owner =>
    obtain ⟨created, ⟨none, after, creates, ran⟩ | ⟨method, closure, bound, found, creates, binds, ran⟩⟩ :=
      callWhole_ofClass parts setting owner arguments record
    · refine .ok ran (List.nil_append _).symm ?_
      rintro _ _ ⟨⟩
      exact ⟨created, rfl, .plain none creates⟩
    · obtain ⟨run, task, start, _, ⟨value, ran', ended⟩ | ⟨reason, ran', _⟩⟩ :=
        tells.invoke closure arguments { record with machine := bound }
      have here : run.start = bound := start
      · refine .ok (ran.trans (bind_ok ran')) rfl ?_
        rintro _ _ ⟨⟩
        exact ⟨created, rfl, .initialized found task ended (here ▸ creates) (here ▸ binds)⟩
      · exact .error (ran.trans (bind_error ran')) rfl nofun

theorem invokeWhole (closure : Closure) (arguments : List Value) (record : Record) :
    Accounts setting (.invoke closure arguments) .value (parts.invokeWhole closure arguments) record := by
  obtain ⟨entered, same, enters, run⟩ := invokeWhole_run parts closure arguments record
  obtain ⟨body, task, start, _, ⟨flow, ran, result⟩ | ⟨reason, ran, _⟩⟩ :=
    tells.executeAll closure.routine.body entered
  · rw [ran, same] at run
    refine .ok run rfl ?_
    rintro _ _ ⟨⟩
    exact ⟨body, flow, task, result, start ▸ enters, rfl⟩
  · rw [ran, same] at run
    exact .error run rfl nofun

theorem accounted : Accounted setting parts where
  evaluate := tells.evaluateWhole
  call := tells.callWhole
  invoke := tells.invokeWhole

end Tells

namespace Accounted

theorem exhausted (setting : Setting) : Accounted setting .exhausted where
  evaluate tree record := by
    have halted (accords : ∀ balanced, Episode.Accords setting
          ⟨.evaluate tree, record.machine, [], .halted .outOfFuel, record.machine, balanced⟩)
        (ran : Parts.evaluateWhole setting (.exhausted : Parts Chronicle) tree record =
          .error .outOfFuel record) :
        Accounts setting (.evaluate tree) .value (Parts.evaluateWhole setting .exhausted tree) record :=
      .error ran (List.nil_append _).symm accords
    cases tree with
    | call callee line arguments => exact halted (fun _ => .exhausted) rfl
    | get object name => exact halted nofun rfl
    | super id line name => exact evaluateWhole_super .exhausted setting id line name record
    | _ => exact fun _ _ _ => trivial
  call callee arguments record := by
    cases callee with
    | clock => exact fun _ _ _ => trivial
    | ofFunction ref => exact .error rfl (List.nil_append _).symm nofun
    | ofClass owner =>
      obtain ⟨created, ⟨none, after, creates, ran⟩ | ⟨_, _, _, _, _, _, ran⟩⟩ :=
        callWhole_ofClass .exhausted setting owner arguments record
      · refine .ok ran (List.nil_append _).symm ?_
        rintro _ _ ⟨⟩
        exact ⟨created, rfl, .plain none creates⟩
      · exact .error ran (List.nil_append _).symm nofun
  invoke closure arguments record := by
    obtain ⟨entered, same, _, run⟩ := invokeWhole_run .exhausted closure arguments record
    have halted : (Parts.exhausted : Parts Chronicle).executeAll closure.routine.body entered =
        .error .outOfFuel entered := rfl
    rw [halted] at run
    exact .error run (same.trans (List.nil_append _).symm) nofun

variable {parts : Parts Chronicle} {setting : Setting}

/-- What is written down on the way tells of whole episodes. -/
theorem observed (accounted : Accounted setting parts)
    (adds : parts.Related (fun α (chronicle _ : Chronicle α) => Adds setting chronicle) parts) :
    Tells setting (Chronicle.observed (parts.whole setting)) := by
  have whole := Adds.relating.whole setting adds
  exact {
    evaluate tree := .observe (whole.evaluate tree) (accounted.evaluate tree)
    evaluateAll trees := .observe (whole.evaluateAll trees) fun _ _ _ _ => trivial
    call callee arguments := .observe (whole.call callee arguments) (accounted.call callee arguments)
    invoke closure arguments :=
      .observe (whole.invoke closure arguments) (accounted.invoke closure arguments)
    execute tree := .observe (whole.execute tree) fun _ _ _ _ => trivial
    executeAll trees := .observe (whole.executeAll trees) fun _ _ _ _ => trivial }

end Accounted

/-- By induction on the fuel, evaluation writes down whole episodes. -/
theorem parts_add (setting : Setting) (fuel : Nat) : Accounted setting (parts setting fuel) ∧
    (parts setting fuel).Related (fun α (chronicle _ : Chronicle α) => Adds setting chronicle)
      (parts setting fuel) := by
  induction fuel with
  | zero => exact ⟨.exhausted setting, Adds.relating.exhausted⟩
  | succ fuel ih =>
    have tells := ih.1.observed ih.2
    exact ⟨tells.accounted, tells.adds⟩

theorem interpret_adds (setting : Setting) (fuel : Nat) (body : List Stmt) :
    Adds setting (interpret setting fuel body) :=
  Adds.relating.interpret (parts_add setting fuel).2 body

/-- What a run of an accepted source writes down are whole episodes. -/
theorem ofRun_whole (checked : (checkSource source 0).outcome = .ok program) (clock : Nat → Float)
    (fuel : Nat) (capacity : Option Nat) :
    Whole ⟨program.distances, clock⟩ (Record.ofRun clock fuel capacity source).events := by
  obtain ⟨events, whole, added⟩ :=
    interpret_adds ⟨program.distances, clock⟩ fuel program.body (.start capacity)
  unfold Record.ofRun
  rw [checked]
  unfold Record.proceed
  rw [added]
  simpa [Record.start] using whole

end Chronicle

end Lox
