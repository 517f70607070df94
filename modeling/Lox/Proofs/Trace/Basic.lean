import Lox.Machine.Evaluate
import Lox.Proofs.Steps

/-! Steps that record what they rely on. A use is a place of a run at which a name is found by the
table of distances, or at which an initializer gives its instance, and it is recorded with the machine
that it finds. Apart from the record a recording step is the step itself. -/

namespace Lox

/-- The scope a number of links outward exists and binds a name to a value. -/
def Scopes.Binds (scopes : Scopes) (scope : ScopeRef) (distance : Nat) (name : String)
    (value : Value) : Prop :=
  ∃ target, scopes.ancestor? scope distance = some target ∧ scopes.valueIn? target name = some value

/-- What halts a run only where a name is looked up. -/
def Halt.OfUse : Halt → Prop
  | .fault ⟨.undefinedVariable _, _⟩ | .fault ⟨.unresolvedSuper, _⟩
  | .fault ⟨.unresolvedThis, _⟩ => True
  | _ => False

namespace Trace

open Eval (readName targetScope readSuper)

variable {α β : Type}

inductive Use where
  | read (id : NodeId) (name : Name)
  | assign (id : NodeId) (name : Name)
  | this (id : NodeId) (line : Nat)
  | super (id : NodeId) (line : Nat) (method : Name)
  | result (closure : Closure)

/-- A use in the machine that it finds. -/
structure Visit where
  use : Use
  machine : Machine

/-- A use finds what it relies on. The scope of `this` is one link nearer than that of `super`. -/
def Visit.Sound (distances : Distances) : Visit → Prop
  | ⟨.read id name, machine⟩ => ∀ distance, distances[id]? = some distance →
    ∃ value, machine.heap.scopes.Binds machine.scope distance name.text value
  | ⟨.assign id _, machine⟩ => ∀ distance, distances[id]? = some distance →
    ∃ target, machine.heap.scopes.ancestor? machine.scope distance = some target
  | ⟨.this id _, machine⟩ => ∃ distance receiver, distances[id]? = some distance ∧
    machine.heap.scopes.Binds machine.scope distance "this" (.object receiver)
  | ⟨.super id _ _, machine⟩ => ∃ distance superclass receiver,
    distances[id]? = some (distance + 1) ∧
    machine.heap.scopes.Binds machine.scope (distance + 1) "super"
      (.callable (.ofClass superclass)) ∧
    machine.heap.scopes.Binds machine.scope distance "this" (.object receiver)
  | ⟨.result closure, machine⟩ => closure.isInitializer = true →
    ∃ receiver, machine.heap.scopes.valueIn? closure.scope "this" = some (.object receiver)

/-- A machine with what was recorded on the way to it, the latest first. -/
structure Log where
  machine : Machine
  visits : List Visit

abbrev Traced := EStateM Halt Log

/-- A step that relies on nothing worth a record. -/
def lift (step : Eval α) : Traced α := fun log =>
  match step log.machine with
  | .ok value machine => .ok value { log with machine }
  | .error reason machine => .error reason { log with machine }

def record (use : Use) : Traced Unit := fun log =>
  .ok () { log with visits := ⟨use, log.machine⟩ :: log.visits }

/-- Runs a step inside a scope and comes back to the present one, however the step ends. -/
def within (scope : ScopeRef) (step : Traced α) : Traced α := fun log =>
  let outer := log.machine.scope
  match step { log with machine.scope := scope } with
  | .ok value after => .ok value { after with machine.scope := outer }
  | .error reason after => .error reason { after with machine.scope := outer }

/-- Counts a call as in progress during a step, however the step ends. -/
def deeper (line : Nat) (step : Traced α) : Traced α := fun log =>
  let depth := log.machine.depth
  if depth < maxDepth then
    match step { log with machine.depth := depth + 1 } with
    | .ok value after => .ok value { after with machine.depth := depth }
    | .error reason after => .error reason { after with machine.depth := depth }
  else
    lift (Eval.fault .stackOverflow line) log

def erase : EStateM.Result Halt Log α → EStateM.Result Halt Machine α
  | .ok value log => .ok value log.machine
  | .error reason log => .error reason log.machine

def recorded : EStateM.Result Halt Log α → List Visit
  | .ok _ log | .error _ log => log.visits

theorem erase_within (scope : ScopeRef) (traced : Traced α) (log : Log) :
    erase (within scope traced log) =
      Eval.within scope (fun machine => erase (traced { log with machine })) log.machine := by
  unfold within Eval.within
  dsimp only
  cases traced { log with machine.scope := scope } <;> rfl

theorem recorded_within (scope : ScopeRef) (traced : Traced α) (log : Log) :
    recorded (within scope traced log) = recorded (traced { log with machine.scope := scope }) := by
  unfold within
  dsimp only
  cases traced { log with machine.scope := scope } <;> rfl

theorem erase_deeper (line : Nat) (traced : Traced α) (log : Log) :
    erase (deeper line traced log) =
      Eval.deeper line (fun machine => erase (traced { log with machine })) log.machine := by
  unfold deeper Eval.deeper
  dsimp only
  split
  · cases traced { log with machine.depth := log.machine.depth + 1 } <;> rfl
  · rfl

theorem recorded_deeper (line : Nat) (traced : Traced α) (log : Log) :
    recorded (deeper line traced log) =
      if log.machine.depth < maxDepth then
        recorded (traced { log with machine.depth := log.machine.depth + 1 })
      else log.visits := by
  unfold deeper
  dsimp only
  split
  · cases traced { log with machine.depth := log.machine.depth + 1 } <;> rfl
  · rfl

/-- A use that halts the run. -/
def Visit.Halts (setting : Setting) (reason : Halt) : Visit → Prop
  | ⟨.read id name, machine⟩ => ∃ after, readName setting id name machine = .error reason after
  | ⟨.assign id name, machine⟩ =>
    ∃ after, targetScope setting id name machine = .error reason after
  | ⟨.this id line, machine⟩ =>
    ∃ after, readName setting id ⟨"this", line⟩ machine = .error reason after
  | ⟨.super id line method, machine⟩ =>
    ∃ after, readSuper setting id line method machine = .error reason after
  | ⟨.result _, _⟩ => False

/-- A step that looks no name up. -/
def Quiet (step : Eval α) : Prop :=
  ∀ machine reason after, step machine = .error reason after → ¬ reason.OfUse

namespace Quiet

/-- A step that cannot fail. -/
theorem ok {step : Eval α} {value : Machine → α} {after : Machine → Machine}
    (runs : ∀ machine, step machine = .ok (value machine) (after machine)) : Quiet step := by
  intro machine reason after failed
  cases (runs machine).symm.trans failed

theorem pure (value : α) : Quiet (Pure.pure value) := ok fun _ => rfl

theorem bind {step : Eval α} {later : α → Eval β} (first : Quiet step)
    (rest : ∀ value, Quiet (later value)) : Quiet (step >>= later) := by
  intro machine reason after failed
  rcases bind_eq_error failed with begun | ⟨value, middle, _, ended⟩
  · exact first _ _ _ begun
  · exact rest value _ _ _ ended

theorem halt {reason : Halt} (other : ¬ reason.OfUse) : Quiet (Eval.halt reason : Eval α) := by
  rintro _ _ _ ⟨⟩
  exact other

theorem orFault {result : Except RuntimeFault α}
    (other : ∀ fault, result = .error fault → ¬ (Halt.fault ⟨fault, line⟩).OfUse) :
    Quiet (Eval.orFault line result) := by
  cases result with
  | ok value => exact pure value
  | error fault => exact halt (other fault rfl)

theorem inspect (view : Heap → α) : Quiet (Eval.inspect view) := ok fun _ => rfl

theorem currentScope : Quiet Eval.currentScope := ok fun _ => rfl

theorem newScope : Quiet (Eval.newScope bindings enclosing) := ok fun _ => rfl

theorem define : Quiet (Eval.define name value) := ok fun _ => rfl

theorem newFunction {closure : Closure} : Quiet (Eval.newFunction closure) := ok fun _ => rfl

theorem bindMethod : Quiet (Eval.bindMethod method receiver) := ok fun _ => rfl

theorem printLine : Quiet (Eval.printLine text) := by
  intro machine reason after failed
  unfold Eval.printLine at failed
  dsimp only at failed
  split at failed
  · cases failed
  · cases failed
    exact id

theorem readProperty : Quiet (Eval.readProperty receiver name) := by
  refine (inspect _).bind fun found => ?_
  cases found with
  | some value => exact pure _
  | none =>
    refine (inspect _).bind fun found => ?_
    cases found with
    | some method => exact bindMethod.bind fun _ => newFunction
    | none => exact halt id

theorem callResult (closure : Closure) (flow : Flow) : Quiet (Eval.callResult closure flow) := by
  unfold Eval.callResult
  split
  · exact (inspect _).bind fun _ => pure _
  · split <;> exact pure _

theorem unary (op : UnaryOp) (line : Nat) (value : Value) :
    Quiet (Eval.orFault line (op.apply value)) := by
  refine orFault fun fault failed => ?_
  unfold UnaryOp.apply at failed
  split at failed <;> cases failed
  exact id

theorem binary (op : BinaryOp) (line : Nat) (left right : Value) :
    Quiet (Eval.orFault line (op.apply left right)) := by
  refine orFault fun fault failed => ?_
  unfold BinaryOp.apply at failed
  split at failed <;> cases failed <;> exact id

theorem settleClass (object : ClassObject) (name : String) :
    Quiet (Eval.newClass object >>= Eval.define name) := ok fun _ => rfl

/-- A step that is followed by quiet ones is the one that looks a name up. -/
theorem of_bind {step : Eval α} {later : α → Eval β} (rest : ∀ value, Quiet (later value))
    (failed : (step >>= later) machine = .error reason after) (ofUse : reason.OfUse) :
    ∃ after, step machine = .error reason after := by
  rcases bind_eq_error failed with begun | ⟨value, middle, _, ended⟩
  · exact ⟨after, begun⟩
  · exact absurd ofUse (rest value _ _ _ ended)

end Quiet

/-- A recording step that is a step apart from its record, and that records which use is to blame. -/
structure Faithful (setting : Setting) (traced : Traced α) (step : Eval α) : Prop where
  erases : ∀ log, erase (traced log) = step log.machine
  blames : ∀ {log reason after}, traced log = .error reason after → reason.OfUse →
    ∃ visit ∈ after.visits, visit.Halts setting reason

namespace Faithful

variable {setting : Setting}

theorem lift {step : Eval α} (quiet : Quiet step) : Faithful setting (lift step) step where
  erases log := by
    unfold Trace.lift
    cases step log.machine <;> rfl
  blames {log reason after} failed ofUse := by
    unfold Trace.lift at failed
    split at failed
    · cases failed
    · rename_i ran
      cases failed
      exact absurd ofUse (quiet _ _ _ ran)

theorem pure (value : α) : Faithful setting (Pure.pure value) (Pure.pure value) :=
  ⟨fun _ => rfl, nofun⟩

theorem bind {traced : Traced α} {step : Eval α} {later : α → Traced β} {later' : α → Eval β}
    (first : Faithful setting traced step)
    (rest : ∀ value, Faithful setting (later value) (later' value)) :
    Faithful setting (traced >>= later) (step >>= later') where
  erases log := by
    rw [bind_apply, bind_apply, ← first.erases log]
    cases traced log with
    | ok value log' => exact (rest value).erases log'
    | error => rfl
  blames {log reason after} failed ofUse := by
    rcases bind_eq_error failed with begun | ⟨value, middle, _, ended⟩
    · exact first.blames begun ofUse
    · exact (rest value).blames ended ofUse

/-- A use and the step that depends on it. -/
theorem use {use : Use} {step : Eval α}
    (halts : ∀ {machine reason after}, step machine = .error reason after → reason.OfUse →
      Visit.Halts setting reason ⟨use, machine⟩) :
    Faithful setting (record use >>= fun _ => Trace.lift step) step where
  erases log := by
    change erase (Trace.lift step _) = _
    unfold Trace.lift
    cases step log.machine <;> rfl
  blames {log reason after} failed ofUse := by
    change Trace.lift step { log with visits := ⟨use, log.machine⟩ :: log.visits } = _ at failed
    unfold Trace.lift at failed
    split at failed
    · cases failed
    · rename_i ran
      cases failed
      exact ⟨_, List.mem_cons_self, halts ran ofUse⟩

theorem discard {traced : Traced α} {step : Eval α} (first : Faithful setting traced step) :
    Faithful setting (discard traced) (discard step) :=
  first.bind fun _ => pure ()

theorem within {traced : Traced α} {step : Eval α} (scope : ScopeRef)
    (inside : Faithful setting traced step) :
    Faithful setting (within scope traced) (Eval.within scope step) where
  erases log := by
    rw [erase_within]
    exact congrArg (Eval.within scope · log.machine) (funext fun machine => inside.erases _)
  blames {log reason after} failed ofUse := by
    unfold Trace.within at failed
    dsimp only at failed
    split at failed
    · cases failed
    · rename_i ran
      cases failed
      have blamed := inside.blames ran ofUse
      exact blamed

theorem deeper {traced : Traced α} {step : Eval α} (line : Nat)
    (inside : Faithful setting traced step) :
    Faithful setting (deeper line traced) (Eval.deeper line step) where
  erases log := by
    rw [erase_deeper]
    exact congrArg (Eval.deeper line · log.machine) (funext fun machine => inside.erases _)
  blames {log reason after} failed ofUse := by
    unfold Trace.deeper at failed
    dsimp only at failed
    split at failed
    · split at failed
      · cases failed
      · rename_i ran
        cases failed
        have blamed := inside.blames ran ofUse
        exact blamed
    · cases failed
      exact ofUse.elim

end Faithful

end Trace

end Lox
