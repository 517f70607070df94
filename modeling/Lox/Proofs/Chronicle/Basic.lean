import Lox.Proofs.Course.Basic
import Lox.Proofs.Machine.Parts

/-! The chronicle of a run: what it did and what came of it, in order. The start of every task is written
down and so is its end, with the result, or with what halted the run. Apart from what is written a run with
a chronicle is the run itself. -/

namespace Lox

namespace Chronicle

open Course (Task)

/-- What came of a task. -/
inductive Result where
  | value (value : Value)
  | values (values : List Value)
  | flow (flow : Flow)
  | halted (reason : Halt)

/-- The start or the end of a task, with the machine in which it starts or ends. -/
inductive Event where
  | began (task : Task) (machine : Machine)
  | ended (task : Task) (result : Result) (machine : Machine)

namespace Event

def task : Event → Task
  | began task _ | ended task _ _ => task

def machine : Event → Machine
  | began _ machine | ended _ _ machine => machine

end Event

/-- A machine with what was written down on the way to it, the latest first. -/
structure Record where
  machine : Machine
  events : List Event

def Record.note (record : Record) (event : Event) : Record :=
  { record with events := event :: record.events }

end Chronicle

/-- A step that writes down what it does. -/
abbrev Chronicle := EStateM Halt Chronicle.Record

namespace Chronicle

open Course (Task)

variable {α β : Type}

/-- A step of the evaluator, of which nothing is written down. -/
def lift (step : Eval α) : Chronicle α := fun record =>
  match step record.machine with
  | .ok value machine => .ok value { record with machine }
  | .error reason machine => .error reason { record with machine }

/-- Changes the record with which a step ends, also where it halts the run. -/
def conclude (change : Record → Record) : EStateM.Result Halt Record α → EStateM.Result Halt Record α
  | .ok value record => .ok value (change record)
  | .error reason record => .error reason (change record)

/-- Runs a step inside a scope and comes back to the present one. -/
def within (scope : ScopeRef) (step : Chronicle α) : Chronicle α := fun record =>
  conclude (fun after => { after with machine.scope := record.machine.scope })
    (step { record with machine.scope := scope })

/-- Counts a call as in progress during a step. -/
def deeper (line : Nat) (step : Chronicle α) : Chronicle α := fun record =>
  let depth := record.machine.depth
  if depth < maxDepth then
    conclude (fun after => { after with machine.depth := depth })
      (step { record with machine.depth := depth + 1 })
  else
    lift (Eval.fault .stackOverflow line) record

instance : Host Chronicle where
  step := lift
  within := within
  deeper := deeper

/-- Writes down the start of a task and its end, with what came of it. -/
def observe (task : Task) (result : α → Result) (step : Chronicle α) : Chronicle α := fun record =>
  match step (record.note (.began task record.machine)) with
  | .ok value after => .ok value (after.note (.ended task (result value) after.machine))
  | .error reason after => .error reason (after.note (.ended task (.halted reason) after.machine))

/-- Writes down the tasks that evaluation is made of. -/
def observed (parts : Parts Chronicle) : Parts Chronicle where
  evaluate tree := observe (.evaluate tree) .value (parts.evaluate tree)
  evaluateAll trees := observe (.evaluateAll trees) .values (parts.evaluateAll trees)
  call callee arguments := observe (.call callee arguments) .value (parts.call callee arguments)
  invoke closure arguments := observe (.invoke closure arguments) .value (parts.invoke closure arguments)
  execute tree := observe (.execute tree) .flow (parts.execute tree)
  executeAll trees := observe (.executeAll trees) .flow (parts.executeAll trees)

/-- Evaluation with some fuel and with a chronicle. -/
def parts (setting : Setting) : (fuel : Nat) → Parts Chronicle
  | 0 => .exhausted
  | fuel + 1 => observed ((parts setting fuel).whole setting)

/-- Executes statements at the top level. -/
def interpret (setting : Setting) (fuel : Nat) (body : List Stmt) : Chronicle Unit :=
  (parts setting fuel).interpret body

def erase : EStateM.Result Halt Record α → EStateM.Result Halt Machine α
  | .ok value record => .ok value record.machine
  | .error reason record => .error reason record.machine

/-- The record at the end of a step, also where it halts the run. -/
def ended : EStateM.Result Halt Record α → Record
  | .ok _ record | .error _ record => record

theorem ended_conclude (change : Record → Record) (result : EStateM.Result Halt Record α) :
    ended (conclude change result) = change (ended result) := by
  cases result <;> rfl

/-- A step that does what a step of the evaluator does, apart from what it writes. -/
def Erases (chronicle : Chronicle α) (step : Eval α) : Prop :=
  ∀ record, erase (chronicle record) = step record.machine

namespace Erases

theorem bind {chronicle : Chronicle α} {step : Eval α} {later : α → Chronicle β}
    {later' : α → Eval β} (first : Erases chronicle step)
    (rest : ∀ value, Erases (later value) (later' value)) :
    Erases (chronicle >>= later) (step >>= later') := by
  intro record
  rw [bind_apply, bind_apply, ← first record]
  cases chronicle record with
  | ok value middle => exact rest value middle
  | error reason middle => rfl

theorem lift (step : Eval α) : Erases (lift step) step := by
  intro record
  unfold Chronicle.lift
  cases step record.machine <;> rfl

theorem within (scope : ScopeRef) {chronicle : Chronicle α} {step : Eval α}
    (inside : Erases chronicle step) : Erases (within scope chronicle) (Eval.within scope step) := by
  intro record
  have here := inside { record with machine.scope := scope }
  unfold Chronicle.within Eval.within
  dsimp only at here ⊢
  rw [← here]
  cases chronicle { record with machine.scope := scope } <;> rfl

theorem deeper (line : Nat) {chronicle : Chronicle α} {step : Eval α}
    (inside : Erases chronicle step) : Erases (deeper line chronicle) (Eval.deeper line step) := by
  intro record
  have here := inside { record with machine.depth := record.machine.depth + 1 }
  unfold Chronicle.deeper Eval.deeper
  dsimp only at here ⊢
  split
  · rw [← here]
    cases chronicle { record with machine.depth := record.machine.depth + 1 } <;> rfl
  · rfl

theorem observe (task : Task) (result : α → Result) {chronicle : Chronicle α} {step : Eval α}
    (inside : Erases chronicle step) : Erases (observe task result chronicle) step := by
  intro record
  have here := inside (record.note (.began task record.machine))
  unfold Chronicle.observe
  cases ran : chronicle (record.note (.began task record.machine)) <;>
    · rw [ran] at here
      exact here

theorem relating : Relating fun α (chronicle : Chronicle α) (step : Eval α) => Erases chronicle step where
  pure _ _ := rfl
  bind := bind
  step _ := lift _
  within scope _ _ inside := within scope inside
  deeper line _ _ inside := deeper line inside

end Erases

/-- By induction on the fuel, evaluation with a chronicle is related to evaluation if writing things down
does not matter to the relation. -/
theorem parts_related {related : ∀ ⦃α : Type⦄, Chronicle α → Eval α → Prop} (relating : Relating related)
    (observing : ∀ {α : Type} (task : Task) (result : α → Result) {chronicle : Chronicle α}
      {step : Eval α}, related chronicle step → related (observe task result chronicle) step)
    (setting : Setting) (fuel : Nat) :
    (parts setting fuel).Related related (Eval.parts setting fuel) := by
  induction fuel with
  | zero =>
    rw [Eval.parts_zero]
    exact relating.exhausted
  | succ fuel same =>
    rw [Eval.parts_succ]
    have whole := relating.whole setting same
    exact {
      evaluate := fun tree => observing _ _ (whole.evaluate tree)
      evaluateAll := fun trees => observing _ _ (whole.evaluateAll trees)
      call := fun callee arguments => observing _ _ (whole.call callee arguments)
      invoke := fun closure arguments => observing _ _ (whole.invoke closure arguments)
      execute := fun tree => observing _ _ (whole.execute tree)
      executeAll := fun trees => observing _ _ (whole.executeAll trees) }

/-- What is written down is what the run itself does. -/
theorem erase_interpret (setting : Setting) (fuel : Nat) (body : List Stmt) :
    Erases (interpret setting fuel body) (Eval.interpret setting fuel body) := by
  rw [Eval.interpret_eq]
  exact Erases.relating.interpret (parts_related Erases.relating Erases.observe setting fuel) body

end Chronicle

end Lox
