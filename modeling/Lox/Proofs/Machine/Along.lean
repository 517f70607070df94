import Lox.Proofs.Machine.Parts
import Lox.Proofs.Steps

/-! What no evaluation breaks. A relation between the machine before a step and the one after it holds
of every evaluation, however it ends, if single steps keep it and if it does not see that a scope was
entered and left or that a call was counted. -/

namespace Lox

namespace Eval

variable {α β : Type}

/-- The machine in which a step ends, also where it halts the run. -/
def after (step : Eval α) (machine : Machine) : Machine :=
  match step machine with
  | .ok _ after | .error _ after => after

/-- A step that leads from any machine to a related one. -/
def Along (related : Machine → Machine → Prop) (step : Eval α) : Prop :=
  ∀ machine, related machine (step.after machine)

end Eval

open Eval in
/-- A relation that every change of the machine keeps. -/
structure Kept (related : Machine → Machine → Prop) : Prop where
  refl : ∀ machine, related machine machine
  trans : ∀ {one two three}, related one two → related two three → related one three
  newScope : ∀ bindings enclosing, Along related (newScope bindings enclosing)
  defineIn : ∀ scope name value, Along related (defineIn scope name value)
  newFunction : ∀ closure, Along related (newFunction closure)
  newClass : ∀ object, Along related (newClass object)
  newInstance : ∀ owner, Along related (newInstance owner)
  setField : ∀ ref name value, Along related (setField ref name value)
  readClock : ∀ setting, Along related (readClock setting)
  write : ∀ machine bytes, related machine { machine with sink := machine.sink.write bytes }
  within : ∀ {machine scope after}, related { machine with scope } after →
    related machine { after with scope := machine.scope }
  deeper : ∀ {machine : Machine} {after}, related { machine with depth := machine.depth + 1 } after →
    related machine { after with depth := machine.depth }

namespace Eval.Along

variable {α β : Type} {related : Machine → Machine → Prop} (kept : Kept related)

include kept

theorem pure (value : α) : Along related (Pure.pure value) :=
  kept.refl

theorem halt (reason : Halt) : Along related (Eval.halt reason : Eval α) :=
  kept.refl

theorem bind {step : Eval α} {later : α → Eval β} (first : Along related step)
    (rest : ∀ value, Along related (later value)) : Along related (step >>= later) := by
  intro machine
  have here := first machine
  unfold Eval.after at here ⊢
  cases ran : step machine with
  | error reason middle =>
    rw [ran] at here
    rw [bind_error ran]
    exact here
  | ok value middle =>
    rw [ran] at here
    rw [bind_ok ran]
    exact kept.trans here (rest value middle)

theorem inspect (view : Heap → α) : Along related (Eval.inspect view) :=
  kept.refl

theorem currentScope : Along related Eval.currentScope :=
  kept.refl

theorem printLine (text : String) : Along related (Eval.printLine text) := by
  intro machine
  have written : (Eval.printLine text).after machine =
      { machine with sink := machine.sink.write (text ++ "\n").toUTF8 } := by
    unfold Eval.after Eval.printLine
    dsimp only
    cases machine.sink.admits (text ++ "\n").toUTF8 <;> rfl
  rw [written]
  exact kept.write machine _

theorem within (scope : ScopeRef) {step : Eval α} (inside : Along related step) :
    Along related (Eval.within scope step) := by
  intro machine
  have ended := inside { machine with scope }
  simp only [Eval.after, Eval.within] at ended ⊢
  cases ran : step { machine with scope } <;>
    · simp only [ran] at ended ⊢
      exact kept.within ended

theorem deeper (line : Nat) {step : Eval α} (inside : Along related step) :
    Along related (Eval.deeper line step) := by
  intro machine
  have ended := inside { machine with depth := machine.depth + 1 }
  by_cases room : machine.depth < maxDepth
  · simp only [Eval.after, Eval.deeper, if_pos room] at ended ⊢
    cases ran : step { machine with depth := machine.depth + 1 } <;>
      · simp only [ran] at ended ⊢
        exact kept.deeper ended
  · simp only [Eval.after, Eval.deeper, if_neg room]
    exact kept.refl machine

/-- A composition of single steps keeps what these keep. -/
theorem composed {step : Eval α} (composed : step.Composed) : Along related step := by
  induction composed with
  | pure value => exact pure kept value
  | halt reason => exact halt kept reason
  | bind _ _ first rest => exact bind kept first rest
  | inspect view => exact inspect kept view
  | currentScope => exact currentScope kept
  | newScope bindings enclosing => exact kept.newScope bindings enclosing
  | defineIn scope name value => exact kept.defineIn scope name value
  | newFunction closure => exact kept.newFunction closure
  | newClass object => exact kept.newClass object
  | newInstance owner => exact kept.newInstance owner
  | setField ref name value => exact kept.setField ref name value
  | readClock setting => exact kept.readClock setting
  | printLine text => exact printLine kept text

theorem relating : Relating fun α (step _ : Eval α) => Along related step where
  pure := pure kept
  bind := bind kept
  step := composed kept
  within scope _ _ inside := within kept scope inside
  deeper line _ _ inside := deeper kept line inside

end Eval.Along

namespace Eval

variable {related : Machine → Machine → Prop} (kept : Kept related)

include kept

/-- Every evaluation keeps what single steps keep. -/
theorem keeps (setting : Setting) (fuel : Nat) :
    (parts setting fuel).Related (fun α (step _ : Eval α) => Along related step)
      (parts setting fuel) :=
  parts_related (Along.relating kept) setting fuel

theorem interpret_along (setting : Setting) (fuel : Nat) (body : List Stmt) :
    Along related (interpret setting fuel body) := by
  rw [interpret_eq]
  exact (Along.relating kept).interpret (keeps kept setting fuel) body

end Eval

end Lox
