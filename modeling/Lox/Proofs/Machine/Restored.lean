import Lox.Proofs.Machine.Along
import Lox.Proofs.Session.Basic

/-! Scope and depth come back. Whatever an evaluation does and however it ends, it ends in the scope in
which it began and with as many calls in progress. -/

namespace Lox

/-- The scope and the number of calls in progress are those of another machine. -/
structure Machine.Restores (machine after : Machine) : Prop where
  scope : after.scope = machine.scope
  depth : after.depth = machine.depth

namespace Machine.Restores

theorem refl (machine : Machine) : machine.Restores machine :=
  ⟨rfl, rfl⟩

theorem trans (first : Restores one two) (second : Restores two three) : Restores one three :=
  ⟨second.scope.trans first.scope, second.depth.trans first.depth⟩

/-- Only `within` and `deeper` touch the scope and the depth, and both put back what they found. -/
theorem kept : Kept Restores where
  refl := refl
  trans := trans
  newScope _ _ _ := ⟨rfl, rfl⟩
  defineIn _ _ _ _ := ⟨rfl, rfl⟩
  newFunction _ _ := ⟨rfl, rfl⟩
  newClass _ _ := ⟨rfl, rfl⟩
  newInstance _ _ := ⟨rfl, rfl⟩
  setField _ _ _ _ := ⟨rfl, rfl⟩
  readClock _ _ := ⟨rfl, rfl⟩
  write _ _ := ⟨rfl, rfl⟩
  within ended := ⟨rfl, ended.depth⟩
  deeper ended := ⟨ended.scope, rfl⟩

end Machine.Restores

open Machine (Restores)

theorem Machine.interpret_restores (machine : Machine) (setting : Setting) (fuel : Nat)
    (body : List Stmt) : machine.Restores (machine.interpret setting fuel body).2 := by
  have ran := Eval.interpret_along Restores.kept setting fuel body machine
  simp only [Machine.interpret, Eval.after] at ran ⊢
  cases ended : Eval.interpret setting fuel body machine <;> simpa [ended] using ran

namespace Session

theorem runLine_restores (session : Session) (clock : Nat → Float) (fuel : Nat) (source : String) :
    session.machine.Restores (session.runLine clock fuel source).2.machine := by
  cases checked : (checkSource source session.nextId).outcome with
  | error reports =>
    rw [runLine_rejected _ _ _ checked]
    exact .refl _
  | ok program =>
    rw [runLine_accepted _ _ _ checked]
    have ran := session.machine.interpret_restores
      ⟨session.distances.insertMany program.distances.toList, clock⟩ fuel program.body
    exact ⟨ran.scope, ran.depth⟩

theorem runLines_restores (session : Session) (clock : Nat → Float) (fuel : Nat)
    (entries : List String) :
    session.machine.Restores (session.runLines clock fuel entries).2.machine := by
  induction entries generalizing session with
  | nil => exact .refl _
  | cons first rest ih => exact (session.runLine_restores clock fuel first).trans (ih _)

end Session

/-- However an evaluation, the execution of a statement or of a block, or a call ends, the scope and
the number of calls in progress are as before. So after every statement at the top level and after
every source of a session the scope is that of the globals and no call is in progress. -/
theorem scope_and_depth_restored (setting : Setting) (fuel : Nat) :
    (∀ tree (machine : Machine),
      machine.Restores ((Eval.evaluate setting fuel tree).after machine)) ∧
    (∀ tree (machine : Machine),
      machine.Restores ((Eval.execute setting fuel tree).after machine)) ∧
    (∀ scope body (machine : Machine),
      machine.Restores ((Eval.within scope (Eval.executeAll setting fuel body)).after machine)) ∧
    (∀ callee arguments (machine : Machine),
      machine.Restores ((Eval.call setting fuel callee arguments).after machine)) ∧
    (∀ closure arguments (machine : Machine),
      machine.Restores ((Eval.invoke setting fuel closure arguments).after machine)) ∧
    (∀ capacity body,
      (Machine.start capacity).Restores
        ((Eval.interpret setting fuel body).after (.start capacity)) ∧
      ((Eval.interpret setting fuel body).after (.start capacity)).scope = Heap.globals ∧
      ((Eval.interpret setting fuel body).after (.start capacity)).depth = 0) ∧
    (∀ clock entries,
      (Session.start.runLines clock fuel entries).2.machine.scope = Heap.globals ∧
      (Session.start.runLines clock fuel entries).2.machine.depth = 0) := by
  have kept := Eval.keeps Restores.kept setting fuel
  refine ⟨kept.evaluate, kept.execute, ?_, kept.call, kept.invoke, ?_, ?_⟩
  · intro scope body
    exact Eval.Along.within Restores.kept scope (kept.executeAll body)
  · intro capacity body
    have ran := Eval.interpret_along Restores.kept setting fuel body (.start capacity)
    exact ⟨ran, ran.scope, ran.depth⟩
  · intro clock entries
    have ran := Session.start.runLines_restores clock fuel entries
    exact ⟨ran.scope, ran.depth⟩

end Lox
