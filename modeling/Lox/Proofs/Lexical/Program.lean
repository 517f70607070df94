import Lox.Proofs.Lexical.Simulation
import Lox.Proofs.Program.Accepted

/-! Accepted programs mean the same by distances as by lexical scoping. -/

namespace Lox

namespace Lexical

variable {table : Entries} {slots : Slots} {machine : Machine} {state : State}

theorem Stored.start : Stored #[] Heap.start.scopes #[]
    (Bindings.empty.insert "clock" (.callable .clock)) where
  counted := rfl
  agrees := by simp
  injective := by simp
  inner := by simp
  slotted := by
    intro scope name apart bound
    have missing : Heap.start.scopes.valueIn? scope name = Scopes.empty.valueIn? scope name := by
      rw [Heap.start, Scopes.valueIn?_push]
      exact if_neg apart
    rw [missing] at bound
    cases bound
  holds := by simp
  global _ := rfl
  outermost := rfl
  nonempty := Nat.one_pos

theorem Similar.start (table : Entries) (capacity : Option Nat) :
    Similar table #[] (.start capacity) (.start capacity) where
  stored := .start
  functions := ⟨rfl, fun _ => ⟨[], ⟨rfl, rfl, rfl, rfl, .globals⟩, ⟨List.nodup_nil, nofun, trivial⟩, nofun⟩⟩
  classes := ⟨rfl, fun _ => ⟨rfl, rfl, fun _ => .none⟩⟩
  instances := rfl
  depth := rfl
  sink := rfl
  readings := rfl

/-- Statements at the top level. -/
theorem Recorded.interpret (keeps : setting.Keeps table)
    (similar : Similar table slots machine state) (outermost : machine.scope = Heap.globals)
    (fuel : Nat) (body : List Stmt) (addressed : Stmt.AllAddressed table [] body) :
    Recorded setting.distances table none Equal (Trace.interpret setting fuel body)
      (Eval.interpret setting.clock fuel body) slots machine state := by
  induction body generalizing slots machine state with
  | nil => exact .pure similar rfl
  | cons first rest ih =>
    obtain ⟨first', rest'⟩ := addressed
    rw [Scoping.after_nil] at rest'
    have linked : Linked slots machine.heap.scopes (Scoping.pending [] first) machine.scope
        Place.globals.environment := by
      rw [outermost, Scoping.pending_nil]
      exact .globals
    have executed := (simulates keeps fuel).execute first similar linked rfl first'
    exact executed.discard.bind fun _ _ after _ =>
      ih after.similar (after.scope.trans outermost) rest'

theorem Lockstep.interpret (keeps : setting.Keeps table)
    (similar : Similar table slots machine state) (outermost : machine.scope = Heap.globals)
    (fuel : Nat) (body : List Stmt) (addressed : Stmt.AllAddressed table [] body) :
    Lockstep table none Equal (Lox.Eval.interpret setting fuel body)
      (Eval.interpret setting.clock fuel body) slots machine state := by
  obtain ⟨agree, _⟩ := Recorded.interpret keeps similar outermost fuel body addressed [] nofun
  rw [(Trace.faithful_interpret setting fuel body).erases] at agree
  exact agree

end Lexical

/-- Distances implement lexical scoping: an accepted source prints the same and ends the same,
whether its names are found by their distances or in environments that are only ever extended. -/
theorem run_eq_lexical (checked : (checkSource source 0).outcome = .ok program)
    (clock : Nat → Float) (fuel : Nat) (capacity : Option Nat) :
    run clock fuel capacity source = Lexical.run clock fuel capacity program.body := by
  let setting : Setting := ⟨program.distances, clock⟩
  have steps : Lexical.Agree _ _ _ _ _ (Eval.interpret setting fuel program.body (.start capacity))
      (Lexical.Eval.interpret clock fuel program.body (.start capacity)) :=
    Lexical.Lockstep.interpret (fun _ _ known => known.2) (.start _ capacity) rfl fuel program.body
      (checkSource_addressed checked)
  unfold run Lexical.run
  rw [checked]
  dsimp only [Machine.interpret]
  unfold Lexical.Agree at steps
  split at steps
  · rename_i ended ended'
    obtain ⟨slots, after, _⟩ := steps
    rw [ended, ended']
    simp only [after.similar.sink]
  · rename_i ended ended'
    obtain ⟨rfl, slots, after⟩ := steps
    rw [ended, ended']
    simp only [after.similar.sink]
  · exact steps.elim

/-- A function whose variable is declared once more, after it and around its call. -/
private def shadowing : String :=
  "{ var a = 1; fun show() { print a; } { show(); var a = 2; show(); } }"

theorem shadowing_lexical : ∃ program, (checkSource shadowing 0).outcome = .ok program ∧
    run (fun _ => 0) 100 none shadowing = Lexical.run (fun _ => 0) 100 none program.body := by
  have accepted : (checkSource shadowing 0).outcome.isOk = true := by decide +kernel
  cases checked : (checkSource shadowing 0).outcome with
  | error reports =>
    rw [checked] at accepted
    cases accepted
  | ok program => exact ⟨program, rfl, run_eq_lexical checked _ 100 none⟩

end Lox
