import Lox.Proofs.Course.Evaluate
import Lox.Proofs.Machine.Terminates

/-! The bound on calls in progress. It holds at every point of every run, a call beyond it fails before
anything of the callee runs, and under it all programs without loops end. -/

namespace Lox

namespace Course

variable {α : Type} {setting : Setting} {fuel : Nat} {place : Place} {callee : Expr}
  {arguments : List Expr} {journal middle last : Journal} {function : Callable} {values : List Value}

theorem Follows.restores {course : Course α} {step : Eval α} {calls : List Callable}
    (follows : Follows calls course step) (restores : step.Along Machine.Restores)
    (ran : course journal = .ok value last) : journal.machine.Restores last.machine := by
  have same := follows.erases journal
  have here := restores journal.machine
  rw [ran] at same
  rwa [Eval.after, ← same] at here

/-- Where there is no more room, a call that has passed its checks fails as soon as its arguments are
there. Nothing changes and nothing is noted but that it has ended. -/
theorem evaluate_call_of_full (line : Nat)
    (counted : journal.machine.depth = place.calls.length) (full : place.calls.length = maxDepth)
    (called : evaluate setting fuel place callee
      (journal.note (.evaluate (.call callee line arguments)) .started place) =
        .ok (.callable function) middle)
    (given : evaluateAll setting fuel place arguments middle = .ok values last)
    (arity : values.length = last.machine.heap.arity function) :
    ∃ after, evaluate setting (fuel + 1) place (.call callee line arguments) journal =
        .error (.fault ⟨.stackOverflow, line⟩) after ∧
      after.machine = last.machine ∧
      after.points =
        ⟨.evaluate (.call callee line arguments), .finished, place, last.machine⟩ :: last.points := by
  have within := accompanies setting fuel
  have keeps := Eval.keeps Machine.Restores.kept setting fuel
  have first := (within.evaluate place callee).restores (keeps.evaluate callee) called
  have second := (within.evaluateAll place arguments).restores (keeps.evaluateAll arguments) given
  have depth : last.machine.depth = maxDepth := by
    rw [second.depth, first.depth]
    exact counted.trans full
  have looked : lift (Eval.inspect (·.arity function)) last =
      .ok (last.machine.heap.arity function) (last.advance none last.machine) := rfl
  have refused (step : Course Value) : deeper line step (last.advance none last.machine) =
      .error (.fault ⟨.stackOverflow, line⟩)
        ((last.advance none last.machine).advance none last.machine) := by
    simp [deeper, Journal.advance, depth, lift, making, Eval.fault, Eval.halt]
  refine ⟨((last.advance none last.machine).advance none last.machine).note
    (.evaluate (.call callee line arguments)) .finished place, ?_, rfl, rfl⟩
  simp only [evaluate, observe, bind, EStateM.bind, called, given, looked, arity, if_pos, refused]

end Course

theorem Machine.interpret_ends {result : EStateM.Result Halt Machine Unit} {depth : Nat}
    (finished : Eval.Finished depth result) : ∃ ending after, ending ≠ .unfinished ∧
      ∀ {machine : Machine} {setting fuel body},
        Eval.interpret setting fuel body machine = result →
        machine.interpret setting fuel body = (ending, after) := by
  cases result with
  | ok value after =>
    refine ⟨.done, after, nofun, ?_⟩
    intro machine setting fuel body ran
    simp [Machine.interpret, ran]
  | error reason after =>
    refine ⟨.ofHalt reason, after, ?_, ?_⟩
    · intro same
      cases reason with
      | fault error => cases same
      | sinkFull => cases same
      | outOfFuel => exact finished rfl
    · intro machine setting fuel body ran
      simp [Machine.interpret, ran]

/-- The number of calls in progress is bounded. The course of a run is that of the run itself, and at
every point the machine has counted as many calls as are in progress, which are at most 1024. With 1024
in progress a call that passes its checks fails in the machine in which its arguments have left the
run, and no point of the callee is passed. So statements without loops end. -/
theorem call_depth_bounded (setting : Setting) (capacity : Option Nat) (body : List Stmt) :
    (∀ fuel, Course.erase (Course.interpret setting fuel body (.start capacity)) =
      Eval.interpret setting fuel body (.start capacity)) ∧
    (∀ fuel, ∀ point ∈ Course.points setting fuel capacity body,
      point.machine.depth = point.place.calls.length ∧ point.machine.depth ≤ 1024) ∧
    (∀ (fuel : Nat) (place : Course.Place) (callee : Expr) (line : Nat) (arguments : List Expr)
        (journal middle last : Course.Journal) (function : Callable) (values : List Value),
      journal.machine.depth = place.calls.length → place.calls.length = 1024 →
      Course.evaluate setting fuel place callee
          (journal.note (.evaluate (.call callee line arguments)) .started place) =
        .ok (.callable function) middle →
      Course.evaluateAll setting fuel place arguments middle = .ok values last →
      values.length = last.machine.heap.arity function →
      ∃ error after,
        Course.evaluate setting (fuel + 1) place (.call callee line arguments) journal =
          .error (.fault error) after ∧
        error.fault.message = "Stack overflow." ∧ error.line = line ∧
        after.machine = last.machine ∧
        after.points = ⟨.evaluate (.call callee line arguments), .finished, place, last.machine⟩ ::
          last.points) ∧
    (Stmt.AllLoopless body → ∃ enough ending after, ending ≠ .unfinished ∧
      ∀ fuel, enough ≤ fuel →
        (Machine.start capacity).interpret setting fuel body = (ending, after)) := by
  refine ⟨fun fuel => Course.erase_interpret setting fuel capacity body, ?_, ?_, ?_⟩
  · intro fuel point member
    obtain ⟨depth, bound⟩ := Course.points_counted setting fuel capacity body point member
    exact ⟨depth, depth ▸ bound⟩
  · intro fuel place callee line arguments journal middle last function values counted full called
      given arity
    obtain ⟨after, failed, machine, points⟩ :=
      Course.evaluate_call_of_full line counted full called given arity
    exact ⟨⟨.stackOverflow, line⟩, after, failed, rfl, rfl, machine, points⟩
  · intro loopless
    obtain ⟨enough, result, finished, settled⟩ :=
      Eval.interpret_terminates setting 0 loopless (.start capacity) .start rfl
    obtain ⟨ending, after, ended, runs⟩ := Machine.interpret_ends finished
    exact ⟨enough, ending, after, ended, fun fuel granted => runs (settled fuel granted)⟩

/-- A function that calls itself for ever. -/
private def recursive : List Stmt :=
  [.declareFunction ⟨⟨"f", 1⟩, [], [.return 1 (some (.call (.read 0 ⟨"f", 1⟩) 1 []))]⟩,
    .expression (.call (.read 1 ⟨"f", 1⟩) 1 [])]

/-- A journal in which there is no room for another call. -/
private def crowded : Course.Journal :=
  { Course.Journal.start none with machine.depth := 1024 }

theorem recursive_depth_bounded :
    (∃ enough ending after, ending ≠ .unfinished ∧ ∀ fuel, enough ≤ fuel →
      (Machine.start none).interpret ⟨∅, fun _ => 0⟩ fuel recursive = (ending, after)) ∧
    ∃ error after, Course.evaluate ⟨∅, fun _ => 0⟩ 2 ⟨List.replicate 1024 .clock, none⟩
        (.call (.read 0 ⟨"clock", 1⟩) 1 []) crowded = .error (.fault error) after ∧
      error.fault.message = "Stack overflow." := by
  have bounded := call_depth_bounded ⟨∅, fun _ => 0⟩ none recursive
  refine ⟨bounded.2.2.2 ⟨⟨trivial, trivial⟩, trivial, trivial⟩, ?_⟩
  obtain ⟨error, after, failed, message, _⟩ :=
    bounded.2.2.1 1 ⟨List.replicate 1024 .clock, none⟩ (.read 0 ⟨"clock", 1⟩) 1 [] crowded _ _
      .clock [] List.length_replicate.symm List.length_replicate rfl rfl rfl
  exact ⟨error, after, failed, message⟩

end Lox
