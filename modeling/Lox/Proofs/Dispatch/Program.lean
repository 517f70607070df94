import Lox.Proofs.Dispatch.Evaluate
import Lox.Proofs.Program.Accepted

/-! Dispatch in whole runs. Methods of superclasses are found from the class around the code, whatever
class the receiver has, and the receiver stays the same. -/

namespace Lox

namespace Course

variable {setting : Setting} {table : Entries}

/-- Statements at the top level run from every sound journal. -/
theorem interpret_runs (keeps : setting.Keeps table) (fuel : Nat) (body : List Stmt)
    {journal : Journal} (sound : Sound setting table journal)
    (scope : journal.machine.scope = Heap.globals) (addressed : Stmt.AllAddressed table [] body) :
    Runs setting table (interpret setting fuel body) journal fun _ _ => True := by
  induction body generalizing journal with
  | nil => exact .pure sound trivial
  | cons first rest ih =>
    have stands : Stands setting table [] Place.outermost.owner first.receivers journal :=
      ⟨sound, scope ▸ .globals, nofun⟩
    apply ((sustains keeps fuel).execute first stands addressed.1).discard.bind
    intro _ after later _
    have others := addressed.2
    rw [Scoping.after_nil] at others
    exact ih later.sound (later.scope.trans scope) others

/-- The journal of a run is sound, however the run ends. -/
theorem interpret_sound (keeps : setting.Keeps table) (fuel : Nat) (capacity : Option Nat)
    (body : List Stmt) (addressed : Stmt.AllAddressed table [] body) :
    Sound setting table (ended (interpret setting fuel body (.start capacity))) := by
  have runs := interpret_runs keeps fuel body (.start setting table capacity) rfl addressed
  unfold Runs at runs
  cases ran : interpret setting fuel body (.start capacity) with
  | ok value after =>
    rw [ran] at runs
    exact runs.1.sound
  | error reason after =>
    rw [ran] at runs
    exact runs

end Course

open Course (points ended)

/-- Dispatch in a run of an accepted program, the course of which is that of the run itself. Whenever
`super` is evaluated in code that belongs to a class, the method is the first one of its name on the way
up from the class that was the superclass when the class was declared, and it is bound to the instance
that `this` denotes. Whenever `this` is evaluated it is an instance of the class to which the code
belongs or of one that inherits from it. All classes come from declarations, of which the last method of
a name counts. -/
theorem method_dispatch (checked : (checkSource source 0).outcome = .ok program)
    (clock : Nat → Float) (fuel : Nat) (capacity : Option Nat) :
    let setting : Setting := ⟨program.distances, clock⟩
    let passed := points setting fuel capacity program.body
    let last := ended (Course.interpret setting fuel program.body (.start capacity))
    Course.erase (Course.interpret setting fuel program.body (.start capacity)) =
      Eval.interpret setting fuel program.body (.start capacity) ∧
    (∀ point ∈ passed, point.stage = .started →
      (∀ id line method, point.task = .evaluate (.super id line method) →
        point.Dispatches setting passed (.super id line method) method) ∧
      (∀ id line, point.task = .evaluate (.this id line) → ∃ around receiver,
        point.Present setting passed (.this id line) around receiver ∧
          ∀ fuel, Eval.evaluate setting (fuel + 1) (.this id line) point.machine =
            .ok (.object receiver) point.machine)) ∧
    (∀ owner, owner.index < last.machine.heap.classes.size → ∃ point ∈ passed, ∃ declaration,
      point.Makes setting declaration last.machine.heap owner) := by
  have keeps : Setting.Keeps ⟨program.distances, clock⟩ fun id found =>
    id ∈ Stmt.allIds program.body ∧ program.distances[id]? = found := fun _ _ known => known.2
  have sound := Course.interpret_sound keeps fuel capacity program.body (checkSource_addressed checked)
  refine ⟨Course.erase_interpret _ fuel capacity program.body, ?_, ?_⟩
  · intro point member started
    have right := sound.points point member
    obtain ⟨task, stage, place, machine⟩ := point
    cases started
    constructor
    · rintro id line method rfl
      exact right
    · rintro id line rfl
      exact right
  · intro owner known
    obtain ⟨point, member, declaration, _, _, makes, _⟩ := sound.classes owner known
    exact ⟨point, member, declaration, makes⟩

/-- A method that calls the one it overrides, on an instance of a third class. -/
private def overriding : String :=
  "class A { m() { return 1; } } class B < A { m() { return super.m(); } } class C < B {} print C().m();"

theorem overriding_dispatch : ∃ program, (checkSource overriding 0).outcome = .ok program ∧
    ∀ point ∈ points ⟨program.distances, fun _ => 0⟩ 100 none program.body,
      point.stage = .started → ∀ id line method, point.task = .evaluate (.super id line method) →
        point.Dispatches ⟨program.distances, fun _ => 0⟩
          (points ⟨program.distances, fun _ => 0⟩ 100 none program.body) (.super id line method)
          method := by
  have accepted : (checkSource overriding 0).outcome.isOk = true := by decide +kernel
  cases checked : (checkSource overriding 0).outcome with
  | error reports =>
    rw [checked] at accepted
    cases accepted
  | ok program =>
    refine ⟨program, rfl, ?_⟩
    intro point member started
    exact ((method_dispatch checked (fun _ => 0) 100 none).2.1 point member started).1

end Lox
