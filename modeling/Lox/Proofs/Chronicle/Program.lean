import Lox.Proofs.Chronicle.Founded
import Lox.Proofs.Program.Accepted
import Lox.Proofs.Session.Basic

/-! The chronicles of programs and of sessions. What holds at the start, and what accepted statements keep,
holds at the end of every run and of every session. -/

namespace Lox.Chronicle

namespace Record

def start (capacity : Option Nat) : Record := ⟨.start capacity, []⟩

/-- Goes on with statements at the top level, up to where they end or halt. -/
def proceed (record : Record) (setting : Setting) (fuel : Nat) (body : List Stmt) : Record :=
  ended (interpret setting fuel body record)

/-- What a source does that is run on its own. A rejected one does nothing. -/
def ofRun (clock : Nat → Float) (fuel : Nat) (capacity : Option Nat) (source : String) : Record :=
  match (checkSource source 0).outcome with
  | .error _ => start capacity
  | .ok program => (start capacity).proceed ⟨program.distances, clock⟩ fuel program.body

/-- What one more source of a session does, after what was done before. -/
def ofLine (session : Session) (clock : Nat → Float) (fuel : Nat) (source : String)
    (before : List Event) : Record :=
  match (checkSource source session.nextId).outcome with
  | .error _ => ⟨session.machine, before⟩
  | .ok program =>
    proceed ⟨session.machine, before⟩ ⟨(session.addDistances program.distances).distances, clock⟩ fuel
      program.body

/-- What sources do that are run in order. -/
def ofLines (session : Session) (clock : Nat → Float) (fuel : Nat) :
    List String → (before : List Event) → Record
  | [], before => ⟨session.machine, before⟩
  | first :: rest, before =>
    ofLines (session.runLine clock fuel first).2 clock fuel rest
      (ofLine session clock fuel first before).events

variable (record : Record) (setting : Setting) (session : Session) (clock : Nat → Float) (fuel : Nat)

theorem proceed_machine (body : List Stmt) :
    (record.proceed setting fuel body).machine = (record.machine.interpret setting fuel body).2 := by
  have erases := erase_interpret setting fuel body record
  unfold proceed Machine.interpret
  rw [← erases]
  cases interpret setting fuel body record <;> rfl

/-- The record of a run ends with what the run prints. -/
theorem ofRun_output (capacity : Option Nat) (source : String) :
    (ofRun clock fuel capacity source).machine.sink.written = (run clock fuel capacity source).output := by
  unfold ofRun run
  cases (checkSource source 0).outcome with
  | error reports => rfl
  | ok program =>
    simp only [proceed_machine]
    rfl

/-- After a line the session goes on where the record ends, with the output taken out. -/
theorem ofLine_machine (source : String) (before : List Event) :
    ∃ sink, (session.runLine clock fuel source).2.machine =
      { (ofLine session clock fuel source before).machine with sink } := by
  unfold ofLine
  cases accepted : (checkSource source session.nextId).outcome with
  | error reports =>
    rw [session.runLine_rejected clock fuel accepted]
    exact ⟨session.machine.sink, rfl⟩
  | ok program =>
    rw [session.runLine_accepted clock fuel accepted]
    simp only [proceed_machine]
    exact ⟨.empty none, rfl⟩

/-- The record of a session ends where the session does. -/
theorem ofLines_machine (sources : List String) (before : List Event) :
    (ofLines session clock fuel sources before).machine =
      (session.runLines clock fuel sources).2.machine := by
  induction sources generalizing session before with
  | nil => rfl
  | cons first rest ih => exact ih ..

/-- What holds of a record at the start and is kept by what accepted sources do. -/
structure Invariant (good : Record → Prop) : Prop where
  start : ∀ capacity, good (start capacity)
  proceed : ∀ {record} (setting : Setting) (fuel : Nat) {source : String} {first : NodeId}
    {program : Program}, good record → (checkSource source first).outcome = .ok program →
    good (record.proceed setting fuel program.body)
  sink : ∀ {record} (sink : Sink), good record → good { record with machine.sink := sink }

namespace Invariant

variable {good : Record → Prop} (invariant : Invariant good)

include invariant

theorem ofRun (capacity : Option Nat) (source : String) : good (ofRun clock fuel capacity source) := by
  unfold Record.ofRun
  split
  · exact invariant.start capacity
  · rename_i accepted
    exact invariant.proceed _ fuel (invariant.start capacity) accepted

theorem ofLine {session : Session} {before : List Event} (held : good ⟨session.machine, before⟩)
    (source : String) : good (ofLine session clock fuel source before) := by
  unfold Record.ofLine
  split
  · exact held
  · rename_i accepted
    exact invariant.proceed _ fuel held accepted

/-- By induction on the sources, of which each goes on where the former ones ended. -/
theorem ofLines {session : Session} {before : List Event} (held : good ⟨session.machine, before⟩)
    (sources : List String) : good (ofLines session clock fuel sources before) := by
  induction sources generalizing session before with
  | nil => exact held
  | cons first rest ih =>
    apply ih
    obtain ⟨sink, same⟩ := ofLine_machine session clock fuel first before
    rw [same]
    exact invariant.sink sink (invariant.ofLine clock fuel held first)

end Invariant

/-- Runs and sessions are founded all along. -/
theorem founded_invariant : Invariant Record.Founded where
  start capacity := ⟨Machine.founded_start capacity, List.forall_mem_nil _, List.pairwise_singleton ..⟩
  proceed {record} setting fuel {_ _ program} founded accepted := by
    have regular := (checkSource_ok accepted).1.regular
    unfold Record.proceed
    rcases (interpret_founds founded setting fuel regular).cases with
      ⟨value, after, ran, founded, _⟩ | ⟨reason, after, ran, founded, _⟩ <;>
      · rw [ran]
        exact founded
  sink _ founded := ⟨⟨founded.machine.heap, founded.machine.scope⟩, founded.events, founded.order⟩

end Record

end Lox.Chronicle
