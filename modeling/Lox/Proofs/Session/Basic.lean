import Lox.Session

/-! Sessions line by line. -/

namespace Lox.Session

/-- Runs sources in order and gives the outcome of each of them. -/
def runLines (session : Session) (clock : Nat → Float) (fuel : Nat) :
    List String → List Outcome × Session
  | [] => ([], session)
  | first :: rest =>
    let (outcome, session) := session.runLine clock fuel first
    let (outcomes, session) := session.runLines clock fuel rest
    (outcome :: outcomes, session)

variable (session : Session) (clock : Nat → Float) (fuel : Nat)

theorem runLines_append (before after : List String) :
    session.runLines clock fuel (before ++ after) =
      ((session.runLines clock fuel before).1 ++
          ((session.runLines clock fuel before).2.runLines clock fuel after).1,
        ((session.runLines clock fuel before).2.runLines clock fuel after).2) := by
  induction before generalizing session with
  | nil => rfl
  | cons first rest ih => simp [runLines, ih]

theorem runLines_length (sources : List String) :
    (session.runLines clock fuel sources).1.length = sources.length := by
  induction sources generalizing session with
  | nil => rfl
  | cons first rest ih => simp [runLines, ih]

/-- A rejected source only uses up identifiers. -/
theorem runLine_rejected
    (rejected : (checkSource source session.nextId).outcome = .error reports) :
    session.runLine clock fuel source =
      (⟨.empty, .rejected reports⟩,
        { session with nextId := (checkSource source session.nextId).nextId }) := by
  simp [runLine, rejected]

/-- The session in which an accepted source runs. -/
def accept (program : Program) (next : NodeId) : Session :=
  { session.addDistances program.distances with nextId := next }

/-- An accepted source runs under the distances of all sources so far. -/
theorem runLine_accepted
    (accepted : (checkSource source session.nextId).outcome = .ok program) :
    session.runLine clock fuel source =
      let accepting := session.accept program (checkSource source session.nextId).nextId
      let ran := session.machine.interpret ⟨accepting.distances, clock⟩ fuel program.body
      (⟨ran.2.sink.written, ran.1⟩, { accepting with machine := { ran.2 with sink := .empty none } }) := by
  simp [runLine, accepted, accept, addDistances, Session.interpret, takeOutput]

end Lox.Session
