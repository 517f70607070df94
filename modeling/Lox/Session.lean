import Lox.Program

/-!
Sessions: sources run one after another on the same globals. Identifiers go on from source to
source, so the distances of all of them fit into one table, and what a failing source did before
it failed stays done.
-/

namespace Lox

structure Session where
  machine : Machine
  distances : Distances
  nextId : NodeId

namespace Session

def start : Session := ⟨.start none, ∅, 0⟩

/-- Adds the distances of newly checked code. -/
def addDistances (session : Session) (distances : Distances) : Session :=
  { session with distances := session.distances.insertMany distances.toList }

/-- Takes out what was printed since the last time. -/
def takeOutput (session : Session) : ByteArray × Session :=
  let { machine, distances, nextId } := session
  (machine.sink.written, ⟨{ machine with sink := .empty none }, distances, nextId⟩)

/-- Runs statements on the session's globals. -/
def interpret (session : Session) (clock : Nat → Float) (fuel : Nat) (body : List Stmt) :
    Ending × Session :=
  let { machine, distances, nextId } := session
  let (ending, machine) := machine.interpret ⟨distances, clock⟩ fuel body
  (ending, ⟨machine, distances, nextId⟩)

/-- Checks and runs one more source. A rejected source only uses up identifiers. -/
def runLine (session : Session) (clock : Nat → Float) (fuel : Nat) (source : String) :
    Outcome × Session :=
  let checked := checkSource source session.nextId
  let session := { session with nextId := checked.nextId }
  match checked.outcome with
  | .error reports => (⟨.empty, .rejected reports⟩, session)
  | .ok program =>
    let (ending, session) :=
      (session.addDistances program.distances).interpret clock fuel program.body
    let (output, session) := session.takeOutput
    (⟨output, ending⟩, session)

end Session

end Lox
