import Lox.Proofs.Program.Alike
import Lox.Proofs.Program.Joined
import Lox.Proofs.Session.Numbered

/-! A session is one program. Sources fed to a session one after the other do what their joined source
does. The session starts each of them where the joined source has got by then, with the distances
that matter so far, and with the output taken out. -/

namespace Lox

/-- A line on which a token of one of some sources stands, and the line of that token in the joined
source. -/
def Joined.Line (sources : List String) (here there : Nat) : Prop :=
  ∃ before source after, sources = before ++ source :: after ∧ Scan.OnLine source here ∧
    there = here + lineBreaks before

theorem Joined.Line.append (line : Joined.Line sources here there) (more : List String) :
    Joined.Line (sources ++ more) here there := by
  obtain ⟨before, source, after, rfl, stands, below⟩ := line
  exact ⟨before, source, after ++ more, by simp, stands, below⟩

/-- All that was printed, in order. -/
def Outcome.printed (outcomes : List Outcome) : ByteArray :=
  outcomes.foldr (fun outcome later => outcome.output ++ later) .empty

namespace Session

section Feed

variable (session : Session) (clock : Nat → Float) (fuel : Nat) (rest : List String)

end Feed

/-- How sources fed one after the other end, beside the ending of their joined source. -/
inductive Ends (before sources : List String) : List Outcome → Ending → Prop where
  | done (all : outcomes.length = sources.length)
      (well : ∀ outcome ∈ outcomes, outcome.ending = .done) : Ends before sources outcomes .done
  | early (well : ∀ outcome ∈ earlier, outcome.ending = .done) (stops : failed.ending ≠ .done)
      (same : Ending.Alike (Joined.Line (before ++ sources.take (earlier.length + 1)))
        failed.ending ending) :
      Ends before sources (earlier ++ [failed]) ending

theorem Ends.first (stops : failed.ending ≠ .done)
    (same : Ending.Alike (Joined.Line (before ++ [source])) failed.ending ending) :
    Ends before (source :: sources) [failed] ending := by
  have none : ∀ outcome ∈ ([] : List Outcome), outcome.ending = .done := List.forall_mem_nil _
  exact .early none stops same

theorem Ends.cons (ends : Ends (before ++ [source]) sources outcomes ending)
    (well : outcome.ending = .done) : Ends before (source :: sources) (outcome :: outcomes) ending := by
  have first {others : List Outcome} (others_well : ∀ outcome ∈ others, outcome.ending = .done) :
      ∀ other ∈ outcome :: others, other.ending = .done := by
    intro other member
    rcases List.mem_cons.mp member with rfl | member
    · exact well
    · exact others_well other member
  cases ends with
  | done all others => exact .done (congrArg (· + 1) all) (first others)
  | early others stops same =>
    rw [List.append_assoc] at same
    exact .early (first others) stops same

/-- Identifiers that were handed out, with the same distance in the session and in a table. -/
def joining (table : Distances) (before : List String) (session : Session) : Pairing where
  ids id id' := id = id' ∧ id < session.nextId ∧ session.distances[id]? = table[id]?
  lines := Joined.Line before

variable {session : Session} {table : Distances}

section Accept

variable {next : NodeId} (numbered : session.Numbered)
  (accepted : checkSource source session.nextId = ⟨.ok program, next⟩)

include accepted

theorem joining_accept (table : Distances) (before : List String) (known : List NodeId) :
    (joining table before session).Within known
      (joining table (before ++ [source]) (session.accept program next)) := by
  have later := accept_later (congrArg Checked.outcome accepted)
  rw [accepted] at later
  refine ⟨fun id _ id' paired => ?_, fun _ _ line => line.append [source]⟩
  obtain ⟨same, bound, found⟩ := paired
  exact ⟨same, Nat.lt_of_lt_of_le bound later.nextId, (later.distances id bound).trans found⟩

include numbered

theorem joining_below (before : List String)
    (found : ∀ id ∈ Stmt.allIds program.body, program.distances[id]? = table[id]?) :
    (Pairing.below source (lineBreaks before)).Within (Stmt.allIds program.body)
      (joining table (before ++ [source]) (session.accept program next)) := by
  obtain ⟨parses, _⟩ := checkSource_ok (congrArg Checked.outcome accepted)
  rw [accepted] at parses
  refine ⟨fun id member id' same => ?_, fun here there paired => ?_⟩
  · obtain ⟨begun, bound⟩ := parses.numbered.within id member
    exact ⟨same, bound, (accept_own numbered program next begun).trans (found id member)⟩
  · exact ⟨before, source, [], rfl, paired⟩

end Accept

/-- A session between two sources, beside the machine of the joined source, which has printed already
what was taken out of the session. -/
structure Abreast (table : Distances) (before : List String) (session : Session)
    (printed : ByteArray) (other : Machine) : Prop where
  numbered : session.Numbered
  taken : session.machine.sink.written = .empty
  machine : Machine.Alike (joining table before session) printed session.machine other

/-- One more source does in the session what its statements do in the joined source. -/
theorem Abreast.runLine {next : NodeId} (abreast : Abreast table before session printed other)
    (accepted : checkSource source session.nextId = ⟨.ok program, next⟩)
    (same : Stmt.AllAlike (Pairing.below source (lineBreaks before)) program.body body)
    (found : ∀ id ∈ Stmt.allIds program.body, program.distances[id]? = table[id]?)
    (clock : Nat → Float) (fuel : Nat) :
    ∃ output ending later, session.runLine clock fuel source = (⟨output, ending⟩, later) ∧
      later.nextId = next ∧
      Ending.Alike (Joined.Line (before ++ [source])) ending
        (other.interpret ⟨table, clock⟩ fuel body).1 ∧
      Abreast table (before ++ [source]) later (printed ++ output)
        (other.interpret ⟨table, clock⟩ fuel body).2 := by
  have outcome := congrArg Checked.outcome accepted
  have ran := runLine_accepted session clock fuel outcome
  have numbered := accept_numbered outcome abreast.numbered
  rw [accepted] at ran numbered
  have machine := abreast.machine.mono (joining_accept accepted table before)
  have settings : Setting.Alike (joining table (before ++ [source]) (session.accept program next))
      ⟨(session.accept program next).distances, clock⟩ ⟨table, clock⟩ :=
    ⟨fun _ _ paired => paired.1 ▸ paired.2.2, rfl⟩
  have body := same.mono (joining_below abreast.numbered accepted before found)
  obtain ⟨ending, after⟩ := machine.interpret settings fuel body
  exact ⟨_, _, _, ran, rfl, ending, numbered, rfl, after.take⟩

end Session

end Lox
