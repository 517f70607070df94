import Lox.Proofs.Lexical.ForLoop
import Lox.Proofs.Lexical.Program

/-! `for` statements in accepted programs. With the distances of the program the blocks and the `while`
statement that stand for a loop do what the loop means. -/

namespace Lox

namespace Lexical

/-- A machine does what an evaluation by lexical scoping does, if both have as much fuel as they take.
If one of them ends, the other one does too, and alike. Whether they end or not, what one of them has
printed by any time the other one prints too. -/
structure Realizes {α β : Type} (table : Entries) (here : Option ScopeRef) (related : Related α β) (slots : Slots)
    (machine : Machine) (state : State) (step : Nat → Lox.Eval α) (other : Nat → Eval β) : Prop where
  ends : (∃ fuel, Finished (step fuel machine)) ↔ ∃ fuel, Finished (other fuel state)
  agree : ∀ {fuel fuel'}, Finished (step fuel machine) → Finished (other fuel' state) →
    Agree table here related slots machine (step fuel machine) (other fuel' state)
  prints : ∀ fuel, ∃ enough more, (ended (other enough state)).sink.written =
    (ended (step fuel machine)).sink.written ++ more
  printed : ∀ fuel, ∃ enough more, (ended (step enough machine)).sink.written =
    (ended (other fuel state)).sink.written ++ more

section Realizes

variable {α β : Type} {table : Entries} {here : Option ScopeRef} {related : Related α β}
  {slots : Slots} {machine : Machine} {state : State}

theorem Agree.finished (agree : Agree table here related slots machine result result') :
    Finished result ↔ Finished result' := by
  unfold Agree at agree
  split at agree
  · exact ⟨fun _ _ => nofun, fun _ _ => nofun⟩
  · obtain ⟨rfl, _⟩ := agree
    simp [Finished]
  · exact agree.elim

theorem Lockstep.sink {step : Lox.Eval α} {other : Eval β}
    (steps : Lockstep table here related step other slots machine state) :
    (ended (other state)).sink = (ended (step machine)).sink := by
  unfold Lockstep Agree at steps
  split at steps
  · rename_i ran ran'
    obtain ⟨_, after, _⟩ := steps
    simp only [ran, ran', ended]
    exact after.similar.sink
  · rename_i ran ran'
    obtain ⟨_, _, after⟩ := steps
    simp only [ran, ran', ended]
    exact after.similar.sink
  · exact steps.elim

/-- Two evaluations of which one only takes some more fuel, and a machine in lockstep with that one. -/
theorem Realizes.of_lockstep {step : Nat → Lox.Eval α} {middle other : Nat → Eval β}
    (steps : ∀ fuel, Lockstep table here related (step fuel) (middle fuel) slots machine state)
    (longer : ∀ {fuel more}, fuel ≤ more → (middle fuel).Approximates (middle more))
    (below : ∀ fuel, (middle fuel).Approximates (other fuel))
    (above : ∀ fuel, (other fuel).Approximates (middle (fuel + extra))) :
    Realizes table here related slots machine state step other := by
  have finished (fuel : Nat) : Finished (step fuel machine) ↔ Finished (middle fuel state) :=
    Agree.finished (steps fuel)
  have same {fuel : Nat} (done : Finished (middle fuel state)) :
      middle fuel state = other fuel state :=
    ((below fuel).begins state).eq_of_finished done
  have same' {fuel : Nat} (done : Finished (other fuel state)) :
      other fuel state = middle (fuel + extra) state :=
    ((above fuel).begins state).eq_of_finished done
  constructor
  · constructor
    · rintro ⟨fuel, done⟩
      rw [finished] at done
      exact ⟨fuel, same done ▸ done⟩
    · rintro ⟨fuel, done⟩
      rw [same' done] at done
      exact ⟨fuel + extra, (finished _).mpr done⟩
  · intro fuel fuel' done done'
    have agree : Agree table here related slots machine (step fuel machine) (middle fuel state) :=
      steps fuel
    rw [finished] at done
    have equal : middle fuel state = middle (fuel' + extra) state := by
      rcases Nat.le_total fuel (fuel' + extra) with le | le
      · exact ((longer le).begins state).eq_of_finished done
      · rw [same' done'] at done'
        exact (((longer le).begins state).eq_of_finished done').symm
    rwa [equal, ← same' done'] at agree
  · intro fuel
    obtain ⟨more, written⟩ := ((below fuel).begins state).longer
    rw [(steps fuel).sink] at written
    exact ⟨fuel, more, written⟩
  · intro fuel
    obtain ⟨more, written⟩ := ((above fuel).begins state).longer
    rw [(steps (fuel + extra)).sink] at written
    exact ⟨fuel + extra, more, written⟩

end Realizes

variable {table : Entries} {slots : Slots} {machine : Machine} {state : State} {scoping : Scoping}
  {place : Place}

/-- A statement that declares nothing where it stands. -/
theorem Lockstep.execute (keeps : setting.Keeps table) (similar : Similar table slots machine state)
    (linked : Linked slots machine.heap.scopes scoping machine.scope place.environment)
    (stands : Stands place scoping) (plain : stmt.introduces = none)
    (addressed : stmt.Addressed table scoping) (fuel : Nat) :
    Lockstep table none (Ended scoping machine.scope place.environment)
      (Lox.Eval.execute setting fuel stmt) (Eval.execute setting.clock fuel place stmt) slots machine
      state := by
  have recorded := (simulates keeps fuel).branch similar stmt linked stands plain addressed
  obtain ⟨agree, _⟩ := recorded [] nofun
  rw [((Trace.records setting fuel).execute stmt).erases] at agree
  exact agree

end Lexical

namespace ForLoop

open Lexical

/-- The tokens of a `for` statement after the keyword. -/
inductive Written (loop : ForLoop) (dangling : Bool) (first : NodeId) :
    List Token → NodeId → List Token → Prop where
  | clauses (opens : opening.Is .leftParen)
      (started : Grammar.ForInitializer first input loop.initializer second input₂)
      (tested : Grammar.Optional (Grammar.Expression .assignment) second input₂ loop.condition third
        (semicolon :: input₃))
      (ends : semicolon.Is .semicolon)
      (stepped : Grammar.Optional (Grammar.Expression .assignment) third input₃ loop.increment fourth
        (closing :: input₄))
      (closes : closing.Is .rightParen)
      (repeated : Grammar.Statement dangling fourth input₄ loop.body next rest) :
      Written loop dangling first (opening :: input) next rest

/-- The statements that begin with the keyword are the loops. -/
theorem statement_iff {keyword : Token} (begins : keyword.Is .kwFor) :
    Grammar.Statement dangling first (keyword :: input) stmt next rest ↔
      ∃ loop : ForLoop, loop.Written dangling first input next rest ∧ stmt = loop.tree := by
  have kind : keyword.kind = .terminal .kwFor := begins
  constructor
  · intro form
    cases form with
    | «for» _ opens started tested ends stepped closes repeated =>
      exact ⟨⟨_, _, _, _, repeated.introduces⟩,
        .clauses opens started tested ends stepped closes repeated, rfl⟩
    | expression statement =>
      obtain ⟨_, _, same, starts, _⟩ := statement.opens
      cases same
      rw [kind] at starts
      cases starts
    | print other | «return» other | block other | «while» other | ifThen other | ifElse other =>
      cases kind.symm.trans other
  · rintro ⟨loop, ⟨opens, started, tested, ends, stepped, closes, repeated⟩, rfl⟩
    exact .for begins opens started tested ends stepped closes repeated

/-- The body of a loop is addressed right in the scopes around it. -/
theorem addressed_body (loop : ForLoop) (addressed : loop.tree.Addressed table scoping) :
    ∃ inner, loop.body.Addressed table inner := by
  obtain ⟨initializer, condition, increment, body, plain⟩ := loop
  cases initializer <;> cases increment
  · exact ⟨_, addressed.2.2⟩
  · exact ⟨_, addressed.2.2.1⟩
  · exact ⟨_, addressed.2.1.2.2⟩
  · exact ⟨_, addressed.2.1.2.2.1⟩

/-- The tree of a `for` statement in an accepted program realizes the loop, wherever it stands and from any
state that is similar to one by lexical scoping, as all states of a run are (`simulates`). Both end with
the same flow or for the same reason, and in similar states, so all variables, instances, functions and
classes are the same. The block around body and increment is not seen. -/
theorem tree_realizes (checked : (checkSource source first).outcome = .ok program) (loop : ForLoop)
    (located : loop.tree.Located scoping [] program.body)
    (similar : Similar program.entries slots machine state)
    (linked : Linked slots machine.heap.scopes scoping machine.scope place.environment)
    (stands : Stands place scoping) (clock : Nat → Float) :
    Realizes program.entries none (Ended scoping machine.scope place.environment) slots machine state
      (fun fuel => Eval.execute ⟨program.distances, clock⟩ fuel loop.tree)
      (fun fuel => Lexical.Eval.forLoop clock fuel place loop) := by
  have addressed : loop.tree.Addressed program.entries scoping :=
    located.addressed (checkSource_addressed checked)
  have keeps : Setting.Keeps ⟨program.distances, clock⟩ program.entries := fun _ _ known => known.2
  obtain ⟨_, inside⟩ := loop.addressed_body addressed
  exact .of_lockstep (.execute keeps similar linked stands (Stmt.introduces_forLoop ..) addressed)
    (fun le => (Lexical.Eval.Completes.of_le clock le).execute place loop.tree)
    (fun _ => .forLoop_below fun _ _ => Lexical.Eval.execute_within loop.plain inside)
    (fun _ => .forLoop_above fun _ _ => Lexical.Eval.execute_within loop.plain inside)

/-- A loop with all its clauses. -/
private def counting : String := "for (var i = 0; i < 2; i = i + 1) print i;"

private def counts : List Stmt → Bool
  | [.block [.declareVar _ _, .while _ (.block [.print _, .expression _])]] => true
  | _ => false

theorem counting_realizes : ∃ program, (checkSource counting 0).outcome = .ok program ∧
    ∃ loop : ForLoop, program.body = [loop.tree] ∧
      Realizes program.entries none (Ended [] Heap.globals []) #[] (.start none) (.start none)
        (fun fuel => Eval.execute ⟨program.distances, fun _ => 0⟩ fuel loop.tree)
        (fun fuel => Lexical.Eval.forLoop (fun _ => 0) fuel .globals loop) := by
  have shape : (checkSource counting 0).outcome.toOption.any (counts ·.body) = true := by
    decide +kernel
  cases checked : (checkSource counting 0).outcome with
  | error reports =>
    rw [checked] at shape
    cases shape
  | ok program =>
    rw [checked] at shape
    obtain ⟨body, distances⟩ := program
    change counts body = true at shape
    unfold counts at shape
    split at shape
    · rename_i name initializer condition value step
      let loop : ForLoop :=
        ⟨some (.declareVar name initializer), some condition, some step, .print value, rfl⟩
      have stands : Stands .globals [] := rfl
      exact ⟨_, rfl, loop, rfl,
        tree_realizes checked loop .here (.start _ none) .globals stands _⟩
    · cases shape

end ForLoop

end Lox
