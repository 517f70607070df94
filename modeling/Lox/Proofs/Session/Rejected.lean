import Lox.Proofs.Program.Alike
import Lox.Proofs.Program.Moved
import Lox.Proofs.Session.Numbered

/-! Rejected sources in a session. All that such a source changes is the next identifier, and sessions
that differ by that go on alike: the identifiers of later sources are moved, in their statements and
in the table. -/

namespace Lox.Session

/-- Identifiers that two sessions handed out and that have the same distance in both. -/
def pairing (session other : Session) : Pairing where
  ids id id' :=
    id < session.nextId ∧ id' < other.nextId ∧ session.distances[id]? = other.distances[id']?
  lines := Eq

/-- Sessions that printed and hold the same, of which one has handed out more identifiers. -/
structure Alike (offset : Nat) (session other : Session) : Prop where
  machine : Machine.Alike (session.pairing other) .empty session.machine other.machine
  nextId : other.nextId = session.nextId + offset
  numbered : session.Numbered
  numbered' : other.Numbered

variable {session other : Session}

theorem pairing_later (later : session.Later grown) (later' : other.Later grown') (known : List NodeId) :
    (session.pairing other).Within known (grown.pairing grown') := by
  refine ⟨fun id _ id' paired => ?_, fun _ _ same => same⟩
  obtain ⟨bound, bound', same⟩ := paired
  refine ⟨Nat.lt_of_lt_of_le bound later.nextId, Nat.lt_of_lt_of_le bound' later'.nextId, ?_⟩
  rw [later.distances id bound, later'.distances id' bound']
  exact same

theorem settings_alike (session other : Session) (clock : Nat → Float) :
    Setting.Alike (session.pairing other) ⟨session.distances, clock⟩ ⟨other.distances, clock⟩ :=
  ⟨fun _ _ paired => paired.2.2, rfl⟩

theorem start_alike : Alike 0 start start where
  machine := .start
  nextId := rfl
  numbered := start_numbered
  numbered' := start_numbered

namespace Alike

variable (alike : Alike offset session other)

include alike

/-- More identifiers are used up, by one session possibly more than by the other. -/
theorem advance {next next' : NodeId} (forward : session.nextId ≤ next)
    (forward' : other.nextId ≤ next') (apart : next' = next + offset') :
    Alike offset' { session with nextId := next } { other with nextId := next' } := by
  have later : session.Later { session with nextId := next } := ⟨forward, fun _ _ => rfl⟩
  have later' : other.Later { other with nextId := next' } := ⟨forward', fun _ _ => rfl⟩
  exact {
    machine := alike.machine.mono (pairing_later later later')
    nextId := apart
    numbered := fun id beyond => alike.numbered id (Nat.le_trans forward beyond)
    numbered' := fun id beyond => alike.numbered' id (Nat.le_trans forward' beyond) }

/-- The identifiers of a source accepted in both sessions stand for each other from then on. -/
theorem accept_body {next : NodeId} (same : Program.Alike (Pairing.shift offset) program program')
    (accepted : checkSource source session.nextId = ⟨.ok program, next⟩) :
    Stmt.AllAlike ((session.accept program next).pairing (other.accept program' (next + offset)))
      program.body program'.body := by
  obtain ⟨parses, _⟩ := checkSource_ok (congrArg Checked.outcome accepted)
  rw [accepted] at parses
  refine same.body.mono ⟨fun id member id' shifted => ?_, fun _ _ same => same⟩
  subst shifted
  obtain ⟨begun, bound⟩ := parses.numbered.within id member
  have begun' : other.nextId ≤ id + offset := alike.nextId ▸ Nat.add_le_add_right begun offset
  refine ⟨bound, Nat.add_lt_add_right bound offset, ?_⟩
  rw [accept_own alike.numbered _ _ begun, accept_own alike.numbered' _ _ begun']
  exact same.distances id _ rfl

/-- Every source has the same outcome in both sessions and leaves them alike. -/
theorem runLine (clock : Nat → Float) (fuel : Nat) (source : String) :
    (session.runLine clock fuel source).1 = (other.runLine clock fuel source).1 ∧
      Alike offset (session.runLine clock fuel source).2 (other.runLine clock fuel source).2 := by
  have moved := checkSource_moved offset source session.nextId
  rw [← alike.nextId] at moved
  generalize checked : checkSource source session.nextId = one at moved
  generalize checked' : checkSource source other.nextId = two at moved
  have outcome := congrArg Checked.outcome checked
  have outcome' := congrArg Checked.outcome checked'
  cases moved with
  | rejected reports next =>
    rw [runLine_rejected _ _ _ outcome, runLine_rejected _ _ _ outcome', checked, checked']
    have forward := checkSource_nextId source session.nextId
    have forward' := checkSource_nextId source other.nextId
    rw [checked] at forward
    rw [checked'] at forward'
    exact ⟨rfl, alike.advance (forward ▸ Nat.le_add_left _ _) (forward' ▸ Nat.le_add_left _ _) rfl⟩
  | @accepted program program' same next =>
    have body := alike.accept_body same checked
    have later := accept_later outcome
    have later' := accept_later outcome'
    have numbered := accept_numbered outcome alike.numbered
    have numbered' := accept_numbered outcome' alike.numbered'
    rw [runLine_accepted _ _ _ outcome, runLine_accepted _ _ _ outcome']
    rw [checked] at later numbered ⊢
    rw [checked'] at later' numbered' ⊢
    have machine := alike.machine.mono (pairing_later later later')
    obtain ⟨ending, after⟩ := machine.interpret (settings_alike _ _ clock) fuel body
    refine ⟨congrArg₂ Outcome.mk ?_ ending.eq, ?_⟩
    · exact (after.sink.written.trans ByteArray.empty_append).symm
    · exact ⟨{ after with sink := ⟨rfl, rfl, rfl⟩ }, rfl, numbered, numbered'⟩

theorem runLines (clock : Nat → Float) (fuel : Nat) (sources : List String) :
    (session.runLines clock fuel sources).1 = (other.runLines clock fuel sources).1 ∧
      Alike offset (session.runLines clock fuel sources).2
        (other.runLines clock fuel sources).2 := by
  induction sources generalizing session other with
  | nil => exact ⟨rfl, alike⟩
  | cons first rest ih =>
    obtain ⟨outcome, after⟩ := alike.runLine clock fuel first
    obtain ⟨outcomes, later⟩ := ih after
    exact ⟨congrArg₂ List.cons outcome outcomes, later⟩

end Alike

/-- Sessions that have run the same sources are alike. -/
theorem runLines_start_alike (clock : Nat → Float) (fuel : Nat) (sources : List String) :
    Alike 0 (start.runLines clock fuel sources).2 (start.runLines clock fuel sources).2 :=
  (start_alike.runLines clock fuel sources).2

/-- A rejected source leaves no trace. Wherever in a session it stands, it prints nothing, and the other
sources print the same, are reported for the same and end the same as without it, though the
identifiers after it are moved. -/
theorem rejected_leaves_no_trace (rejected : (checkSource entry first).outcome = .error reports)
    (clock : Nat → Float) (fuel : Nat) (before after : List String) :
    ∃ earlier later, earlier.length = before.length ∧ later.length = after.length ∧
      (start.runLines clock fuel (before ++ after)).1 = earlier ++ later ∧
      (start.runLines clock fuel (before ++ entry :: after)).1 =
        earlier ++ ⟨.empty, .rejected reports⟩ :: later ∧
      (start.runLines clock fuel (before ++ entry :: after)).2.nextId =
        (start.runLines clock fuel (before ++ after)).2.nextId + (checkSource entry 0).nextId := by
  have alike := runLines_start_alike clock fuel before
  rw [runLines_append, runLines_append]
  generalize earlier : start.runLines clock fuel before = ran at alike ⊢
  obtain ⟨outcomes, session⟩ := ran
  have skipped := runLine_rejected session clock fuel (checkSource_rejected rejected session.nextId)
  have used := checkSource_nextId entry session.nextId
  have moved := alike.advance (Nat.le_refl _) (used ▸ Nat.le_add_left _ _)
    (used.trans (Nat.add_comm _ _))
  obtain ⟨same, apart⟩ := moved.runLines clock fuel after
  refine ⟨outcomes, (session.runLines clock fuel after).1, ?_, ?_, rfl, ?_, ?_⟩
  · have length := runLines_length start clock fuel before
    rwa [earlier] at length
  · exact runLines_length session clock fuel after
  · simp only [Session.runLines, skipped, ← same]
  · simp only [Session.runLines, skipped, apart.nextId]

/-- A source that breaks a rule of scopes but is well formed, so that it uses up an identifier. -/
private def selfReading : String :=
  "{ var a = a; }"

theorem selfReading_leaves_no_trace : ∃ reports,
    (checkSource selfReading 0).outcome = .error reports ∧
    ∃ earlier later, earlier.length = 1 ∧ later.length = 1 ∧
      (start.runLines (fun _ => 0) 100 ["fun f() { return 1; }", "print f();"]).1 =
        earlier ++ later ∧
      (start.runLines (fun _ => 0) 100 ["fun f() { return 1; }", selfReading, "print f();"]).1 =
        earlier ++ ⟨.empty, .rejected reports⟩ :: later := by
  have failed : (checkSource selfReading 0).outcome.isOk = false := by decide +kernel
  cases rejected : (checkSource selfReading 0).outcome with
  | ok program =>
    rw [rejected] at failed
    cases failed
  | error reports =>
    obtain ⟨earlier, later, lengths, lengths', without, inserted, _⟩ := rejected_leaves_no_trace
      rejected (fun _ => 0) 100 ["fun f() { return 1; }"] ["print f();"]
    exact ⟨reports, rfl, earlier, later, lengths, lengths', without, inserted⟩

end Lox.Session
