import Lox.Command
import Lox.Proofs.Machine.Raised
import Lox.Proofs.Parse.Later
import Lox.Proofs.Program.Accepted
import Lox.Proofs.Program.Moved
import Lox.Proofs.Session.Basic

/-! The channels of reports. A source is rejected for its characters and its grammar, or else for its
scopes, or else it runs and there is at most one report of the run. How a source ends is the same
question for a program on its own and for a source in a session. -/

namespace Lox

/-- All errors in the grammar of a source. -/
def syntaxErrors (source : String) (first : NodeId) : List SyntaxError :=
  match (Parsed.ofTokens (Scan.ofSource source).tokens first).program with
  | .ok _ => []
  | .error errors => errors

/-- What a source is rejected for. Its scopes count only if it stands for a program. -/
inductive Rejects (source : String) (first : NodeId) : List Report → Prop where
  | malformed (unparsed : ∀ body next, ¬ Parses source first body next) :
      Rejects source first ((Scan.ofSource source).errors.map .lexical ++
        (syntaxErrors source first).map .syntactic)
  | illScoped (parses : Parses source first body next) (resolved : resolve body = .error errors) :
      Rejects source first (errors.map .scope)

/-- A source that stands for a program and keeps to the rules of scopes. -/
structure Accepts (source : String) (first : NodeId) (program : Program) : Prop where
  parses : ∃ next, Parses source first program.body next
  resolved : resolve program.body = .ok program.distances

/-- What reports are about. -/
inductive Channel where
  | form
  | scopes
  | execution
deriving DecidableEq

def Report.channel : Report → Channel
  | lexical _ | syntactic _ => .form
  | scope _ => .scopes
  | runtime _ | sinkFull => .execution

/-- An outcome of a source, printed into a sink of some capacity. The source is rejected without any
output, or what is reported was raised by its run, and there are reports of one channel unless there are
none. -/
structure Outcome.Classified (source : String) (first : NodeId) (capacity : Option Nat)
    (outcome : Outcome) : Prop where
  rejected : ∀ reports, outcome.ending = .rejected reports ↔ Rejects source first reports
  silent : ∀ reports, outcome.ending = .rejected reports → outcome.output = .empty
  accepted : (∃ program, Accepts source first program) ↔ ∀ reports, outcome.ending ≠ .rejected reports
  stopped : ∀ report, outcome.ending = .stopped report → report.Raised ⟨outcome.output, capacity⟩
  unreported : outcome.ending.reports = [] ↔ outcome.ending = .done ∨ outcome.ending = .unfinished
  channel : ∃ channel, ∀ report ∈ outcome.ending.reports, report.channel = channel

section Check

theorem parseSource_malformed (unparsed : ∀ body next, ¬ Parses source first body next) :
    (parseSource source first).outcome = .error ((Scan.ofSource source).errors.map .lexical ++
      (syntaxErrors source first).map .syntactic) ∧
    ((Scan.ofSource source).errors ≠ [] ∨ syntaxErrors source first ≠ []) := by
  obtain ⟨tokens, ends, spelled⟩ := Scan.ofSource_tokens source
  have last : (Token.eof (1 + source.toList.count '\n')).kind = .eof := rfl
  rcases Parsed.program_or_errors first spelled.only last with ⟨body, next, ran, form⟩ | failed
  · have lexical : (Scan.ofSource source).errors ≠ [] := fun none =>
      unparsed body next ⟨none, tokens, spelled, ends, form⟩
    refine ⟨?_, .inl lexical⟩
    simp [parseSource, syntaxErrors, ends, ran, lexical]
  · obtain ⟨error, errors, failed⟩ := failed
    simp [parseSource, syntaxErrors, ends, failed]

theorem resolve_errors_ne_nil (rejected : resolve body = .error errors) : errors ≠ [] := by
  rintro rfl
  simp only [resolve] at rejected
  split at rejected <;> simp_all

/-- A source is never rejected without a report. -/
theorem Rejects.ne_nil (rejects : Rejects source first reports) : reports ≠ [] := by
  cases rejects with
  | malformed unparsed =>
    simpa [imp_iff_not_or] using (parseSource_malformed unparsed).2
  | illScoped parses resolved => simpa using resolve_errors_ne_nil resolved

theorem Rejects.static (rejects : Rejects source first reports) : ∀ report ∈ reports, report.isStatic := by
  cases rejects with
  | malformed => grind [Report.isStatic]
  | illScoped => grind [Report.isStatic]

theorem Rejects.channel (rejects : Rejects source first reports) :
    ∃ channel, ∀ report ∈ reports, report.channel = channel := by
  cases rejects with
  | malformed => exact ⟨.form, by grind [Report.channel]⟩
  | illScoped => exact ⟨.scopes, by grind [Report.channel]⟩

theorem checkSource_parsed (parses : Parses source first body next) :
    (checkSource source first).outcome = Program.ofStatements body := by
  unfold checkSource
  rw [parseSource_eq_ok_iff.mpr parses]
  rfl

theorem checkSource_accepts_iff :
    (checkSource source first).outcome = .ok program ↔ Accepts source first program := by
  constructor
  · intro checked
    obtain ⟨parses, resolved⟩ := checkSource_ok checked
    exact ⟨⟨_, parses⟩, resolved⟩
  · rintro ⟨⟨next, parses⟩, resolved⟩
    simp [checkSource_parsed parses, Program.ofStatements, resolved]

theorem checkSource_rejects_iff :
    (checkSource source first).outcome = .error reports ↔ Rejects source first reports := by
  by_cases parsed : ∃ body next, Parses source first body next
  · obtain ⟨body, next, parses⟩ := parsed
    rw [checkSource_parsed parses, Program.ofStatements]
    constructor
    · intro rejected
      split at rejected
      · cases rejected
      · rename_i errors resolved
        cases rejected
        exact .illScoped parses resolved
    · intro rejects
      cases rejects with
      | malformed unparsed => exact absurd parses (unparsed body next)
      | illScoped parses' resolved =>
        have same := (parseSource_eq_ok_iff.mpr parses).symm.trans (parseSource_eq_ok_iff.mpr parses')
        cases same
        rw [resolved]
  · have unparsed : ∀ body next, ¬ Parses source first body next := by simpa using parsed
    have outcome := (parseSource_malformed unparsed).1
    simp only [checkSource, outcome, Except.bind, Except.error.injEq]
    constructor
    · rintro rfl
      exact .malformed unparsed
    · intro rejects
      cases rejects with
      | malformed => rfl
      | illScoped parses => exact absurd parses (unparsed _ _)

end Check

namespace Outcome.Classified

theorem of_rejected (checked : (checkSource source first).outcome = .error reports) :
    Classified source first capacity ⟨.empty, .rejected reports⟩ := by
  have rejects := checkSource_rejects_iff.mp checked
  refine ⟨fun others => ?_, fun _ _ => rfl, ?_, fun _ stopped => ?_, ?_, rejects.channel⟩
  · rw [← checkSource_rejects_iff, checked, Ending.rejected.injEq, Except.error.injEq]
  · simp only [← checkSource_accepts_iff, checked]
    simp
  · cases stopped
  · simpa [Ending.reports] using rejects.ne_nil

theorem of_accepted (checked : (checkSource source first).outcome = .ok program)
    (setting : Setting) (fuel : Nat) (machine : Machine) :
    Classified source first machine.sink.capacity
      ⟨(machine.interpret setting fuel program.body).2.sink.written,
        (machine.interpret setting fuel program.body).1⟩ := by
  have never := machine.interpret_not_rejected setting fuel program.body
  have accepts := checkSource_accepts_iff.mp checked
  refine ⟨fun reports => ⟨fun rejected => absurd rejected (never reports), fun rejects => ?_⟩,
    fun reports rejected => absurd rejected (never reports),
    ⟨fun _ => never, fun _ => ⟨program, accepts⟩⟩,
    fun report => Machine.interpret_stopped, ?_, ?_⟩
  · rw [← checkSource_rejects_iff, checked] at rejects
    cases rejects
  · cases ended : (machine.interpret setting fuel program.body).1 with
    | rejected reports => exact absurd ended (never reports)
    | _ => simp [Ending.reports]
  · cases ended : (machine.interpret setting fuel program.body).1 with
    | rejected reports => exact absurd ended (never reports)
    | stopped report => exact ⟨report.channel, by simp [Ending.reports]⟩
    | _ => exact ⟨.execution, by simp [Ending.reports]⟩

theorem run (clock : Nat → Float) (fuel : Nat) (capacity : Option Nat) (source : String) :
    Classified source 0 capacity (Lox.run clock fuel capacity source) := by
  unfold Lox.run
  cases checked : (checkSource source 0).outcome with
  | error reports => exact of_rejected checked
  | ok program => exact of_accepted checked ⟨program.distances, clock⟩ fuel (.start capacity)

theorem runLine (session : Session) (clock : Nat → Float) (fuel : Nat) (source : String) :
    Classified source session.nextId session.machine.sink.capacity
      (session.runLine clock fuel source).1 := by
  cases checked : (checkSource source session.nextId).outcome with
  | error reports =>
    rw [Session.runLine_rejected _ _ _ checked]
    exact of_rejected checked
  | ok program =>
    rw [Session.runLine_accepted _ _ _ checked]
    exact of_accepted checked _ fuel session.machine

theorem exitCode (classified : Classified source first capacity outcome) :
    (outcome.ending.exitCode = 65 ↔ ∃ reports, Rejects source first reports) ∧
    (outcome.ending.exitCode = 70 ↔ ∃ report, outcome.ending = .stopped report) ∧
    (outcome.ending.exitCode = 0 ↔ outcome.ending = .done ∨ outcome.ending = .unfinished) := by
  simp only [← classified.rejected]
  cases ended : outcome.ending with
  | rejected reports =>
    have rejects := (classified.rejected reports).mp ended
    have static : reports.any (·.isStatic) = true := by
      obtain ⟨report, member⟩ := List.exists_mem_of_ne_nil reports rejects.ne_nil
      exact List.any_eq_true.mpr ⟨report, member, rejects.static report member⟩
    simp [Ending.exitCode, Ending.reports, static]
  | stopped report =>
    have raised := (classified.stopped report ended).not_static
    simp [Ending.exitCode, Ending.reports, raised]
  | _ => simp [Ending.exitCode]

end Outcome.Classified

theorem Rejects.anywhere (rejects : Rejects source first reports) (other : NodeId) :
    Rejects source other reports :=
  checkSource_rejects_iff.mp (checkSource_rejected (checkSource_rejects_iff.mpr rejects) other)

/-- Reports of different channels are never mixed, by no program and by no source in a session, and the
two reject the same sources for the same. No error of the grammar gets lost once it is on record, and
no evaluation, however deep, raises what sources are rejected for. So the exit code of a program tells
whether it was rejected or stopped. -/
theorem channels_never_mixed (clock : Nat → Float) (fuel : Nat) (capacity : Option Nat) (source : String)
    (session : Session) (read : String → FileRead) (stdin : List UInt8)
    (found : (read file).source file = .ok source) :
    (run clock fuel capacity source).Classified source 0 capacity ∧
    (session.runLine clock fuel source).1.Classified source session.nextId
      session.machine.sink.capacity ∧
    (∀ reports, Rejects source session.nextId reports ↔ Rejects source 0 reports) ∧
    (∀ depth, Parse.Keeps (Parse.expressionWithin depth) ∧ Parse.Keeps (Parse.statementWithin depth) ∧
      Parse.Keeps (Parse.declarationWithin depth)) ∧
    (∀ setting, (Eval.parts setting fuel).Related (fun _ step _ => Eval.Raises step)
      (Eval.parts setting fuel)) ∧
    let exit := Command.perform clock fuel read stdin (.run (some file))
    let ending := (run clock fuel none source).ending
    (exit.code = 65 ↔ ∃ reports, Rejects source 0 reports) ∧
    (exit.code = 70 ↔ ∃ report, ending = .stopped report) ∧
    (exit.code = 0 ↔ ending = .done ∨ ending = .unfinished) := by
  have code : (Command.perform clock fuel read stdin (.run (some file))).code =
      (run clock fuel none source).ending.exitCode := by
    simp only [Command.perform, Command.onFile, found]
    rfl
  refine ⟨Outcome.Classified.run clock fuel capacity source,
    Outcome.Classified.runLine session clock fuel source, fun reports => ?_, fun depth => ?_, ?_, ?_⟩
  · exact ⟨fun rejects => rejects.anywhere 0, fun rejects => rejects.anywhere session.nextId⟩
  · obtain ⟨statements, declarations⟩ := Parse.within_leads depth
    exact ⟨(Parse.expressionWithin_leads depth).keeps, statements.keeps, declarations.keeps⟩
  · exact fun setting => Eval.parts_raise setting fuel
  · dsimp only
    rw [code]
    exact (Outcome.Classified.run clock fuel none source).exitCode

/-- A file with a `return` outside of every function. -/
private def strayReturn (_ : String) : FileRead :=
  .contents "return;".toUTF8.toList

theorem strayReturn_rejected : (strayReturn "a").source "a" = .ok "return;" ∧
    (∃ reports, Rejects "return;" 0 reports) ∧
    (run (fun _ => 0) 10 none "return;").Classified "return;" 0 none := by
  have decoded : ((strayReturn "a").source "a").toOption = some "return;" := by decide +kernel
  have found : (strayReturn "a").source "a" = .ok "return;" := by
    cases read : (strayReturn "a").source "a" with
    | error fault =>
      rw [read] at decoded
      cases decoded
    | ok source =>
      rw [read] at decoded
      rw [Option.some.inj decoded]
  obtain ⟨classified, -, -, -, -, rejected, -⟩ :=
    channels_never_mixed (fun _ => 0) 10 none "return;" .start strayReturn [] found
  exact ⟨found, rejected.mp (by decide +kernel), classified⟩

end Lox
