import Lox.Program
import Lox.Proofs.Grammar.Program
import Lox.Proofs.Scope.Accepted
import Lox.Proofs.Token.Tokens

/-! Accepted sources. The tokens of such a source are a program of the grammar, and the table of its
distances is right for that program. -/

namespace Lox

/-- The statements that a source without errors stands for. -/
structure Parses (source : String) (first : NodeId) (body : List Stmt) (next : NodeId) : Prop where
  lexical : (Scan.ofSource source).errors = []
  grammatical : ∃ tokens, Scan.Body tokens ∧
    (Scan.ofSource source).tokens = tokens ++ [.eof (1 + source.toList.count '\n')] ∧
    Grammar.Program first tokens body next

theorem parseSource_eq_ok_iff :
    parseSource source first = ⟨.ok body, next⟩ ↔ Parses source first body next := by
  obtain ⟨tokens, ends, spelled⟩ := Scan.ofSource_tokens source
  have last : (Token.eof (1 + source.toList.count '\n')).kind = .eof := rfl
  constructor
  · intro parsed
    rcases Parsed.program_or_errors first spelled.only last with ⟨body, next, ran, form⟩ | failed
    · simp only [parseSource, ends, ran, Checked.mk.injEq] at parsed
      obtain ⟨outcome, rfl⟩ := parsed
      split at outcome
      · rename_i lexical
        cases outcome
        exact ⟨by simpa using lexical, tokens, spelled, ends, form⟩
      · cases outcome
    · obtain ⟨error, errors, failed⟩ := failed
      simp only [parseSource, ends, failed, Checked.mk.injEq] at parsed
      cases parsed.1
  · rintro ⟨lexical, others, spelled, ends, form⟩
    have ran := Parsed.of_program spelled.only last form
    simp [parseSource, ends, ran, lexical]

theorem Parses.regular (parses : Parses source first body next) : Stmt.AllRegular body := by
  obtain ⟨tokens, spelled, _, form⟩ := parses.grammatical
  exact Grammar.Many.regular form spelled.plain

theorem Parses.numbered (parses : Parses source first body next) :
    Grammar.Numbered first (Stmt.allIds body) next := by
  obtain ⟨tokens, _, _, form⟩ := parses.grammatical
  exact Grammar.Many.numbered form

theorem checkSource_ok (checked : (checkSource source first).outcome = .ok program) :
    Parses source first program.body (checkSource source first).nextId ∧
      resolve program.body = .ok program.distances := by
  change (parseSource source first).outcome.bind Program.ofStatements = .ok program at checked
  change Parses source first program.body (parseSource source first).nextId ∧ _
  cases parsed : (parseSource source first).outcome with
  | error reports =>
    rw [parsed] at checked
    cases checked
  | ok body =>
    have parses : Parses source first body (parseSource source first).nextId :=
      parseSource_eq_ok_iff.mp (by rw [← parsed])
    simp only [parsed, Except.bind, Program.ofStatements] at checked
    split at checked
    · rename_i resolved
      cases checked
      exact ⟨parses, resolved⟩
    · cases checked

/-- What is known of the distances in a program. -/
def Program.entries (program : Program) : Entries := fun id found =>
  id ∈ Stmt.allIds program.body ∧ program.distances[id]? = found

/-- An accepted source is addressed right by its table. -/
theorem checkSource_addressed (checked : (checkSource source first).outcome = .ok program) :
    Stmt.AllAddressed (fun id found => id ∈ Stmt.allIds program.body ∧
      program.distances[id]? = found) [] program.body := by
  obtain ⟨parses, resolved⟩ := checkSource_ok checked
  exact resolve_addressed parses.regular parses.numbered.different resolved

end Lox
