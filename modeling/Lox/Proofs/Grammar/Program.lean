import Lox.Proofs.Grammar.Complete.Statement
import Lox.Proofs.Grammar.Sound.Statement

/-! The parser beside the grammar. Tokens that are a program of the grammar are parsed as that program,
and other tokens give errors. -/

namespace Lox

open Grammar

namespace Parse.State

variable {tokens : List Token} {last : Token}

theorem start_rest (first : NodeId) (only : ∀ token ∈ tokens, token.kind ≠ .eof) (ends : last.kind = .eof) :
    (start (tokens ++ [last]) first).rest = tokens := by
  unfold start
  rw [List.takeWhile_append_of_pos fun token member => by simpa using only token member]
  simp [ends]

theorem start_eq (first : NodeId) (only : ∀ token ∈ tokens, token.kind ≠ .eof) (ends : last.kind = .eof) :
    start (tokens ++ [last]) first = ⟨tokens, last.line, first, #[]⟩ := by
  have none : tokens.find? (·.kind == .eof) = none :=
    List.find?_eq_none.mpr fun token member => by simpa using only token member
  have endLine : (start (tokens ++ [last]) first).endLine = last.line := by
    simp [start, List.find?_append, none, ends]
  rw [← endLine]
  exact congrArg (State.mk · _ first #[]) (start_rest first only ends)

end Parse.State

namespace Grammar

/-- The tokens of a program are all there is to it, so it is parsed in one way only. -/
theorem Program.unique (one : Program first tokens program next)
    (other : Program first tokens program' next') : program = program' ∧ next = next' := by
  have same := (Parse.program_accepts one 0 #[]).symm.trans (Parse.program_accepts other 0 #[])
  cases same
  exact ⟨rfl, rfl⟩

end Grammar

namespace Parsed

variable {tokens : List Token} {last : Token}

theorem of_program (only : ∀ token ∈ tokens, token.kind ≠ .eof) (ends : last.kind = .eof)
    (form : Program first tokens body next) :
    ofTokens (tokens ++ [last]) first = ⟨.ok body, next⟩ := by
  unfold ofTokens
  rw [Parse.State.start_eq first only ends, Parse.program_accepts form]
  rfl

/-- Parsing gives a program of the grammar or else errors. -/
theorem program_or_errors (first : NodeId) (only : ∀ token ∈ tokens, token.kind ≠ .eof) (ends : last.kind = .eof) :
    (∃ body next, ofTokens (tokens ++ [last]) first = ⟨.ok body, next⟩ ∧
      Program first tokens body next) ∨
    ∃ error errors, (ofTokens (tokens ++ [last]) first).program = .error (error :: errors) := by
  unfold ofTokens
  split
  · rename_i body state ran
    split
    · rename_i clean
      obtain ⟨_, form⟩ := Parse.program_sound ran (Array.isEmpty_iff.mp clean)
      rw [Parse.State.start_rest first only ends] at form
      exact .inl ⟨_, _, rfl, form⟩
    · rename_i failed
      refine .inr ?_
      cases found : state.errors.toList with
      | nil => simp_all
      | cons error errors => exact ⟨error, errors, rfl⟩
  · rename_i error state ran
    refine .inr ?_
    cases found : (state.errors.push error).toList with
    | nil => simp at found
    | cons error errors => exact ⟨error, errors, rfl⟩

end Parsed

end Lox
