import Mathlib
import Lox.Proofs.Grammar.Program

/-! The parser and the grammar agree. A token list is parsed without errors exactly if its tokens
before the end mark are a program of the grammar, and the tree is that of the program. -/

namespace Lox

open Grammar

namespace Parsed

/-- Parsing succeeds with a program exactly if the tokens derive it, and gives errors if they derive
none. -/
theorem ofTokens_eq_ok_iff (tokens : List Token) (last : Token) (first : NodeId)
    (only : ∀ token ∈ tokens, token.kind ≠ .eof) (ends : last.kind = .eof) :
    (∀ body next, ofTokens (tokens ++ [last]) first = ⟨.ok body, next⟩ ↔
      Program first tokens body next) ∧
    ((¬ ∃ body next, Program first tokens body next) → ∃ error errors,
      (ofTokens (tokens ++ [last]) first).program = .error (error :: errors)) := by
  rcases program_or_errors first only ends with ⟨body, next, parsed, form⟩ | failed
  · refine ⟨fun other last => ⟨fun same => ?_, of_program only ends⟩, fun none => ?_⟩
    · cases parsed.symm.trans same
      exact form
    · exact absurd ⟨body, next, form⟩ none
  · refine ⟨fun other last => ⟨fun same => ?_, of_program only ends⟩, fun _ => failed⟩
    obtain ⟨error, errors, failed⟩ := failed
    rw [same] at failed
    cases failed

private def word (terminal : Terminal) : Token := ⟨.terminal terminal, terminal.spelling, 1⟩

private def name (text : String) : Token := ⟨.identifier, text, 1⟩

/-- Two `if` statements of which the nearest takes the `else`, around an assignment to a property. -/
private def danglingElse : List Token :=
  [word .kwIf, word .leftParen, name "a", word .rightParen, word .kwIf, word .leftParen, name "b",
    word .rightParen, name "c", word .semicolon, word .kwElse, name "d", word .dot, name "e",
    word .equal, name "f", word .equal, name "g", word .semicolon]

theorem danglingElse_program :
    (∀ token ∈ danglingElse, token.kind ≠ .eof) ∧ (Token.eof 1).kind = .eof ∧
      Program 0 danglingElse
        [.ifThen (.read 0 ⟨"a", 1⟩) (.ifElse (.read 1 ⟨"b", 1⟩) (.expression (.read 2 ⟨"c", 1⟩))
          (.expression (.set (.read 3 ⟨"d", 1⟩) ⟨"e", 1⟩
            (.assign 6 ⟨"f", 1⟩ (.read 5 ⟨"g", 1⟩)))))] 7 := by
  have only : ∀ token ∈ danglingElse, token.kind ≠ .eof := by decide
  exact ⟨only, rfl, ((ofTokens_eq_ok_iff danglingElse (.eof 1) 0 only rfl).1 _ _).mp (by cbv)⟩

end Parsed

end Lox
