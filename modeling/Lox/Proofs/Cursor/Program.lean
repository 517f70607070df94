import Lox.Proofs.Cursor.Statements
import Lox.Proofs.Grammar.Program

/-! Parsing a buffer that ends in its only end mark. The parser over the buffer comes to an end, with the
result of the other one, never looks outside the buffer and never goes back in it. -/

namespace Lox

variable {tokens : List Token} {last : Token}

namespace Cursor

theorem start_mirrors (first : NodeId) (only : ∀ token ∈ tokens, token.kind ≠ .eof)
    (ends : last.kind = .eof) :
    Mirrors tokens last (.start first) (.start (tokens ++ [last]) first) where
  rest := by rw [Parse.State.start_rest first only ends]; rfl
  real := by rwa [Parse.State.start_rest first only ends]
  ends := ends
  endLine := by rw [Parse.State.start_eq first only ends]
  nextId := rfl
  errors := rfl
  ordered := .nil
  behind := nofun
  progress := nofun

theorem Mirrors.unique {cursor : State} {state other : Parse.State}
    (mirrors : Mirrors tokens last cursor state) (mirrors' : Mirrors tokens last cursor other) :
    state = other := by
  obtain ⟨rest, endLine, nextId, errors⟩ := state
  obtain ⟨rest', endLine', nextId', errors'⟩ := other
  obtain rfl : rest = rest' := List.append_cancel_right (mirrors.rest.symm.trans mirrors'.rest)
  obtain rfl : endLine = endLine' := mirrors.endLine.trans mirrors'.endLine.symm
  obtain rfl : nextId = nextId' := mirrors.nextId.symm.trans mirrors'.nextId
  obtain rfl : errors = errors' := mirrors.errors.symm.trans mirrors'.errors
  rfl

theorem Reaches.unique {parse : Cursor α} {start : State}
    {result result' : EStateM.Result SyntaxError Parse.State α}
    (reaches : Reaches tokens last parse start result)
    (reaches' : Reaches tokens last parse start result') : result = result' := by
  unfold Reaches at reaches reaches'
  generalize parse (tokens ++ [last]) start = outcome at reaches reaches'
  cases reaches <;> cases reaches' <;> exact congrArg _ (Mirrors.unique ‹_› ‹_›)

/-- More depth and a greater bound than there are tokens make no difference. -/
theorem declarationsWhile_eq_program {state : Parse.State} (only : ∀ token ∈ state.rest, token.kind ≠ .eof)
    (deep : state.rest.length < depth) (bounded : state.rest.length ≤ bound) :
    Parse.declarationsWhile (not <$> Parse.atEnd) (Parse.declarationWithin depth) bound state =
      Parse.program state := by
  have mirrors : Mirrors state.rest (.eof state.endLine)
      { State.start state.nextId with errors := state.errors } state :=
    ⟨rfl, only, rfl, rfl, rfl, rfl, .nil, nofun, nofun⟩
  exact (program_reaches mirrors deep bounded (Nat.le_refl _)).unique
    (program_reaches mirrors (Nat.lt_succ_self _) (Nat.le_refl _) (Nat.le_refl _))

/-- With fuel in proportion to the tokens, parsing a buffer gives what parsing the tokens gives. The
places looked at are in the buffer and in their order, every declaration that starts before the end
passes over a token, and there are no more errors than tokens before the end mark. -/
theorem parse_ends (tokens : List Token) (last : Token) (first : NodeId) (fuel : Nat)
    (only : ∀ token ∈ tokens, token.kind ≠ .eof) (ends : last.kind = .eof)
    (enough : 20 * (tokens.length + 1) ≤ fuel) :
    ∃ final,
      parse fuel (tokens ++ [last]) first =
        some (Parsed.ofTokens (tokens ++ [last]) first, final) ∧
      final.current ≤ tokens.length ∧
      (∀ look ∈ final.looks, look ≤ final.current) ∧ final.looks.Pairwise (· ≥ ·) ∧
      (∀ span ∈ final.declarations, span.start < tokens.length → span.start < span.stop) ∧
      ∀ errors, (Parsed.ofTokens (tokens ++ [last]) first).program = .error errors →
        errors.length ≤ tokens.length := by
  have rest := Parse.State.start_rest first only ends
  obtain ⟨body, after, ran, _⟩ := Parse.program_settles (.start (tokens ++ [last]) first)
  have same : Reaches tokens last (program fuel) (.start first) (.ok body after) := by
    rw [← ran]
    refine program_reaches (start_mirrors first only ends) (Nat.lt_succ_self _) (Nat.le_refl _) ?_
    rw [rest]
    omega
  obtain ⟨final, run, mirrors, _⟩ := same.runs
  have length := mirrors.length
  have parsed : parse fuel (tokens ++ [last]) first =
      some (Parsed.ofTokens (tokens ++ [last]) first, final) := by
    simp only [Parsed.ofTokens, ran, ← mirrors.errors, ← mirrors.nextId]
    rw [parse, run]
    rfl
  refine ⟨final, parsed, by omega, mirrors.behind, mirrors.ordered, mirrors.progress, ?_⟩
  intro errors failed
  have few := Parsed.errors_length_le (tokens ++ [last]) first failed
  change errors.length ≤ (Parse.State.start (tokens ++ [last]) first).rest.length at few
  rwa [rest] at few

private def word (terminal : Terminal) : Token := ⟨.terminal terminal, terminal.spelling, 1⟩

/-- A block, a class and a method that are never closed, around declarations that fail. -/
private def unclosed : List Token :=
  [word .leftBrace, word .kwClass, ⟨.identifier, "A", 1⟩, word .leftBrace, ⟨.identifier, "m", 1⟩,
    word .leftParen, word .rightParen, word .leftBrace, word .kwVar, word .kwVar, word .equal,
    word .semicolon, word .rightParen, word .semicolon, word .kwPrint]

theorem unclosed_ends :
    (∀ token ∈ unclosed, token.kind ≠ .eof) ∧ (Token.eof 1).kind = .eof ∧
      20 * (unclosed.length + 1) ≤ 320 ∧
      ∃ final,
        parse 320 (unclosed ++ [.eof 1]) 0 =
          some (Parsed.ofTokens (unclosed ++ [.eof 1]) 0, final) ∧
        final.current ≤ unclosed.length ∧
        (∀ look ∈ final.looks, look ≤ final.current) ∧ final.looks.Pairwise (· ≥ ·) ∧
        (∀ span ∈ final.declarations, span.start < unclosed.length → span.start < span.stop) ∧
        ∀ errors, (Parsed.ofTokens (unclosed ++ [.eof 1]) 0).program = .error errors →
          errors.length ≤ unclosed.length := by
  have only : ∀ token ∈ unclosed, token.kind ≠ .eof := by decide
  exact ⟨only, rfl, by decide, parse_ends unclosed (.eof 1) 0 320 only rfl (by decide)⟩

end Cursor

end Lox
