import Lox.Proofs.Parse.Later
import Lox.Proofs.Parse.Steps

/-!
Tokens up to a semicolon. Within them an expression neither passes the semicolon nor looks past it, so
that it is parsed in the same way whatever comes after the semicolon.
-/

namespace Lox

/-- The words at which a statement begins, judging by its keyword. -/
def statementWords : List Terminal :=
  [.kwClass, .kwFun, .kwVar, .kwFor, .kwIf, .kwWhile, .kwPrint, .kwReturn]

/-- A token that stands for no boundary between statements. -/
structure Token.Inner (token : Token) : Prop where
  real : token.kind ≠ .eof
  semicolon : token.kind ≠ .terminal .semicolon
  leftBrace : token.kind ≠ .terminal .leftBrace
  rightBrace : token.kind ≠ .terminal .rightBrace
  word : ∀ word ∈ statementWords, token.kind ≠ .terminal word

/-- Tokens of which the last one is the only boundary, and is a semicolon. -/
inductive Sealed : List Token → Prop where
  | semicolon (kind : token.kind = .terminal .semicolon) : Sealed [token]
  | inner (inner : token.Inner) (others : Sealed rest) : Sealed (token :: rest)

namespace Sealed

theorem head (enclosed : Sealed tokens) : ∃ token rest, tokens = token :: rest := by
  cases enclosed <;> exact ⟨_, _, rfl⟩

theorem more (enclosed : Sealed tokens) : tokens ≠ [] := by
  cases enclosed <;> simp

theorem length_tail (enclosed : Sealed tokens) : tokens.tail.length + 1 = tokens.length := by
  cases enclosed <;> simp

/-- Past a token that is not the semicolon there is still the semicolon. -/
theorem tail (enclosed : Sealed (token :: rest)) (other : token.kind ≠ .terminal .semicolon) :
    Sealed rest := by
  cases enclosed with
  | semicolon kind => exact absurd kind other
  | inner _ others => exact others

end Sealed

namespace Parse

variable {α β : Type} {outer : List Token} {earlier : List SyntaxError} {state other : State}

/-- The same state with more tokens to come and with earlier errors on record. -/
structure Within (outer : List Token) (earlier : List SyntaxError) (state other : State) : Prop where
  rest : other.rest = state.rest ++ outer
  nextId : other.nextId = state.nextId
  errors : other.errors.toList = earlier ++ state.errors.toList

/-- Both parsers end alike, before or after the semicolon as `ended` says if they succeed, and before it
if they fail. -/
inductive Agree (outer : List Token) (earlier : List SyntaxError) (ended : List Token → Prop)
    (state : State) :
    EStateM.Result SyntaxError State α → EStateM.Result SyntaxError State α → Prop where
  | ok (within : Within outer earlier after after') (tokens : ended after.rest)
      (shorter : after.rest.length ≤ state.rest.length) :
      Agree outer earlier ended state (.ok value after) (.ok value after')
  | error (within : Within outer earlier after after') (tokens : Sealed after.rest) :
      Agree outer earlier ended state (.error error after) (.error error after')

/-- Parsers that agree from two states. -/
def Agrees (outer : List Token) (earlier : List SyntaxError) (ended : List Token → Prop)
    (parse parse' : Parse α) (state other : State) : Prop :=
  Agree outer earlier ended state (parse state) (parse' other)

/-- The next token is the semicolon or no boundary at all. -/
theorem peek_sealed (enclosed : Sealed state.rest) :
    state.peek.kind = .terminal .semicolon ∨ state.peek.Inner := by
  unfold State.peek
  generalize state.rest = tokens at enclosed
  cases enclosed with
  | semicolon kind => exact .inl kind
  | inner inner _ => exact .inr inner

/-- The next token is neither a brace nor a word at which a statement begins. -/
theorem peek_ne (enclosed : Sealed state.rest)
    (boundary : word ∈ .leftBrace :: .rightBrace :: statementWords) :
    state.peek.kind ≠ .terminal word := by
  rcases peek_sealed enclosed with semicolon | inner
  · rw [semicolon]
    rintro ⟨⟩
    simp [statementWords] at boundary
  · rcases List.mem_cons.mp boundary with rfl | boundary
    · exact inner.leftBrace
    · rcases List.mem_cons.mp boundary with rfl | boundary
      · exact inner.rightBrace
      · exact inner.word word boundary

namespace Within

theorem peek (within : Within outer earlier state other) (more : state.rest ≠ []) :
    other.peek = state.peek := by
  obtain ⟨token, rest, next⟩ := List.exists_cons_of_ne_nil more
  unfold State.peek
  rw [within.rest, next]
  rfl

theorem skip (within : Within outer earlier state other) (more : state.rest ≠ []) :
    Within outer earlier { state with rest := state.rest.tail }
      { other with rest := other.rest.tail } := by
  obtain ⟨token, rest, next⟩ := List.exists_cons_of_ne_nil more
  refine { within with rest := ?_ }
  simp only [within.rest, next, List.cons_append, List.tail_cons]

theorem report (within : Within outer earlier state other) (error : SyntaxError) :
    Within outer earlier { state with errors := state.errors.push error }
      { other with errors := other.errors.push error } := by
  refine { within with errors := ?_ }
  simp only [Array.toList_push, within.errors, List.append_assoc]

theorem draw (within : Within outer earlier state other) :
    Within outer earlier { state with nextId := state.nextId + 1 }
      { other with nextId := other.nextId + 1 } :=
  { within with nextId := congrArg (· + 1) within.nextId }

end Within

namespace Agree

variable {ended last : List Token → Prop}

theorem pure (within : Within outer earlier state other) (tokens : ended state.rest) (value : α) :
    Agree outer earlier ended state ((Pure.pure value : Parse α) state)
      ((Pure.pure value : Parse α) other) :=
  .ok within tokens (Nat.le_refl _)

theorem since {result result' : EStateM.Result SyntaxError State α} {before : State}
    (agree : Agree outer earlier ended state result result')
    (shorter : state.rest.length ≤ before.rest.length) :
    Agree outer earlier ended before result result' := by
  cases agree with
  | ok within tokens further => exact .ok within tokens (Nat.le_trans further shorter)
  | error within tokens => exact .error within tokens

theorem bind {parse parse' : Parse α} {later later' : α → Parse β}
    (first : Agree outer earlier ended state (parse state) (parse' other))
    (rest : ∀ {value after after'}, parse state = .ok value after →
      Within outer earlier after after' → ended after.rest →
      after.rest.length ≤ state.rest.length →
      Agree outer earlier last after (later value after) (later' value after')) :
    Agree outer earlier last state ((parse >>= later) state) ((parse' >>= later') other) := by
  generalize ran : parse state = result at first
  generalize ran' : parse' other = result' at first
  cases first with
  | ok within tokens shorter =>
    rw [bind_ok ran, bind_ok ran']
    exact (rest ran within tokens shorter).since shorter
  | error within tokens =>
    rw [bind_error ran, bind_error ran']
    exact .error within tokens

theorem discard {parse parse' : Parse α}
    (agree : Agree outer earlier ended state (parse state) (parse' other)) :
    Agree outer earlier ended state (Functor.discard parse state) (Functor.discard parse' other) :=
  agree.bind fun _ within tokens _ => pure within tokens _

theorem map {parse parse' : Parse α}
    (agree : Agree outer earlier ended state (parse state) (parse' other)) (build : α → β) :
    Agree outer earlier ended state ((build <$> parse) state) ((build <$> parse') other) :=
  agree.bind fun _ within tokens _ => pure within tokens _

end Agree

section Steps

variable {ended : List Token → Prop} (within : Within outer earlier state other)

include within

theorem report_agree (tokens : ended state.rest) (error : SyntaxError) :
    Agree outer earlier ended state (report error state) (report error other) :=
  .ok (within.report error) tokens (Nat.le_refl _)

theorem freshId_agree (tokens : ended state.rest) :
    Agree outer earlier ended state (freshId state) (freshId other) := by
  unfold freshId
  rw [within.nextId]
  have drawn := within.draw
  rw [within.nextId] at drawn
  exact .ok drawn tokens (Nat.le_refl _)

variable (enclosed : Sealed state.rest)

include enclosed

theorem fail_agree (fault : SyntaxFault) :
    Agree outer earlier ended state ((fail fault : Parse α) state) (fail fault other) := by
  unfold fail
  rw [within.peek enclosed.more]
  exact .error within enclosed

theorem check_agree (word : Terminal) :
    Agree outer earlier Sealed state (check word state) (check word other) := by
  unfold check
  rw [within.peek enclosed.more]
  exact .ok within enclosed (Nat.le_refl _)

theorem skip_agree (kind : state.peek.kind ≠ .terminal .semicolon) :
    Agree outer earlier Sealed state (skip state) (skip other) := by
  obtain ⟨token, rest, next⟩ := enclosed.head
  refine .ok (within.skip enclosed.more) ?_ (by simp)
  simp only [State.peek, next, List.headD_cons] at kind
  rw [next] at enclosed ⊢
  exact enclosed.tail kind

theorem take_agree {word : Terminal} (inner : word ≠ .semicolon) :
    Agree outer earlier Sealed state (take word state) (take word other) := by
  refine (check_agree within enclosed word).bind fun {found _ _} checked within enclosed _ => ?_
  cases checked
  split
  · rename_i found
    have kind : state.peek.kind ≠ .terminal .semicolon := by
      rw [eq_of_beq found]
      simpa using inner
    exact (skip_agree within enclosed kind).bind fun _ within enclosed _ => .pure within enclosed _
  · exact .pure within enclosed _

theorem expect_agree {expectation : Expectation}
    (inner : expectation.wanted ≠ .terminal .semicolon) :
    Agree outer earlier Sealed state (expect expectation state) (expect expectation other) := by
  unfold expect
  rw [peek_bind, peek_bind, within.peek enclosed.more]
  by_cases met : state.peek.kind = expectation.wanted
  · rw [if_pos met]
    exact (skip_agree within enclosed (met ▸ inner)).bind fun _ within enclosed _ =>
      .pure within enclosed _
  · rw [if_neg met]
    exact fail_agree within enclosed _

theorem expectName_agree {expectation : Expectation}
    (inner : expectation.wanted ≠ .terminal .semicolon) :
    Agree outer earlier Sealed state (expectName expectation state) (expectName expectation other) :=
  (expect_agree within enclosed inner).bind fun _ within enclosed _ => .pure within enclosed _

/-- Nothing is left before what comes after the semicolon. -/
theorem semicolon_agree {expectation : Expectation}
    (semicolon : expectation.wanted = .terminal .semicolon) :
    Agree outer earlier (· = []) state (expect expectation state) (expect expectation other) := by
  unfold expect
  rw [peek_bind, peek_bind, within.peek enclosed.more, semicolon]
  by_cases met : state.peek.kind = .terminal .semicolon
  · rw [if_pos met]
    obtain ⟨rest, endLine, nextId, errors⟩ := state
    cases enclosed with
    | semicolon kind => exact .ok (within.skip (List.cons_ne_nil _ _)) rfl (Nat.zero_le _)
    | inner inner _ => exact absurd met inner.semicolon
  · rw [if_neg met]
    exact fail_agree within enclosed _

/-- There is no brace to be met. -/
theorem brace_agree {expectation : Expectation} {later later' : Unit → Parse α}
    (brace : expectation.wanted = .terminal .leftBrace) :
    Agree outer earlier ended state ((discard (expect expectation) >>= later) state)
      ((discard (expect expectation) >>= later') other) := by
  have missed : state.peek.kind ≠ expectation.wanted := by
    rw [brace]
    exact peek_ne enclosed (by simp)
  have missed' : other.peek.kind ≠ expectation.wanted := by rwa [within.peek enclosed.more]
  rw [bind_error (discard_expect_other missed), bind_error (discard_expect_other missed'),
    within.peek enclosed.more]
  exact .error within enclosed

theorem takeOperator?_agree {operator? : Kind → Option α}
    (inner : operator? (.terminal .semicolon) = none) :
    Agree outer earlier Sealed state (takeOperator? operator? state)
      (takeOperator? operator? other) := by
  unfold takeOperator?
  rw [peek_bind, peek_bind, within.peek enclosed.more]
  cases found : operator? state.peek.kind with
  | none => exact .pure within enclosed _
  | some op =>
    have kind : state.peek.kind ≠ .terminal .semicolon := fun kind => by simp [kind, inner] at found
    exact (skip_agree within enclosed kind).bind fun _ within enclosed _ => .pure within enclosed _

end Steps

end Parse

end Lox
