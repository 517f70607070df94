import Lox.Proofs.Steps
import Lox.Tree.Parse.Statement

/-! The steps of parsing, each read as an equation of what it gives before a known token. -/

namespace Lox.Parse

variable {state : State} {word : Terminal} {expectation : Expectation}

theorem wanted_ne_eof (expectation : Expectation) : expectation.wanted ≠ .eof := by
  cases expectation <;> simp [Expectation.wanted]

/-- The end of the source is no token to come. -/
theorem State.next_token (same : state.peek.kind = kind) (real : kind ≠ .eof) :
    ∃ token rest, state.rest = token :: rest ∧ token.kind = kind ∧ state.peek = token := by
  unfold peek at *
  cases next : state.rest with
  | nil =>
    rw [next] at same
    exact absurd same.symm real
  | cons token rest =>
    rw [next] at same
    exact ⟨token, rest, rfl, same, rfl⟩

theorem check_same (same : state.peek.kind = .terminal word) : check word state = .ok true state := by
  unfold check
  rw [same, BEq.rfl]

theorem check_other (other : state.peek.kind ≠ .terminal word) :
    check word state = .ok false state := by
  unfold check
  rw [beq_false_of_ne other]

theorem peek_bind (later : Token → Parse α) : (peek >>= later) state = later state.peek state :=
  rfl

theorem skip_bind (later : Unit → Parse α) :
    (skip >>= later) state = later () { state with rest := state.rest.tail } :=
  rfl

theorem take_same (same : state.peek.kind = .terminal word) :
    take word state = .ok true { state with rest := state.rest.tail } :=
  bind_ok (check_same same)

theorem take_other (other : state.peek.kind ≠ .terminal word) : take word state = .ok false state :=
  bind_ok (check_other other)

theorem take_still (taken : take word state = .ok false after) : after = state := by
  by_cases same : state.peek.kind = .terminal word
  · rw [take_same same] at taken
    cases taken
  · rw [take_other same] at taken
    cases taken
    rfl

theorem take_shorter (taken : take word state = .ok true after) :
    after.rest.length + 1 = state.rest.length ∧ after.errors = state.errors := by
  by_cases same : state.peek.kind = .terminal word
  · obtain ⟨token, rest, next, _, _⟩ := State.next_token same (by simp)
    rw [take_same same, next] at taken
    cases taken
    simp [next]
  · rw [take_other same] at taken
    cases taken

theorem takeOperator?_some {operator? : Kind → Option α} (found : operator? state.peek.kind = some op) :
    takeOperator? operator? state =
      .ok (some (op, state.peek.line)) { state with rest := state.rest.tail } := by
  unfold takeOperator?
  rw [peek_bind, found]
  rfl

theorem takeOperator?_none {operator? : Kind → Option α} (absent : operator? state.peek.kind = none) :
    takeOperator? operator? state = .ok none state := by
  unfold takeOperator?
  rw [peek_bind, absent]
  rfl

theorem takeOperator?_shorter {operator? : Kind → Option α} (real : operator? .eof = none)
    (taken : takeOperator? operator? state = .ok (some operator) after) :
    after.rest.length + 1 = state.rest.length := by
  cases found : operator? state.peek.kind with
  | none =>
    rw [takeOperator?_none found] at taken
    cases taken
  | some op =>
    have more : state.peek.kind ≠ .eof := fun kind => by simp [kind, real] at found
    obtain ⟨token, rest, next, _, _⟩ := State.next_token rfl more
    rw [takeOperator?_some found, next] at taken
    cases taken
    simp [next]

theorem expect_same (same : state.peek.kind = expectation.wanted) :
    expect expectation state = .ok state.peek { state with rest := state.rest.tail } := by
  change (if _ then _ else _ : Parse Token) state = _
  rw [if_pos same]
  rfl

theorem expect_other (other : state.peek.kind ≠ expectation.wanted) :
    expect expectation state = .error ⟨.missing expectation, state.peek⟩ state := by
  change (if _ then _ else _ : Parse Token) state = _
  rw [if_neg other]
  rfl

theorem expect_shorter (met : expect expectation state = .ok token after) :
    after.rest.length + 1 = state.rest.length ∧ after.errors = state.errors := by
  by_cases same : state.peek.kind = expectation.wanted
  · obtain ⟨token, rest, next, _, _⟩ := State.next_token same (wanted_ne_eof expectation)
    rw [expect_same same, next] at met
    cases met
    simp [next]
  · rw [expect_other same] at met
    cases met

theorem discard_expect_other (other : state.peek.kind ≠ expectation.wanted) :
    discard (expect expectation) state = .error ⟨.missing expectation, state.peek⟩ state := by
  change (expect expectation >>= fun _ => pure ()) state = _
  exact bind_error (expect_other other)

theorem discard_expect_shorter (met : discard (expect expectation) state = .ok () after) :
    after.rest.length + 1 = state.rest.length ∧ after.errors = state.errors := by
  change (expect expectation >>= fun _ => pure ()) state = _ at met
  obtain ⟨token, middle, met, same⟩ := bind_eq_ok met
  cases same
  exact expect_shorter met

theorem expectName_shorter (met : expectName expectation state = .ok name after) :
    after.rest.length + 1 = state.rest.length ∧ after.errors = state.errors := by
  obtain ⟨token, middle, met, same⟩ := bind_eq_ok met
  cases same
  exact expect_shorter met

variable {expression : Parse Expr}

/-- A unary operator stands before an operand of its own. -/
theorem unary_some (next : state.rest = token :: rest) (found : UnaryOp.ofKind? token.kind = some op) :
    unary expression state =
      (unary expression >>= fun operand => return .unary op token.line operand) { state with rest } := by
  have operators : unaryOperators state =
      .ok ((op, token.line) :: (leadingUnary rest).1) { state with rest := (leadingUnary rest).2 } := by
    simp only [unaryOperators, next, leadingUnary, found]
  have others : unaryOperators { state with rest } =
      .ok (leadingUnary rest).1 { state with rest := (leadingUnary rest).2 } := rfl
  unfold unary
  rw [bind_ok operators, bind_assoc, bind_ok others]
  simp only [bind_assoc, pure_bind, List.foldr_cons]

theorem unary_none (absent : UnaryOp.ofKind? state.peek.kind = none) :
    unary expression state = call expression state := by
  have operators : unaryOperators state = .ok [] state := by
    obtain ⟨rest, endLine, nextId, errors⟩ := state
    cases rest with
    | nil => rfl
    | cons token rest =>
      have absent : UnaryOp.ofKind? token.kind = none := absent
      simp only [unaryOperators, leadingUnary, absent]
  unfold unary
  rw [bind_ok operators]
  simp only [List.foldr_nil, bind_pure]

end Lox.Parse
