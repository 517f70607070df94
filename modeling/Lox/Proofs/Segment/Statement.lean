import Lox.Proofs.Segment.Expression

/-! Declarations up to a semicolon. One that succeeds ends right after the semicolon, and after one that
fails parsing goes on there. -/

namespace Lox

namespace Parse

variable {α : Type} {outer : List Token} {earlier : List SyntaxError} {state other : State}

section Simple

variable (within : Within outer earlier state other) (enclosed : Sealed state.rest)

include within enclosed

theorem closing_agree {expectation : Expectation} {value : α}
    (semicolon : expectation.wanted = .terminal .semicolon) :
    Agree outer earlier (· = []) state
      ((discard (expect expectation) >>= fun _ => pure value) state)
      ((discard (expect expectation) >>= fun _ => pure value) other) :=
  (semicolon_agree within enclosed semicolon).discard.bind fun _ within tokens _ =>
    .pure within tokens _

/-- An expression that is there or not, before what comes after it. -/
theorem optional_agree {later : Option Expr → Parse α}
    (rest : ∀ value {state other}, Within outer earlier state other → Sealed state.rest →
      Agree outer earlier (· = []) state (later value state) (later value other))
    (present : Bool) :
    Agree outer earlier (· = []) state
      ((if present then some <$> expression >>= later else pure none >>= later) state)
      ((if present then some <$> expression >>= later else pure none >>= later) other) := by
  cases present with
  | true =>
    exact ((expression_agree within enclosed).map some).bind fun _ within enclosed _ =>
      rest _ within enclosed
  | false => exact rest _ within enclosed

theorem missing_agree {later : Option Expr → Parse α}
    (rest : ∀ value {state other}, Within outer earlier state other → Sealed state.rest →
      Agree outer earlier (· = []) state (later value state) (later value other))
    (absent : Bool) :
    Agree outer earlier (· = []) state
      ((if absent then pure none >>= later else some <$> expression >>= later) state)
      ((if absent then pure none >>= later else some <$> expression >>= later) other) := by
  cases absent with
  | true => exact optional_agree within enclosed rest false
  | false => exact optional_agree within enclosed rest true

theorem expressionStatement_agree :
    Agree outer earlier (· = []) state (expressionStatement state) (expressionStatement other) :=
  (expression_agree within enclosed).bind fun _ within enclosed _ => closing_agree within enclosed rfl

theorem printStatement_agree :
    Agree outer earlier (· = []) state (printStatement state) (printStatement other) :=
  (expression_agree within enclosed).bind fun _ within enclosed _ => closing_agree within enclosed rfl

theorem varDeclaration_agree :
    Agree outer earlier (· = []) state (varDeclaration state) (varDeclaration other) := by
  refine (expectName_agree within enclosed (by simp [Expectation.wanted])).bind
    fun _ within enclosed _ => ?_
  refine (take_agree within enclosed (by simp)).bind fun _ within enclosed _ => ?_
  refine optional_agree within enclosed (fun _ _ _ within enclosed => ?_) _
  exact closing_agree within enclosed rfl

theorem returnStatement_agree (line : Nat) :
    Agree outer earlier (· = []) state (returnStatement line state) (returnStatement line other) := by
  refine (check_agree within enclosed .semicolon).bind fun _ within enclosed _ => ?_
  refine missing_agree within enclosed (fun _ _ _ within enclosed => ?_) _
  exact closing_agree within enclosed rfl

theorem superclass?_agree :
    Agree outer earlier Sealed state (superclass? state) (superclass? other) := by
  refine (take_agree within enclosed (by simp)).bind fun {extended _ _} _ within enclosed _ => ?_
  cases extended with
  | true =>
    refine (expectName_agree within enclosed (by simp [Expectation.wanted])).bind
      fun _ within enclosed _ => ?_
    exact (freshId_agree within enclosed).bind fun _ within tokens _ => .pure within tokens _
  | false => exact .pure within enclosed _

/-- No body is there for a class to have. -/
theorem classDeclaration_agree (declaration declaration' : Parse (Option Stmt)) :
    Agree outer earlier (· = []) state (classDeclaration declaration state)
      (classDeclaration declaration' other) := by
  refine (expectName_agree within enclosed (by simp [Expectation.wanted])).bind
    fun _ within enclosed _ => ?_
  refine (superclass?_agree within enclosed).bind fun _ within enclosed _ => ?_
  exact brace_agree within enclosed rfl

theorem routine_agree (kind : RoutineKind) (declaration declaration' : Parse (Option Stmt)) :
    Agree outer earlier (· = []) state (routine kind declaration state)
      (routine kind declaration' other) := by
  refine (expectName_agree within enclosed (by simp [Expectation.wanted])).bind
    fun _ within enclosed _ => ?_
  refine (expect_agree within enclosed (by simp [Expectation.wanted])).discard.bind
    fun _ within enclosed _ => ?_
  refine (listed_agree _ (fun within enclosed _ => expectName_agree within enclosed
    (by simp [Expectation.wanted])) within enclosed (Nat.le_refl _)).bind fun _ within enclosed _ => ?_
  refine (expect_agree within enclosed (by simp [Expectation.wanted])).discard.bind
    fun _ within enclosed _ => ?_
  exact brace_agree within enclosed rfl

/-- No word is there for another statement to begin with. -/
theorem statementAround_agree (statement statement' : Parse Stmt)
    (declaration declaration' : Parse (Option Stmt)) :
    Agree outer earlier (· = []) state (statementAround statement declaration state)
      (statementAround statement' declaration' other) := by
  have absent {word : Terminal} (boundary : word ∈ .leftBrace :: .rightBrace :: statementWords) :=
    peek_ne enclosed boundary
  unfold statementAround
  rw [peek_bind, peek_bind, within.peek enclosed.more]
  change Agrees outer earlier (· = []) _ _ state other
  split
  case h_7 => exact expressionStatement_agree within enclosed
  all_goals
    rename_i kind
    exact absurd kind (absent (by decide))

end Simple

/-- Statements that are parsed alike up to a semicolon. -/
def Nests (outer : List Token) (earlier : List SyntaxError) (statement statement' : Parse Stmt) : Prop :=
  ∀ {state other}, Within outer earlier state other → Sealed state.rest →
    Agree outer earlier (· = []) state (statement state) (statement' other)

section Nested

variable {statement statement' : Parse Stmt} (nested : Nests outer earlier statement statement')
  (within : Within outer earlier state other) (enclosed : Sealed state.rest)

include nested within enclosed

theorem whileStatement_agree :
    Agree outer earlier (· = []) state (whileStatement statement state)
      (whileStatement statement' other) := by
  refine (expect_agree within enclosed (by simp [Expectation.wanted])).discard.bind
    fun _ within enclosed _ => ?_
  refine (expression_agree within enclosed).bind fun _ within enclosed _ => ?_
  refine (expect_agree within enclosed (by simp [Expectation.wanted])).discard.bind
    fun _ within enclosed _ => ?_
  exact (nested within enclosed).bind fun _ within tokens _ => .pure within tokens _

/-- The other branch, if there is none up to the semicolon, does not come after it. -/
theorem ifStatement_agree (next : ∀ token ∈ outer.head?, token.kind ≠ .terminal .kwElse) :
    Agree outer earlier (· = []) state (ifStatement statement state)
      (ifStatement statement' other) := by
  refine (expect_agree within enclosed (by simp [Expectation.wanted])).discard.bind
    fun _ within enclosed _ => ?_
  refine (expression_agree within enclosed).bind fun _ within enclosed _ => ?_
  refine (expect_agree within enclosed (by simp [Expectation.wanted])).discard.bind
    fun _ within enclosed _ => ?_
  refine (nested within enclosed).bind fun {_ after after'} _ within tokens _ => ?_
  have absent : after.peek.kind ≠ .terminal .kwElse := by
    unfold State.peek
    rw [tokens]
    simp [Token.eof]
  have absent' : after'.peek.kind ≠ .terminal .kwElse := by
    unfold State.peek
    rw [within.rest, tokens, List.nil_append]
    cases outer with
    | nil => simp [Token.eof]
    | cons token outer => exact next token rfl
  rw [bind_ok (take_other absent), bind_ok (take_other absent')]
  exact .pure within tokens _

end Nested

end Parse

end Lox
