import Lox.Proofs.Grammar.Basic
import Lox.Proofs.Steps
import Lox.Tree.Parse.Basic

/-! Parsers that accept a form: on the tokens of the form they succeed with its tree, pass over just
these tokens and record no error. A parser that resumes another one does so up to the point where
the other takes over, which is how a loop is cut between two rounds. -/

namespace Lox.Parse

open Grammar

def Resumes (parse : Parse α) (first : NodeId) (input : List Token) (others : Parse α)
    (next : NodeId) (rest : List Token) : Prop :=
  ∀ endLine errors,
    parse ⟨input, endLine, first, errors⟩ = others ⟨rest, endLine, next, errors⟩

def Accepts (parse : Parse α) : Form α := fun first input tree next rest =>
  Resumes parse first input (pure tree) next rest

theorem Resumes.trans {parse others third : Parse α}
    (before : Resumes parse first input others middle later)
    (after : Resumes others middle later third next rest) :
    Resumes parse first input third next rest :=
  fun endLine errors => (before endLine errors).trans (after endLine errors)

theorem Accepts.resume {later : α → Parse β} (before : Accepts parse first input tree middle between)
    (after : Resumes (later tree) middle between others next rest) :
    Resumes (parse >>= later) first input others next rest := by
  intro endLine errors
  exact (bind_ok (before endLine errors)).trans (after endLine errors)

theorem Accepts.bind {later : α → Parse β} (before : Accepts parse first input tree middle between)
    (after : Accepts (later tree) middle between result next rest) :
    Accepts (parse >>= later) first input result next rest :=
  before.resume after

theorem Accepts.pure : Accepts (pure tree) first rest tree first rest :=
  fun _ _ => rfl

theorem Accepts.map (build : α → β) (accepts : Accepts parse first input tree next rest) :
    Accepts (build <$> parse) first input (build tree) next rest := by
  intro endLine errors
  change EStateM.map build parse _ = _
  unfold EStateM.map
  rw [accepts endLine errors]
  rfl

/-- The kind of the next token. -/
def headKind : List Token → Kind
  | [] => .eof
  | token :: _ => token.kind

theorem peek_kind (input : List Token) (endLine : Nat) (first : NodeId)
    (errors : Array SyntaxError) :
    (State.mk input endLine first errors).peek.kind = headKind input := by
  cases input <;> rfl

theorem headKind_ne (starts : Kind → Bool) (begins : starts (headKind input) = true)
    (excluded : starts kind = false) : headKind input ≠ kind := by
  intro same
  rw [same, excluded] at begins
  cases begins

theorem headKind_ne_of_is (present : token.Is word) (other : word ≠ excluded) :
    headKind (token :: rest) ≠ .terminal excluded := by
  rw [show headKind (token :: rest) = .terminal word from present]
  exact fun same => other (Kind.terminal.inj same)

theorem peek_accepts : Accepts peek first (token :: rest) token first (token :: rest) :=
  fun _ _ => rfl

theorem peek_resumes {later : Token → Parse α}
    (after : ∀ token, Resumes (later token) first input others next rest) :
    Resumes (peek >>= later) first input others next rest :=
  fun endLine errors => after _ endLine errors

theorem skip_accepts : Accepts skip first (token :: rest) () first rest :=
  fun _ _ => rfl

theorem freshId_accepts : Accepts freshId first rest first (first + 1) rest :=
  fun _ _ => rfl

theorem remaining_accepts : Accepts remaining first rest rest.length first rest :=
  fun _ _ => rfl

theorem check_accepts (word : Terminal) (first : NodeId) (rest : List Token) :
    Accepts (check word) first rest (headKind rest == .terminal word) first rest := by
  intro endLine errors
  unfold check
  rw [peek_kind]
  rfl

theorem check_present (present : token.Is word) :
    Accepts (check word) first (token :: rest) true first (token :: rest) := by
  have accepts := check_accepts word first (token :: rest)
  rwa [show headKind (token :: rest) = .terminal word from present, beq_self_eq_true] at accepts

theorem check_absent (absent : headKind rest ≠ .terminal word) :
    Accepts (check word) first rest false first rest := by
  have accepts := check_accepts word first rest
  rwa [beq_false_of_ne absent] at accepts

theorem take_present (present : token.Is word) :
    Accepts (take word) first (token :: rest) true first rest :=
  (check_present present).bind (skip_accepts.bind .pure)

theorem take_absent (absent : headKind rest ≠ .terminal word) :
    Accepts (take word) first rest false first rest :=
  (check_absent absent).bind .pure

theorem expect_accepts {expectation : Expectation} (wanted : token.kind = expectation.wanted) :
    Accepts (expect expectation) first (token :: rest) token first rest := by
  refine peek_accepts.bind ?_
  rw [if_pos wanted]
  exact skip_accepts.bind .pure

theorem discard_expect_accepts {expectation : Expectation}
    (wanted : token.kind = expectation.wanted) :
    Accepts (discard (expect expectation)) first (token :: rest) () first rest :=
  (expect_accepts wanted).map _

theorem expectName_accepts {expectation : Expectation}
    (wanted : token.kind = expectation.wanted) :
    Accepts (expectName expectation) first (token :: rest) token.toName first rest :=
  (expect_accepts wanted).bind .pure

theorem takeOperator?_present {operator? : Kind → Option α}
    (operates : operator? token.kind = some op) :
    Accepts (takeOperator? operator?) first (token :: rest) (some (op, token.line)) first rest := by
  refine peek_accepts.bind ?_
  rw [operates]
  exact skip_accepts.bind .pure

theorem takeOperator?_absent {operator? : Kind → Option α}
    (absent : operator? (headKind rest) = none) :
    Accepts (takeOperator? operator?) first rest none first rest := by
  intro endLine errors
  have absent : operator? (State.mk rest endLine first errors).peek.kind = none := by
    rw [peek_kind, absent]
  simp only [takeOperator?, bind, EStateM.bind, peek, absent]

/-- Items with commas between them are accepted if each of them is, up to a closing parenthesis. -/
theorem commaSeparated_accepts {item : Parse α} {form : Form α}
    (accepts : ∀ {first input tree next rest}, form first input tree next rest →
      input.length ≤ size → headKind rest = .terminal .comma ∨ headKind rest = .terminal .rightParen →
      Accepts item first input tree next rest)
    (shorter : ∀ {first input tree next rest}, form first input tree next rest →
      rest.length ≤ input.length)
    (items : Separated form first input trees next rest) (small : input.length ≤ size)
    (closes : headKind rest = .terminal .rightParen)
    (few : count + trees.length ≤ maxArity) (bounded : input.length < bound) :
    Accepts (commaSeparated excess item bound count) first input trees next rest := by
  induction items generalizing count bound with
  | last formed =>
    obtain ⟨bound, rfl⟩ := Nat.exists_eq_add_one_of_ne_zero (Nat.ne_zero_of_lt bounded)
    unfold commaSeparated
    rw [if_neg (by simp only [List.length_singleton] at few; omega)]
    refine (accepts formed small (.inr closes)).bind ((take_absent ?_).bind .pure)
    rw [closes]
    simp
  | comma formed comma others ih =>
    obtain ⟨bound, rfl⟩ := Nat.exists_eq_add_one_of_ne_zero (Nat.ne_zero_of_lt bounded)
    have short := shorter formed
    simp only [List.length_cons] at short few
    unfold commaSeparated
    rw [if_neg (by omega)]
    refine (accepts formed small (.inl comma)).bind ((take_present comma).bind ?_)
    exact (ih (by omega) closes (by omega) (by omega)).bind .pure

theorem listed_accepts {item : Parse α} {form : Form α}
    (accepts : ∀ {first input tree next rest}, form first input tree next rest →
      input.length ≤ size → headKind rest = .terminal .comma ∨ headKind rest = .terminal .rightParen →
      Accepts item first input tree next rest)
    (shorter : ∀ {first input tree next rest}, form first input tree next rest →
      rest.length ≤ input.length)
    (begins : ∀ {first input tree next rest}, form first input tree next rest →
      headKind input ≠ .terminal .rightParen)
    (items : Listed form first input trees next rest) (small : input.length ≤ size)
    (closes : headKind rest = .terminal .rightParen) :
    Accepts (listed excess item) first input trees next rest := by
  cases items with
  | none =>
    have accepts := check_accepts .rightParen first input
    rw [closes] at accepts
    exact accepts.bind .pure
  | some items few =>
    have opens : headKind input ≠ .terminal .rightParen := by
      cases items with
      | last formed => exact begins formed
      | comma formed => exact begins formed
    refine (check_absent opens).bind (remaining_accepts.bind ?_)
    exact commaSeparated_accepts accepts shorter items small closes (by omega) (by omega)

end Lox.Parse
