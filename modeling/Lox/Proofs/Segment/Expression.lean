import Lox.Proofs.Segment.Basic

/-! Expressions up to a semicolon. What comes after it counts neither for the tree nor for the errors,
and neither do bounds that are greater than the number of tokens before it. -/

namespace Lox.Parse

variable {α : Type} {outer : List Token} {earlier : List SyntaxError} {state other : State}
  {limit bound bound' : Nat}

theorem commaSeparated_agree {item item' : Parse α} (excess : SyntaxFault)
    (items : ∀ {state other}, Within outer earlier state other → Sealed state.rest →
      state.rest.length ≤ limit → Agree outer earlier Sealed state (item state) (item' other))
    (within : Within outer earlier state other) (enclosed : Sealed state.rest)
    (small : state.rest.length ≤ limit) (bounded : state.rest.length < bound)
    (bounded' : state.rest.length < bound') (count : Nat) :
    Agree outer earlier Sealed state (commaSeparated excess item bound count state)
      (commaSeparated excess item' bound' count other) := by
  induction bound generalizing bound' state other count with
  | zero => omega
  | succ bound ih =>
    obtain ⟨bound', rfl⟩ := Nat.exists_eq_add_one_of_ne_zero (Nat.ne_zero_of_lt bounded')
    have others {state other} (within : Within outer earlier state other)
        (enclosed : Sealed state.rest) (small : state.rest.length ≤ limit)
        (bounded : state.rest.length < bound + 1) (bounded' : state.rest.length < bound' + 1) :
        Agree outer earlier Sealed state
          ((item >>= fun first => take .comma >>= fun more => if more then
            commaSeparated excess item bound (count + 1) >>= fun rest => return first :: rest
            else return [first]) state)
          ((item' >>= fun first => take .comma >>= fun more => if more then
            commaSeparated excess item' bound' (count + 1) >>= fun rest => return first :: rest
            else return [first]) other) := by
      refine (items within enclosed small).bind fun {first _ _} _ within enclosed short => ?_
      refine (take_agree within enclosed (by simp)).bind fun {more _ _} taken within enclosed _ => ?_
      cases more with
      | true =>
        have passed := (take_shorter taken).1
        refine Agree.bind ?_ fun _ within enclosed _ => .pure within enclosed _
        exact ih within enclosed (by omega) (by omega) (by omega) (count + 1)
      | false => exact .pure within enclosed _
    simp only [commaSeparated]
    split
    · rw [peek_bind, peek_bind, within.peek enclosed.more]
      exact (report_agree within enclosed _).bind fun _ within enclosed short =>
        others within enclosed (by omega) (by omega) (by omega)
    · exact others within enclosed small bounded bounded'

theorem listed_agree {item item' : Parse α} (excess : SyntaxFault)
    (items : ∀ {state other}, Within outer earlier state other → Sealed state.rest →
      state.rest.length ≤ limit → Agree outer earlier Sealed state (item state) (item' other))
    (within : Within outer earlier state other) (enclosed : Sealed state.rest)
    (small : state.rest.length ≤ limit) :
    Agree outer earlier Sealed state (listed excess item state) (listed excess item' other) := by
  refine (check_agree within enclosed .rightParen).bind
    fun {closed _ after'} checked within enclosed _ => ?_
  cases checked
  split
  · exact .pure within enclosed _
  · refine commaSeparated_agree excess items within enclosed small (Nat.lt_succ_self _) ?_ 0
    rw [within.rest, List.length_append]
    omega

/-- Nested expressions that are parsed alike before fewer tokens. -/
def Nested (outer : List Token) (earlier : List SyntaxError) (limit : Nat)
    (expression expression' : Parse Expr) : Prop :=
  ∀ {state other}, Within outer earlier state other → Sealed state.rest → state.rest.length < limit →
    Agree outer earlier Sealed state (expression state) (expression' other)

/-- A token that stands for a tree by itself. -/
theorem skipped_agree (within : Within outer earlier state other) (enclosed : Sealed state.rest)
    (inner : state.peek.kind ≠ .terminal .semicolon) (value : α) :
    Agree outer earlier Sealed state ((skip >>= fun _ => pure value) state)
      ((skip >>= fun _ => pure value) other) :=
  (skip_agree within enclosed inner).bind fun _ within tokens _ => .pure within tokens _

section Forms

variable {expression expression' : Parse Expr}
  (nested : Nested outer earlier limit expression expression')
  (within : Within outer earlier state other) (enclosed : Sealed state.rest)

include nested within enclosed

theorem callArguments_agree (callee : Expr) (less : state.rest.length < limit) :
    Agree outer earlier Sealed state (callArguments expression callee state)
      (callArguments expression' callee other) := by
  refine (listed_agree _ (fun within enclosed short => nested within enclosed ?_) within enclosed
    (Nat.le_refl _)).bind fun _ within enclosed _ => ?_
  · exact Nat.lt_of_le_of_lt short less
  · exact (expect_agree within enclosed (by simp [Expectation.wanted])).bind
      fun _ within tokens _ => .pure within tokens _

variable (small : state.rest.length ≤ limit)

include small

theorem primary_agree :
    Agree outer earlier Sealed state (primary expression state) (primary expression' other) := by
  unfold primary
  rw [peek_bind, peek_bind, within.peek enclosed.more]
  change Agrees outer earlier Sealed _ _ state other
  split
  case _ kind => exact skipped_agree within enclosed (by simp [kind]) _
  case _ kind => exact skipped_agree within enclosed (by simp [kind]) _
  case _ kind => exact skipped_agree within enclosed (by simp [kind]) _
  case _ kind => exact skipped_agree within enclosed (by simp [kind]) _
  case _ kind => exact skipped_agree within enclosed (by simp [kind]) _
  case _ kind =>
    refine (skip_agree within enclosed (by simp [kind])).bind fun _ within enclosed _ => ?_
    refine (expect_agree within enclosed (by simp [Expectation.wanted])).discard.bind
      fun _ within enclosed _ => ?_
    refine (expectName_agree within enclosed (by simp [Expectation.wanted])).bind
      fun _ within enclosed _ => ?_
    exact (freshId_agree within enclosed).bind fun _ within tokens _ => .pure within tokens _
  case _ kind =>
    refine (skip_agree within enclosed (by simp [kind])).bind fun _ within enclosed _ => ?_
    exact (freshId_agree within enclosed).bind fun _ within tokens _ => .pure within tokens _
  case _ kind =>
    refine (skip_agree within enclosed (by simp [kind])).bind fun _ within enclosed _ => ?_
    exact (freshId_agree within enclosed).bind fun _ within tokens _ => .pure within tokens _
  case _ kind =>
    have length := enclosed.length_tail
    refine (skip_agree within enclosed (by simp [kind])).bind fun ran within enclosed _ => ?_
    cases ran
    refine (nested within enclosed (by dsimp only; omega)).bind fun _ within enclosed _ => ?_
    exact (expect_agree within enclosed (by simp [Expectation.wanted])).discard.bind
      fun _ within tokens _ => .pure within tokens _
  case _ => exact fail_agree within enclosed _

theorem callsFrom_agree (callee : Expr) (bounded : state.rest.length ≤ bound)
    (bounded' : state.rest.length ≤ bound') :
    Agree outer earlier Sealed state (callsFrom expression bound callee state)
      (callsFrom expression' bound' callee other) := by
  induction bound generalizing bound' state other callee with
  | zero =>
    obtain ⟨token, rest, next⟩ := enclosed.head
    simp [next] at bounded
  | succ bound ih =>
    have length := enclosed.length_tail
    obtain ⟨bound', rfl⟩ : ∃ fewer, bound' = fewer + 1 := Nat.exists_eq_add_one.mpr (by omega)
    refine (take_agree within enclosed (by simp)).bind fun {called _ _} taken within enclosed _ => ?_
    cases called with
    | true =>
      have passed := (take_shorter taken).1
      refine (callArguments_agree nested within enclosed callee (by omega)).bind
        fun _ within enclosed _ => ?_
      exact ih within enclosed (by omega) _ (by omega) (by omega)
    | false =>
      refine (take_agree within enclosed (by simp)).bind fun {read _ _} taken within enclosed _ => ?_
      cases read with
      | true =>
        have passed := (take_shorter taken).1
        refine (expectName_agree within enclosed (by simp [Expectation.wanted])).bind
          fun _ within enclosed _ => ?_
        exact ih within enclosed (by omega) _ (by omega) (by omega)
      | false => exact .pure within enclosed _

theorem call_agree :
    Agree outer earlier Sealed state (call expression state) (call expression' other) := by
  refine (primary_agree nested within enclosed small).bind fun {_ _ after'} _ within enclosed _ => ?_
  have longer : after'.rest.length = _ := congrArg List.length within.rest
  rw [List.length_append] at longer
  exact callsFrom_agree nested within enclosed (by omega) _ (Nat.le_refl _) (by omega)

/-- By induction on the tokens before the semicolon, which is no operator. -/
theorem unary_agree :
    Agree outer earlier Sealed state (unary expression state) (unary expression' other) := by
  generalize tokens : state.rest.length = length at small
  induction length generalizing state other with
  | zero =>
    obtain ⟨token, rest, next⟩ := enclosed.head
    simp [next] at tokens
  | succ length ih =>
    cases found : UnaryOp.ofKind? state.peek.kind with
    | none =>
      have absent : UnaryOp.ofKind? other.peek.kind = none := by rwa [within.peek enclosed.more]
      rw [unary_none found, unary_none absent]
      exact call_agree nested within enclosed (tokens ▸ small)
    | some op =>
      obtain ⟨token, rest, next⟩ := enclosed.head
      have inner : state.peek.kind ≠ .terminal .semicolon := by
        intro kind
        simp [kind, UnaryOp.ofKind?] at found
      have found : UnaryOp.ofKind? token.kind = some op := by simpa [State.peek, next] using found
      have next' : other.rest = token :: (rest ++ outer) := by rw [within.rest, next]; rfl
      rw [unary_some next found, unary_some next' found]
      have skipped := within.skip enclosed.more
      simp only [State.peek, next, List.headD_cons] at inner
      rw [next, next', List.tail_cons, List.tail_cons] at skipped
      rw [next] at enclosed tokens
      have tokens : rest.length = length := Nat.succ.inj tokens
      refine Agree.since (Agree.bind (ih skipped (enclosed.tail inner) tokens (by omega))
        fun _ within tokens _ => .pure within tokens _) ?_
      simp [next]

end Forms

section Chains

variable {operator? : Kind → Option α} {join : α → Nat → Expr → Expr → Expr}
  {operand operand' : Parse Expr} (real : operator? .eof = none)
  (inner : operator? (.terminal .semicolon) = none)
  (operands : ∀ {state other}, Within outer earlier state other → Sealed state.rest →
    state.rest.length ≤ limit → Agree outer earlier Sealed state (operand state) (operand' other))
  (within : Within outer earlier state other) (enclosed : Sealed state.rest)
  (small : state.rest.length ≤ limit)

include real inner operands within enclosed small

theorem chainFrom_agree (left : Expr) (bounded : state.rest.length ≤ bound)
    (bounded' : state.rest.length ≤ bound') :
    Agree outer earlier Sealed state (chainFrom operator? join operand bound left state)
      (chainFrom operator? join operand' bound' left other) := by
  induction bound generalizing bound' state other left with
  | zero =>
    obtain ⟨token, rest, next⟩ := enclosed.head
    simp [next] at bounded
  | succ bound ih =>
    have length := enclosed.length_tail
    obtain ⟨bound', rfl⟩ : ∃ fewer, bound' = fewer + 1 := Nat.exists_eq_add_one.mpr (by omega)
    refine (takeOperator?_agree within enclosed inner).bind
      fun {operator _ _} taken within enclosed _ => ?_
    cases operator with
    | none => exact .pure within enclosed _
    | some operator =>
      have passed := takeOperator?_shorter real taken
      refine (operands within enclosed (by omega)).bind fun _ within enclosed _ => ?_
      exact ih within enclosed (by omega) _ (by omega) (by omega)

theorem chain_agree :
    Agree outer earlier Sealed state (chain operator? join operand state)
      (chain operator? join operand' other) := by
  refine (operands within enclosed small).bind fun {_ _ after'} _ within enclosed _ => ?_
  have longer : after'.rest.length = _ := congrArg List.length within.rest
  rw [List.length_append] at longer
  exact chainFrom_agree real inner operands within enclosed (by omega) _ (Nat.le_refl _) (by omega)

end Chains

section Assignments

variable {expression expression' : Parse Expr}
  (nested : Nested outer earlier limit expression expression')
  (within : Within outer earlier state other) (enclosed : Sealed state.rest)
  (small : state.rest.length ≤ limit)

include nested within enclosed small

theorem disjunction_agree :
    Agree outer earlier Sealed state (disjunction expression state)
      (disjunction expression' other) := by
  refine chain_agree rfl rfl (fun within enclosed small => ?_) within enclosed small
  refine chain_agree rfl rfl (fun within enclosed small => ?_) within enclosed small
  refine chain_agree rfl rfl (fun within enclosed small => ?_) within enclosed small
  refine chain_agree rfl rfl (fun within enclosed small => ?_) within enclosed small
  refine chain_agree rfl rfl (fun within enclosed small => ?_) within enclosed small
  refine chain_agree rfl rfl (fun within enclosed small => ?_) within enclosed small
  exact unary_agree nested within enclosed small

theorem assignment_agree :
    Agree outer earlier Sealed state (assignment expression state) (assignment expression' other) := by
  refine (disjunction_agree nested within enclosed small).bind
    fun {target _ _} _ within enclosed _ => ?_
  rw [peek_bind, peek_bind, within.peek enclosed.more]
  refine (take_agree within enclosed (by simp)).bind fun {assigned _ _} taken within enclosed _ => ?_
  cases assigned with
  | true =>
    have passed := (take_shorter taken).1
    refine (nested within enclosed (by omega)).bind fun _ within enclosed _ => ?_
    cases target with
    | read _ name =>
      exact (freshId_agree within enclosed).bind fun _ within tokens _ => .pure within tokens _
    | get object name => exact .pure within enclosed _
    | _ => exact (report_agree within enclosed _).bind fun _ within tokens _ => .pure within tokens _
  | false => exact .pure within enclosed _

end Assignments

theorem expressionWithin_agree (depth depth' : Nat) (within : Within outer earlier state other)
    (enclosed : Sealed state.rest) (deep : state.rest.length < depth)
    (deep' : state.rest.length < depth') :
    Agree outer earlier Sealed state (expressionWithin depth state)
      (expressionWithin depth' other) := by
  induction depth generalizing depth' state other with
  | zero => omega
  | succ depth ih =>
    obtain ⟨depth', rfl⟩ := Nat.exists_eq_add_one_of_ne_zero (Nat.ne_zero_of_lt deep')
    have nested : Nested outer earlier state.rest.length (expressionWithin depth)
        (expressionWithin depth') := fun within enclosed less =>
      ih depth' within enclosed (by omega) (by omega)
    exact assignment_agree nested within enclosed (Nat.le_refl _)

theorem expression_agree (within : Within outer earlier state other)
    (enclosed : Sealed state.rest) :
    Agree outer earlier Sealed state (expression state) (expression other) := by
  refine expressionWithin_agree _ _ within enclosed (Nat.lt_succ_self _) ?_
  rw [within.rest, List.length_append]
  omega

end Lox.Parse
