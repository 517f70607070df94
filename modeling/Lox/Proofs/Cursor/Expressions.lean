import Lox.Proofs.Cursor.Expression
import Lox.Proofs.Cursor.Loops
import Lox.Proofs.Parse.Spends

/-! Both parsers read expressions alike. Every call of the parser over the buffer comes a bounded number
of calls after the last token was passed over, so fuel in proportion to the tokens to come is enough. -/

namespace Lox.Cursor

namespace Level

/-- The level in the other parser. -/
def parse : Level → Parse Expr → Parse Expr
  | disjunction => Parse.disjunction
  | conjunction => Parse.conjunction
  | equality => Parse.equality
  | comparison => Parse.comparison
  | term => Parse.term
  | factor => Parse.factor

/-- The operands of the level in the other parser. -/
def parseOperand : Level → Parse Expr → Parse Expr
  | disjunction => Parse.conjunction
  | conjunction => Parse.equality
  | equality => Parse.comparison
  | comparison => Parse.term
  | term => Parse.factor
  | factor => Parse.unary

/-- How many calls lead from the level to a token at most. -/
def calls : Level → Nat
  | disjunction => 14
  | conjunction => 12
  | equality => 10
  | comparison => 8
  | term => 6
  | factor => 4

theorem parse_eq (level : Level) :
    ∃ (Op : Type) (operator? : Kind → Option Op) (join : Op → Nat → Expr → Expr → Expr),
      operator? .eof = none ∧ (∀ kind, level.join? kind = (operator? kind).map join) ∧
      ∀ expression, level.parse expression =
        Parse.chain operator? join (level.parseOperand expression) := by
  cases level <;> exact ⟨_, _, _, rfl, fun _ => rfl, fun _ => rfl⟩

end Level

variable {tokens : List Token} {last : Token} {cursor : State} {state : Parse.State}

/-- With so much fuel, expressions are the same. -/
structure Expressions (tokens : List Token) (last : Token) (fuel : Nat) : Prop where
  expression : ∀ {cursor state depth}, Mirrors tokens last cursor state →
    state.rest.length < depth → 20 * state.rest.length + 15 ≤ fuel →
    Reaches tokens last (expression fuel) cursor (Parse.expressionWithin depth state)
  operation : ∀ {cursor state depth} level, Mirrors tokens last cursor state →
    state.rest.length ≤ depth → 20 * state.rest.length + level.calls ≤ fuel →
    Reaches tokens last (operation fuel level) cursor
      (level.parse (Parse.expressionWithin depth) state)
  operand : ∀ {cursor state depth} level, Mirrors tokens last cursor state →
    state.rest.length ≤ depth → 20 * state.rest.length + level.calls ≤ fuel + 1 →
    Reaches tokens last (operand fuel level) cursor
      (level.parseOperand (Parse.expressionWithin depth) state)
  operationFrom : ∀ {cursor state depth bound} {Op : Type} {operator? : Kind → Option Op} {join}
    level left, operator? .eof = none → (∀ kind, level.join? kind = (operator? kind).map join) →
    Mirrors tokens last cursor state → state.rest.length ≤ depth → state.rest.length ≤ bound →
    20 * state.rest.length + 1 ≤ fuel →
    Reaches tokens last (operationFrom fuel level left) cursor
      (Parse.chainFrom operator? join (level.parseOperand (Parse.expressionWithin depth)) bound left
        state)
  unary : ∀ {cursor state depth}, Mirrors tokens last cursor state →
    state.rest.length ≤ depth → 20 * state.rest.length + 2 ≤ fuel →
    Reaches tokens last (unary fuel) cursor (Parse.unary (Parse.expressionWithin depth) state)
  callsFrom : ∀ {cursor state depth bound} callee, Mirrors tokens last cursor state →
    state.rest.length ≤ depth → state.rest.length ≤ bound → 20 * state.rest.length + 1 ≤ fuel →
    Reaches tokens last (callsFrom fuel callee) cursor
      (Parse.callsFrom (Parse.expressionWithin depth) bound callee state)
  primary : ∀ {cursor state depth}, Mirrors tokens last cursor state →
    state.rest.length ≤ depth → 20 * state.rest.length + 1 ≤ fuel →
    Reaches tokens last (primary fuel) cursor (Parse.primary (Parse.expressionWithin depth) state)

section Constants

variable (mirrors : Mirrors tokens last cursor state)

include mirrors

theorem constant?_false (kind : state.peek.kind = .terminal .kwFalse) :
    Reaches tokens last constant? cursor
      (.ok (some (.bool false)) { state with rest := state.rest.tail }) :=
  (take_same mirrors (by simp) kind).and_then fun mirrors _ => .pure mirrors _

theorem constant?_true (kind : state.peek.kind = .terminal .kwTrue) :
    Reaches tokens last constant? cursor
      (.ok (some (.bool true)) { state with rest := state.rest.tail }) := by
  refine (take_other mirrors (by simp) (by simp [kind])).and_then fun mirrors _ => ?_
  exact (take_same mirrors (by simp) kind).and_then fun mirrors _ => .pure mirrors _

theorem constant?_nil (kind : state.peek.kind = .terminal .kwNil) :
    Reaches tokens last constant? cursor
      (.ok (some .nil) { state with rest := state.rest.tail }) := by
  refine (take_other mirrors (by simp) (by simp [kind])).and_then fun mirrors _ => ?_
  refine (take_other mirrors (by simp) (by simp [kind])).and_then fun mirrors _ => ?_
  exact (take_same mirrors (by simp) kind).and_then fun mirrors _ => .pure mirrors _

theorem constant?_absent (absent : state.peek.kind ≠ .terminal .kwFalse ∧
      state.peek.kind ≠ .terminal .kwTrue ∧ state.peek.kind ≠ .terminal .kwNil) :
    Reaches tokens last constant? cursor (.ok none state) := by
  refine (take_other mirrors (by simp) absent.1).and_then fun mirrors _ => ?_
  refine (take_other mirrors (by simp) absent.2.1).and_then fun mirrors _ => ?_
  refine (take_other mirrors (by simp) absent.2.2).and_then fun mirrors _ => ?_
  exact .pure mirrors _

/-- What stands for no constant is looked at once more. -/
theorem unless_constant {later : Option Literal → Cursor α} {look : Token → Cursor α}
    (same : later none = peek >>= look) (absent : state.peek.kind ≠ .terminal .kwFalse ∧
      state.peek.kind ≠ .terminal .kwTrue ∧ state.peek.kind ≠ .terminal .kwNil)
    (rest : ∀ {cursor}, Mirrors tokens last cursor state →
      Reaches tokens last (look (state.rest.headD last)) cursor result) :
    Reaches tokens last (constant? >>= later) cursor result := by
  refine (constant?_absent mirrors absent).and_then fun mirrors _ => ?_
  rw [same]
  exact (peek_reaches mirrors).and_then fun mirrors _ => rest mirrors

end Constants

section Tokens

variable (mirrors : Mirrors tokens last cursor state) (same : state.peek.kind = kind)
  (real : kind ≠ .eof)

include mirrors same real

/-- A token that stands for a tree by itself. -/
theorem skipped_reaches (value : α) :
    Reaches tokens last (discard advance >>= fun _ => pure value) cursor
      ((Parse.skip >>= fun _ => pure value) state) := by
  obtain ⟨token, others, next, _, _⟩ := Parse.State.next_token same real
  rw [Parse.skip_bind, next]
  exact (advance_reaches mirrors next).discarded.and_then fun mirrors _ => .pure mirrors _

end Tokens

section More

variable {fuel depth bound : Nat} (less : Expressions tokens last fuel)
  (mirrors : Mirrors tokens last cursor state)

include less mirrors

theorem expression_reaches (deep : state.rest.length < depth)
    (fueled : 20 * state.rest.length + 15 ≤ fuel + 1) :
    Reaches tokens last (expression (fuel + 1)) cursor (Parse.expressionWithin depth state) := by
  obtain ⟨depth, rfl⟩ := Nat.exists_eq_add_one_of_ne_zero (Nat.ne_zero_of_lt deep)
  refine (less.operation .disjunction mirrors (by omega) (Nat.le_of_succ_le_succ fueled)).bind
    fun {target _ ended} _ between forward => ?_
  have short := mirrors.shorter between forward
  rw [Parse.peek_bind]
  by_cases same : ended.peek.kind = .terminal .equal
  · obtain ⟨token, others, next, kind, peeked⟩ := Parse.State.next_token same (by simp)
    obtain ⟨moved, ran, after, passed, onward⟩ := take_runs between next
    rw [kind] at ran
    refine .step ran onward (.step (previous_runs passed) (Nat.le_refl _) ?_)
    simp only [next, List.length_cons] at short
    rw [Lox.bind_ok (Parse.take_same same), next, peeked, errorAt_eq between next]
    refine (less.expression after (by dsimp only; omega) (by dsimp only; omega)).bind
      fun {value} _ _ _ mirrors _ => ?_
    cases target with
    | read _ name => exact (freshId_reaches mirrors).bind fun _ mirrors _ => .pure mirrors _
    | get object name => exact .pure mirrors _
    | _ => exact (report_reaches mirrors _).bind fun _ mirrors _ => .pure mirrors _
  · rw [Lox.bind_ok (Parse.take_other same)]
    exact (take_other between (by simp) same).and_then fun mirrors _ => .pure mirrors _

theorem operation_reaches (level : Level) (deep : state.rest.length ≤ depth)
    (fueled : 20 * state.rest.length + level.calls ≤ fuel + 1) :
    Reaches tokens last (operation (fuel + 1) level) cursor
      (level.parse (Parse.expressionWithin depth) state) := by
  obtain ⟨Op, operator?, join, ending, same, shape⟩ := level.parse_eq
  rw [shape]
  refine (less.operand level mirrors deep fueled).bind fun {left} _ _ _ between forward => ?_
  have short := mirrors.shorter between forward
  have calls : 4 ≤ level.calls := by cases level <;> decide
  exact less.operationFrom level left ending same between (by omega) (Nat.le_refl _) (by omega)

theorem operand_reaches (level : Level) (deep : state.rest.length ≤ depth)
    (fueled : 20 * state.rest.length + level.calls ≤ fuel + 2) :
    Reaches tokens last (operand (fuel + 1) level) cursor
      (level.parseOperand (Parse.expressionWithin depth) state) := by
  cases level with
  | factor =>
    simp only [Level.calls] at fueled
    exact less.unary mirrors deep (by omega)
  | disjunction | conjunction | equality | comparison | term =>
    simp only [Level.calls] at fueled
    exact less.operation _ mirrors deep (by simp only [Level.calls]; omega)

theorem operationFrom_reaches {Op : Type} {operator? : Kind → Option Op}
    {join : Op → Nat → Expr → Expr → Expr} (level : Level) (left : Expr)
    (ending : operator? .eof = none) (same : ∀ kind, level.join? kind = (operator? kind).map join)
    (deep : state.rest.length ≤ depth) (bounded : state.rest.length ≤ bound)
    (fueled : 20 * state.rest.length + 1 ≤ fuel + 1) :
    Reaches tokens last (operationFrom (fuel + 1) level left) cursor
      (Parse.chainFrom operator? join (level.parseOperand (Parse.expressionWithin depth)) bound left
        state) := by
  refine (operator?_reaches mirrors (by rw [same, ending]; rfl)).and_then fun mirrors _ => ?_
  rw [same]
  cases found : operator? state.peek.kind with
  | none =>
    cases bound with
    | zero => exact .pure mirrors _
    | succ bound =>
      unfold Parse.chainFrom
      rw [Lox.bind_ok (Parse.takeOperator?_none found)]
      exact .pure mirrors _
  | some op =>
    have real : state.peek.kind ≠ .eof := fun ended => by simp [ended, ending] at found
    obtain ⟨token, others, next, _, peeked⟩ := Parse.State.next_token rfl real
    obtain ⟨bound, rfl⟩ : ∃ fewer, bound = fewer + 1 :=
      Nat.exists_eq_add_one.mpr (by simp only [next, List.length_cons] at bounded; omega)
    unfold Parse.chainFrom
    rw [Lox.bind_ok (Parse.takeOperator?_some found), next, peeked]
    refine (advance_reaches mirrors next).and_then fun mirrors _ => ?_
    simp only [next, List.length_cons] at deep bounded fueled
    have calls : level.calls ≤ 14 := by cases level <;> decide
    refine (less.operand level mirrors (by dsimp only; omega) (by dsimp only; omega)).bind
      fun {right _ ended} _ between forward => ?_
    have short := mirrors.shorter between forward
    dsimp only at short
    exact less.operationFrom level _ ending same between (by omega) (by omega) (by omega)

theorem unary_reaches (deep : state.rest.length ≤ depth)
    (fueled : 20 * state.rest.length + 2 ≤ fuel + 1) :
    Reaches tokens last (unary (fuel + 1)) cursor
      (Parse.unary (Parse.expressionWithin depth) state) := by
  refine (operator?_reaches mirrors rfl).and_then fun mirrors _ => ?_
  cases found : UnaryOp.ofKind? state.peek.kind with
  | some op =>
    have real : state.peek.kind ≠ .eof := fun ended => by simp [ended, UnaryOp.ofKind?] at found
    obtain ⟨token, others, next, _, peeked⟩ := Parse.State.next_token rfl real
    rw [peeked] at found
    rw [Parse.unary_some next found]
    refine (advance_reaches mirrors next).and_then fun mirrors _ => ?_
    simp only [next, List.length_cons] at deep fueled
    exact (less.unary mirrors (by dsimp only; omega) (by dsimp only; omega)).bind
      fun _ mirrors _ => .pure mirrors _
  | none =>
    rw [Parse.unary_none found]
    refine (less.primary mirrors deep (by omega)).bind fun {callee _ ended} _ between forward => ?_
    have short := mirrors.shorter between forward
    exact less.callsFrom callee between (by omega) (Nat.le_refl _) (by omega)

theorem callsFrom_reaches (callee : Expr) (deep : state.rest.length ≤ depth)
    (bounded : state.rest.length ≤ bound) (fueled : 20 * state.rest.length + 1 ≤ fuel + 1) :
    Reaches tokens last (callsFrom (fuel + 1) callee) cursor
      (Parse.callsFrom (Parse.expressionWithin depth) bound callee state) := by
  cases bound with
  | zero =>
    have none : state.peek.kind = .eof := by
      have ended := List.eq_nil_of_length_eq_zero (Nat.le_zero.mp bounded)
      rw [Parse.State.peek, ended]
      rfl
    refine (take_other mirrors (by simp) (by simp [none])).and_then fun mirrors _ => ?_
    refine (take_other mirrors (by simp) (by simp [none])).and_then fun mirrors _ => ?_
    exact .pure mirrors _
  | succ bound =>
    refine (take_reaches mirrors .leftParen).bind fun {called _ ended} taken mirrors _ => ?_
    cases called with
    | true =>
      have passed := (Parse.take_shorter taken).1
      have inner {cursor : State} {state : Parse.State} (mirrors : Mirrors tokens last cursor state)
          (small : state.rest.length ≤ ended.rest.length) :
          Reaches tokens last (expression fuel) cursor (Parse.expressionWithin depth state) :=
        less.expression mirrors (by omega) (by omega)
      rw [if_pos rfl, if_pos rfl]
      unfold Parse.callArguments
      simp only [bind_assoc, pure_bind]
      refine (listed_reaches .tooManyArguments inner mirrors (Nat.le_refl _) (by omega)).bind
        fun {arguments _ listed} _ after forward => ?_
      refine (expect_reaches after .parenAfterArguments).bind
        fun {paren _ closed} _ ends onward => ?_
      have short := mirrors.shorter after forward
      have short := after.shorter ends onward
      exact less.callsFrom _ ends (by omega) (by omega) (by omega)
    | false =>
      cases Parse.take_still taken
      refine (take_reaches mirrors .dot).bind fun {read _ ended} taken between _ => ?_
      cases read with
      | true =>
        have passed := (Parse.take_shorter taken).1
        refine (expectName_reaches between .propertyName).bind
          fun {name _ named} _ after forward => ?_
        have short := between.shorter after forward
        exact less.callsFrom _ after (by omega) (by omega) (by omega)
      | false =>
        cases Parse.take_still taken
        exact .pure between _

theorem primary_reaches (deep : state.rest.length ≤ depth)
    (fueled : 20 * state.rest.length + 1 ≤ fuel + 1) :
    Reaches tokens last (primary (fuel + 1)) cursor
      (Parse.primary (Parse.expressionWithin depth) state) := by
  unfold Parse.primary
  rw [Parse.peek_bind]
  change Follows tokens last _ _ cursor state
  split
  case _ kind => exact (constant?_false mirrors kind).and_then fun mirrors _ => .pure mirrors _
  case _ kind => exact (constant?_true mirrors kind).and_then fun mirrors _ => .pure mirrors _
  case _ kind => exact (constant?_nil mirrors kind).and_then fun mirrors _ => .pure mirrors _
  case _ kind =>
    refine unless_constant mirrors rfl (by simp [kind]) fun mirrors => ?_
    rw [next_kind mirrors, kind]
    exact skipped_reaches mirrors kind (by simp) _
  case _ kind =>
    refine unless_constant mirrors rfl (by simp [kind]) fun mirrors => ?_
    rw [next_kind mirrors, kind]
    exact skipped_reaches mirrors kind (by simp) _
  case _ kind =>
    refine unless_constant mirrors rfl (by simp [kind]) fun mirrors => ?_
    rw [next_kind mirrors, kind]
    refine past mirrors (by simp) kind fun mirrors passed _ => ?_
    refine .step (previous_runs passed) (Nat.le_refl _) ?_
    refine (expect_reaches mirrors .dotAfterSuper).discard.bind fun _ mirrors _ => ?_
    refine (expectName_reaches mirrors .superMethodName).bind fun _ mirrors _ => ?_
    exact (freshId_reaches mirrors).bind fun _ mirrors _ => .pure mirrors _
  case _ kind =>
    refine unless_constant mirrors rfl (by simp [kind]) fun mirrors => ?_
    rw [next_kind mirrors, kind]
    refine (take_other mirrors (by simp) (by simp [kind])).and_then fun mirrors _ => ?_
    refine past mirrors (by simp) kind fun mirrors passed _ => ?_
    refine .step (freshId_runs mirrors) (Nat.le_refl _) ?_
    exact .step (previous_runs passed) (Nat.le_refl _) (.pure mirrors.draw _)
  case _ kind =>
    refine unless_constant mirrors rfl (by simp [kind]) fun mirrors => ?_
    rw [next_kind mirrors, kind]
    iterate 2 refine (take_other mirrors (by simp) (by simp [kind])).and_then fun mirrors _ => ?_
    refine past mirrors (by simp) kind fun mirrors passed _ => ?_
    refine .step (freshId_runs mirrors) (Nat.le_refl _) ?_
    exact .step (previous_runs passed) (Nat.le_refl _) (.pure mirrors.draw _)
  case _ kind =>
    refine unless_constant mirrors rfl (by simp [kind]) fun mirrors => ?_
    rw [next_kind mirrors, kind]
    iterate 3 refine (take_other mirrors (by simp) (by simp [kind])).and_then fun mirrors _ => ?_
    refine past mirrors (by simp) kind fun mirrors _ _ => ?_
    refine (less.expression mirrors (by omega) (by omega)).bind fun {inner _ _} _ mirrors _ => ?_
    exact (expect_reaches mirrors .parenAfterGrouping).discard.bind fun _ mirrors _ => .pure mirrors _
  case _ notFalse notTrue notNil notNumber notString notSuper notThis notName notParen =>
    refine unless_constant mirrors rfl ⟨notFalse, notTrue, notNil⟩ fun mirrors => ?_
    rw [next_kind mirrors]
    split
    · exact absurd ‹_› (notNumber _)
    · exact absurd ‹_› (notString _)
    refine (take_other mirrors (by simp) notSuper).and_then fun mirrors _ => ?_
    refine (take_other mirrors (by simp) notThis).and_then fun mirrors _ => ?_
    refine (take_other mirrors (by simp) notName).and_then fun mirrors _ => ?_
    refine (take_other mirrors (by simp) notParen).and_then fun mirrors _ => ?_
    exact fail_reaches mirrors _

end More

/-- By induction on the fuel. -/
theorem expressions (tokens : List Token) (last : Token) (fuel : Nat) :
    Expressions tokens last fuel := by
  have calls (level : Level) : 4 ≤ level.calls := by cases level <;> decide
  induction fuel with
  | zero =>
    refine ⟨?_, ?_, ?_, ?_, ?_, ?_, ?_⟩
    · intros; omega
    · intro _ _ _ level; have := calls level; intros; omega
    · intro _ _ _ level; have := calls level; intros; omega
    all_goals intros; omega
  | succ fuel ih =>
    exact {
      expression := expression_reaches ih
      operation := fun level mirrors => operation_reaches ih mirrors level
      operand := fun level mirrors => operand_reaches ih mirrors level
      operationFrom := fun level left ending same mirrors =>
        operationFrom_reaches ih mirrors level left ending same
      unary := unary_reaches ih
      callsFrom := fun callee mirrors => callsFrom_reaches ih mirrors callee
      primary := primary_reaches ih }

end Lox.Cursor
