import Lox.Proofs.Grammar.Complete.Basic
import Lox.Proofs.Grammar.Start
import Lox.Tree.Parse.Expression

/-! Expressions of the grammar are accepted. Where an expression is a chain of operands or calls, the
loop that parses it is cut after the expression, because the rest of the chain may belong to a longer
expression of the same level. -/

namespace Lox

namespace Grammar.Level

def rank : Level → Nat
  | assignment => 0
  | disjunction => 1
  | conjunction => 2
  | equality => 3
  | comparison => 4
  | term => 5
  | factor => 6
  | unary => 7
  | call => 8
  | primary => 9

/-- The level at which an expression before a token of a kind would go on. -/
def continued? : Kind → Option Level
  | .terminal .equal => some assignment
  | .terminal .kwOr => some disjunction
  | .terminal .kwAnd => some conjunction
  | .terminal .equalEqual | .terminal .bangEqual => some equality
  | .terminal .greater | .terminal .greaterEqual | .terminal .less | .terminal .lessEqual =>
    some comparison
  | .terminal .plus | .terminal .minus => some term
  | .terminal .star | .terminal .slash => some factor
  | .terminal .leftParen | .terminal .dot => some call
  | _ => none

/-- Whether an expression of a level ends before a token of a kind. -/
def Ends (level : Level) (kind : Kind) : Prop :=
  ∀ own, continued? kind = some own → own.rank < level.rank

theorem Ends.within {kind : Kind} {inner : Level} (ends : Ends outer kind) (inside : outer.rank ≤ inner.rank) :
    Ends inner kind :=
  fun own continues => Nat.lt_of_lt_of_le (ends own continues) inside

theorem rank_le_of_tighter {inner : Level} (step : tighter? level = some inner) :
    level.rank ≤ inner.rank := by
  cases level <;> cases step <;> decide

theorem ends_of_none (none : continued? kind = none) : Ends level kind := by
  intro own continues
  rw [none] at continues
  cases continues

theorem binary?_continued (operates : binary? level kind = some op) :
    continued? kind = some level := by
  cases level <;> simp only [binary?, reduceCtorEq] at operates
  all_goals
    simp only [BinaryOp.equality?, BinaryOp.comparison?, BinaryOp.term?, BinaryOp.factor?] at operates
    split at operates
    all_goals first | rfl | cases operates

theorem logical?_continued (operates : logical? level kind = some op) :
    continued? kind = some level := by
  cases level <;> simp only [logical?, reduceCtorEq] at operates
  all_goals
    simp only [LogicalOp.disjunction?, LogicalOp.conjunction?] at operates
    split at operates
    all_goals first | rfl | cases operates

theorem Ends.binary? {kind : Kind} (ends : Ends level kind) : level.binary? kind = none := by
  cases operates : level.binary? kind with
  | none => rfl
  | some op => exact absurd (ends level (binary?_continued operates)) (Nat.lt_irrefl _)

theorem Ends.logical? {kind : Kind} (ends : Ends level kind) : level.logical? kind = none := by
  cases operates : level.logical? kind with
  | none => rfl
  | some op => exact absurd (ends level (logical?_continued operates)) (Nat.lt_irrefl _)

theorem Ends.ne {kind other : Kind} (ends : Ends level kind) (own : Level)
    (continues : continued? other = some own) (inside : level.rank ≤ own.rank) : kind ≠ other := by
  rintro rfl
  exact absurd (ends own continues) (Nat.not_lt_of_le inside)

theorem ends_before {token : Token} (present : token.Is word)
    (none : continued? (.terminal word) = none) : Ends level token.kind := by
  rw [show token.kind = .terminal word from present]
  exact ends_of_none none

/-- An equals sign goes on with assignments alone. -/
theorem ends_equal {token : Token} (sign : token.Is .equal) : Ends disjunction token.kind := by
  rw [show token.kind = .terminal .equal from sign]
  rintro own ⟨⟩
  decide

theorem ends_primary (kind : Kind) : Ends primary kind := by
  intro own _
  cases own with
  | primary => rename_i continues; unfold continued? at continues; split at continues <;> cases continues
  | _ => decide

/-- The level at which an expression must have ended for its parser to leave it as it is. -/
def guard : Level → Level
  | assignment => assignment
  | level => level.tighter?.getD primary

theorem Ends.guard {kind : Kind} (ends : Ends level kind) : Ends level.guard kind := by
  cases level with
  | assignment => exact ends
  | primary => exact ends
  | _ => exact ends.within (rank_le_of_tighter rfl)

theorem Ends.tighter {level inner : Level} {kind : Kind} (ends : Ends level.guard kind)
    (step : level.tighter? = some inner) : Ends inner kind := by
  cases level <;> cases step <;> exact ends.within (by decide)

/-- An operand ends before an operator of its own chain. -/
theorem ends_binary {inner : Level} (step : tighter? level = some inner)
    (operates : level.binary? kind = some op) :
    Ends level.guard kind := by
  intro own same
  cases (binary?_continued operates).symm.trans same
  cases level <;> cases step <;> first | decide | cases operates

theorem ends_logical {inner : Level} (step : tighter? level = some inner)
    (operates : level.logical? kind = some op) : Ends level.guard kind := by
  intro own same
  cases (logical?_continued operates).symm.trans same
  cases level <;> cases step <;> first | decide | cases operates

end Grammar.Level

theorem Grammar.Opens.headKind (opens : Opens starts input rest) :
    starts (Parse.headKind input) = true := by
  obtain ⟨token, later, rfl, begins, _⟩ := opens
  exact begins

namespace Parse

open Grammar Level

/-- The parser of a level. -/
def levelParser (expression : Parse Expr) : Level → Parse Expr
  | .assignment => assignment expression
  | .disjunction => disjunction expression
  | .conjunction => conjunction expression
  | .equality => equality expression
  | .comparison => comparison expression
  | .term => term expression
  | .factor => factor expression
  | .unary => unary expression
  | .call => call expression
  | .primary => primary expression

/-- What the parser of a level does once it has parsed an expression of that level. -/
def levelLoop (expression : Parse Expr) (bound : Nat) (tree : Expr) : Level → Parse Expr
  | .disjunction => chainFrom LogicalOp.disjunction? .logical (conjunction expression) bound tree
  | .conjunction => chainFrom LogicalOp.conjunction? .logical (equality expression) bound tree
  | .equality => chainFrom BinaryOp.equality? .binary (comparison expression) bound tree
  | .comparison => chainFrom BinaryOp.comparison? .binary (term expression) bound tree
  | .term => chainFrom BinaryOp.term? .binary (factor expression) bound tree
  | .factor => chainFrom BinaryOp.factor? .binary (unary expression) bound tree
  | .call => callsFrom expression bound tree
  | .assignment | .unary | .primary => pure tree

/-- An expression has been parsed, up to the rest of the loop that it may be a part of. -/
def Reaches (expression : Parse Expr) (level : Level) : Form Expr :=
  fun first input tree next rest => ∃ bound, rest.length ≤ bound ∧
    Resumes (levelParser expression level) first input (levelLoop expression bound tree level) next
      rest

variable {expression : Parse Expr}

theorem chainFrom_ends {operator? : Kind → Option α} (absent : operator? (headKind rest) = none) :
    Accepts (chainFrom operator? join operand bound left) first rest left first rest := by
  cases bound with
  | zero => exact .pure
  | succ bound => exact (takeOperator?_absent absent).bind .pure

theorem callsFrom_ends (ends : Ends .call (headKind rest)) :
    Accepts (callsFrom expression bound callee) first rest callee first rest := by
  cases bound with
  | zero => exact .pure
  | succ bound =>
    refine (take_absent (ends.ne .call rfl (by decide))).bind ?_
    exact (take_absent (ends.ne .call rfl (by decide))).bind .pure

theorem Reaches.accepts (reaches : Reaches expression level first input tree next rest)
    (ends : Ends level (headKind rest)) :
    Accepts (levelParser expression level) first input tree next rest := by
  obtain ⟨bound, _, resumes⟩ := reaches
  refine resumes.trans ?_
  cases level with
  | assignment | unary | primary => exact Accepts.pure
  | disjunction | conjunction => exact chainFrom_ends ends.logical?
  | equality | comparison | term | factor => exact chainFrom_ends ends.binary?
  | call => exact callsFrom_ends ends

theorem Reaches.done (accepts : Accepts (levelParser expression level) first input tree next rest)
    (plain : ∀ bound, levelLoop expression bound tree level = pure tree) :
    Reaches expression level first input tree next rest :=
  ⟨rest.length, Nat.le_refl _, by rw [plain]; exact accepts⟩

theorem leadingUnary_none (absent : UnaryOp.ofKind? (headKind input) = none) :
    leadingUnary input = ([], input) := by
  cases input with
  | nil => rfl
  | cons token rest =>
    unfold leadingUnary
    rw [show UnaryOp.ofKind? token.kind = none from absent]

theorem ofKind?_none (starts : startsPrimary kind = true) : UnaryOp.ofKind? kind = none := by
  unfold UnaryOp.ofKind?
  split
  · cases starts
  · cases starts
  · rfl

theorem unary_operand (starts : startsPrimary (headKind input) = true)
    (accepts : Accepts (call expression) first input tree next rest) :
    Accepts (unary expression) first input tree next rest := by
  have operators : Accepts unaryOperators first input [] first input := by
    intro endLine errors
    simp only [unaryOperators, leadingUnary_none (ofKind?_none starts)]
    rfl
  exact operators.bind (accepts.bind .pure)

theorem unary_state (expression : Parse Expr) (state : State) :
    unary expression state =
      match call expression { state with rest := (leadingUnary state.rest).2 } with
      | .ok operand after => .ok ((leadingUnary state.rest).1.foldr
          (fun (op, line) inner => .unary op line inner) operand) after
      | .error error after => .error error after := by
  change (call expression >>= _) _ = _
  rw [bind_apply]
  cases call expression _ <;> rfl

theorem unary_operator (operates : UnaryOp.ofKind? operator.kind = some op)
    (accepts : Accepts (unary expression) first input operand next rest) :
    Accepts (unary expression) first (operator :: input) (.unary op operator.line operand) next
      rest := by
  intro endLine errors
  have inner := accepts endLine errors
  rw [unary_state] at inner ⊢
  simp only [leadingUnary, operates]
  split at inner
  · rename_i called
    rw [called]
    cases inner
    rfl
  · cases inner

theorem chain_reaches {operator? : Kind → Option α}
    (accepts : Accepts operand first input tree next rest) :
    Resumes (chain operator? join operand) first input
      (chainFrom operator? join operand rest.length tree) next rest :=
  accepts.resume (remaining_accepts.resume fun _ _ => rfl)

/-- An operand is an expression of the level whose operators it may stand between. -/
theorem Reaches.outward {inner : Level} (reaches : Reaches expression inner first input tree next rest)
    (level : Level) (step : level.tighter? = some inner) (ends : Ends level.guard (headKind rest))
    (starts : inner.starts (headKind input) = true) :
    Reaches expression level first input tree next rest := by
  cases level with
  | primary => cases step
  | assignment =>
    cases step
    refine .done ?_ fun _ => rfl
    refine (reaches.accepts (ends.within (by decide))).bind ?_
    have absent : headKind rest ≠ .terminal .equal := ends.ne .assignment rfl (by decide)
    exact peek_resumes fun equals => (take_absent absent).bind .pure
  | unary =>
    cases step
    exact .done (unary_operand starts (reaches.accepts ends)) fun _ => rfl
  | call =>
    cases step
    exact ⟨_, Nat.le_refl _, (reaches.accepts ends).resume (remaining_accepts.resume fun _ _ => rfl)⟩
  | _ =>
    cases step
    exact ⟨_, Nat.le_refl _, chain_reaches (reaches.accepts ends)⟩

/-- A call or property read stands for an expression that takes no assignment. -/
theorem Reaches.target (reaches : Reaches expression .call first input tree next rest)
    (ends : Ends .disjunction (headKind rest)) (starts : startsPrimary (headKind input) = true) :
    Accepts (disjunction expression) first input tree next rest := by
  have opens : startsExpression (headKind input) = true := by simp [startsExpression, starts]
  have unary := reaches.outward .unary rfl (ends.within (by decide)) starts
  have factor := unary.outward .factor rfl (ends.within (by decide)) opens
  have term := factor.outward .term rfl (ends.within (by decide)) opens
  have comparison := term.outward .comparison rfl (ends.within (by decide)) opens
  have equality := comparison.outward .equality rfl (ends.within (by decide)) opens
  have conjunction := equality.outward .conjunction rfl (ends.within (by decide)) opens
  have disjunction := conjunction.outward .disjunction rfl (ends.within (by decide)) opens
  exact disjunction.accepts ends

theorem primary_literal (denotes : literal? token.kind = some value) :
    Accepts (primary expression) first (token :: rest) (.literal value) first rest := by
  refine peek_accepts.bind ?_
  unfold literal? at denotes
  split at denotes
  case h_6 => cases denotes
  all_goals
    rename_i same
    rw [same]
    cases denotes
    exact skip_accepts.bind .pure

theorem primary_read (refers : token.IsName) :
    Accepts (primary expression) first (token :: rest) (.read first token.toName) (first + 1)
      rest := by
  refine peek_accepts.bind ?_
  rw [show _ = Kind.identifier from refers]
  exact skip_accepts.bind (freshId_accepts.bind .pure)

/-- A loop with one pass for each token at most has a pass left while there are tokens. -/
theorem pass_resumes {loop after : Nat → Parse α}
    (before : ∃ bound, (begins :: later).length ≤ bound ∧
      Resumes whole first input (loop bound) middle (begins :: later))
    (pass : ∀ bound, Resumes (loop (bound + 1)) middle (begins :: later) (after bound) next rest)
    (short : rest.length ≤ later.length) :
    ∃ bound, rest.length ≤ bound ∧ Resumes whole first input (after bound) next rest := by
  obtain ⟨bound, bounded, resumes⟩ := before
  cases bound with
  | zero => simp at bounded
  | succ bound =>
    simp only [List.length_cons] at bounded
    exact ⟨bound, by omega, resumes.trans (pass bound)⟩

/-- A chain takes one more operator and operand. -/
theorem chain_joins {operator? : Kind → Option α} {join : α → Nat → Expr → Expr → Expr}
    (before : ∃ bound, (operator :: later).length ≤ bound ∧
      Resumes whole first input (chainFrom operator? join operand bound left) middle
        (operator :: later))
    (operates : operator? operator.kind = some op)
    (after : Accepts operand middle later right next rest) (short : rest.length ≤ later.length) :
    ∃ bound, rest.length ≤ bound ∧
      Resumes whole first input
        (chainFrom operator? join operand bound (join op operator.line left right)) next rest := by
  refine pass_resumes before (fun bound => ?_) short
  exact (takeOperator?_present operates).resume (after.resume fun _ _ => rfl)

theorem Reaches.binary {inner : Level}
    (before : Reaches expression level first input left middle (operator :: later))
    (step : level.tighter? = some inner) (operates : level.binary? operator.kind = some op)
    (after : Accepts (levelParser expression inner) middle later right next rest)
    (short : rest.length ≤ later.length) :
    Reaches expression level first input (.binary op operator.line left right) next rest := by
  cases level with
  | equality | comparison | term | factor =>
    cases step
    exact chain_joins before operates after short
  | _ => cases operates

theorem Reaches.logical {inner : Level}
    (before : Reaches expression level first input left middle (operator :: later))
    (step : level.tighter? = some inner) (operates : level.logical? operator.kind = some op)
    (after : Accepts (levelParser expression inner) middle later right next rest)
    (short : rest.length ≤ later.length) :
    Reaches expression level first input (.logical op operator.line left right) next rest := by
  cases level with
  | disjunction | conjunction =>
    cases step
    exact chain_joins before operates after short
  | _ => cases operates

theorem Reaches.get
    (receiver : Reaches expression .call first input object next (dot :: name :: rest))
    (access : dot.Is .dot) (property : name.IsName) :
    Reaches expression .call first input (.get object name.toName) next rest := by
  have other : headKind (dot :: name :: rest) ≠ .terminal .leftParen := by
    rw [show headKind (dot :: _) = Kind.terminal .dot from access]
    simp
  refine pass_resumes receiver (fun bound => ?_) (Nat.le_succ _)
  refine (take_absent other).resume ((take_present access).resume ?_)
  exact Accepts.resume (expectName_accepts property) fun _ _ => rfl

theorem Reaches.call
    (applied : Reaches expression .call first input callee middle (opening :: later))
    (opens : opening.Is .leftParen)
    (given : Accepts (listed .tooManyArguments expression) middle later arguments next
      (closing :: rest))
    (closes : closing.Is .rightParen) (short : rest.length ≤ later.length) :
    Reaches expression .call first input (.call callee closing.line arguments) next rest := by
  have called : Accepts (callArguments expression callee) middle later
      (.call callee closing.line arguments) next rest := by
    refine given.bind ?_
    exact Accepts.bind (expect_accepts closes) .pure
  refine pass_resumes applied (fun bound => ?_) short
  exact (take_present opens).resume (called.resume fun _ _ => rfl)

theorem Reaches.assign (target : name.IsName) (sign : equals.Is .equal)
    (assigned : Accepts expression (first + 1) input value next rest) :
    Reaches expression .assignment first (name :: equals :: input) (.assign next name.toName value)
      (next + 1) rest := by
  have starts : startsPrimary (headKind (name :: equals :: input)) = true := by
    simp [headKind, startsPrimary, show name.kind = _ from target]
  have read : Reaches expression .primary first (name :: equals :: input)
      (.read first name.toName) (first + 1) (equals :: input) :=
    .done (primary_read target) fun _ => rfl
  have parsed := (read.outward .call rfl (ends_primary _) starts).target (ends_equal sign) starts
  refine .done (parsed.bind (peek_accepts.bind ?_)) fun _ => rfl
  exact (take_present sign).bind (assigned.bind (freshId_accepts.bind .pure))

theorem Reaches.set
    (receiver : Reaches expression .call first input object middle
      (dot :: name :: equals :: later))
    (starts : startsPrimary (headKind input) = true)
    (access : dot.Is .dot) (property : name.IsName) (sign : equals.Is .equal)
    (assigned : Accepts expression middle later value next rest) :
    Reaches expression .assignment first input (.set object name.toName value) next rest := by
  have parsed := (receiver.get access property).target (ends_equal sign) starts
  refine .done (parsed.bind (peek_accepts.bind ?_)) fun _ => rfl
  exact (take_present sign).bind (assigned.bind .pure)

section

variable {size : Nat}
  (nested : ∀ {first input tree next rest}, Expression .assignment first input tree next rest →
    input.length ≤ size → Ends .assignment (headKind rest) →
    Accepts expression first input tree next rest)

include nested

theorem arguments_accepts (given : Listed (Expression .assignment) first input arguments next rest)
    (small : input.length ≤ size) (closes : headKind rest = .terminal .rightParen) :
    Accepts (listed .tooManyArguments expression) first input arguments next rest := by
  refine listed_accepts ?_ ?_ ?_ given small closes
  · intro _ _ _ _ _ item fits ends
    refine nested item fits (ends_of_none ?_)
    rcases ends with ends | ends <;> rw [ends] <;> rfl
  · intro _ _ _ _ _ item
    exact Nat.le_of_lt item.opens.shorter
  · intro _ _ _ _ _ item
    exact headKind_ne startsExpression item.opens.headKind rfl

/-- The tokens of an expression are parsed as that expression if no token follows with which it
would go on. The parser of nested expressions must do so for all that are shorter. -/
theorem reaches_of_expression : Expression level first input tree next rest →
    input.length ≤ size + 1 → Ends level.guard (headKind rest) →
    Reaches expression level first input tree next rest
  | .assign target sign assigned, small, ends => by
    simp only [List.length_cons] at small
    exact .assign target sign (nested assigned (by omega) ends)
  | .set receiver access property sign assigned, small, ends => by
    have long := receiver.opens.shorter
    simp only [List.length_cons] at long
    exact (reaches_of_expression receiver small (ends_primary _)).set receiver.opens.headKind access
      property sign (nested assigned (by omega) ends)
  | .pass step same, small, ends =>
    (reaches_of_expression same small (ends.tighter step).guard).outward level step ends
      same.opens.headKind
  | .binary step before operates after, small, ends => by
    have short := after.opens.shorter
    have long := before.opens.shorter
    simp only [List.length_cons] at long
    have ends := ends.tighter step
    exact .binary (reaches_of_expression before small (ends_binary step operates)) step operates
      ((reaches_of_expression after (by omega) ends.guard).accepts ends) (Nat.le_of_lt short)
  | .logical step before operates after, small, ends => by
    have short := after.opens.shorter
    have long := before.opens.shorter
    simp only [List.length_cons] at long
    have ends := ends.tighter step
    exact .logical (reaches_of_expression before small (ends_logical step operates)) step operates
      ((reaches_of_expression after (by omega) ends.guard).accepts ends) (Nat.le_of_lt short)
  | .unary operates inside, small, ends => by
    simp only [List.length_cons] at small
    obtain ⟨_, _, operand⟩ := reaches_of_expression inside (by omega) ends
    exact .done (unary_operator operates operand) fun _ => rfl
  | .call applied opens given closes, small, ends => by
    have short := given.suffix.length_le
    have long := applied.opens.shorter
    simp only [List.length_cons] at short long
    exact (reaches_of_expression applied small (ends_primary _)).call opens
      (arguments_accepts nested given (by omega) closes) closes (by omega)
  | .get receiver access property, small, ends =>
    (reaches_of_expression receiver small (ends_primary _)).get access property
  | .literal denotes, _, _ => .done (primary_literal denotes) fun _ => rfl
  | .read refers, _, _ => .done (primary_read refers) fun _ => rfl
  | .this refers, _, _ => by
    refine .done (peek_accepts.bind ?_) fun _ => rfl
    rw [show _ = Kind.terminal .kwThis from refers]
    exact skip_accepts.bind (freshId_accepts.bind .pure)
  | .super refers access method, _, _ => by
    refine .done (peek_accepts.bind ?_) fun _ => rfl
    rw [show _ = Kind.terminal .kwSuper from refers]
    refine skip_accepts.bind (Accepts.bind (discard_expect_accepts access) ?_)
    exact Accepts.bind (expectName_accepts method) (freshId_accepts.bind .pure)
  | .grouping opens inside closes, small, _ => by
    simp only [List.length_cons] at small
    refine .done (peek_accepts.bind ?_) fun _ => rfl
    rw [show _ = Kind.terminal .leftParen from opens]
    refine skip_accepts.bind ((nested inside (by omega) (ends_before closes rfl)).bind ?_)
    exact Accepts.bind (discard_expect_accepts closes) .pure

end

theorem expressionWithin_accepts (depth : Nat)
    (form : Expression .assignment first input tree next rest) (small : input.length ≤ depth)
    (ends : Ends .assignment (headKind rest)) :
    Accepts (expressionWithin depth) first input tree next rest := by
  induction depth generalizing first input tree next rest with
  | zero =>
    have long := form.opens.shorter
    omega
  | succ depth ih =>
    exact (reaches_of_expression (fun form small ends => ih form small ends) form small
      ends).accepts ends

/-- An expression is parsed as such if no token follows with which it would go on. -/
theorem expression_accepts (form : Expression .assignment first input tree next rest)
    (ends : Ends .assignment (headKind rest)) :
    Accepts Parse.expression first input tree next rest :=
  remaining_accepts.bind (expressionWithin_accepts _ form (Nat.le_succ _) ends)

end Parse

end Lox
