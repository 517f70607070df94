import Lox.Tree.Parse.Statement

/-! Parsers that are composed of single steps on the state. All parsing consists of such steps and of
declarations that recover, so what holds of single steps and of compositions holds of the former. -/

namespace Lox.Parse

/-- The compositions of single steps. -/
inductive Composed : {α : Type} → Parse α → Prop where
  | pure (value : α) : Composed (Pure.pure value)
  | bind {parse : Parse α} {later : α → Parse β} (first : Composed parse)
      (rest : ∀ value, Composed (later value)) : Composed (parse >>= later)
  | peek : Composed Parse.peek
  | atEnd : Composed Parse.atEnd
  | remaining : Composed Parse.remaining
  | skip : Composed Parse.skip
  | check (word : Terminal) : Composed (Parse.check word)
  | fail (fault : SyntaxFault) : Composed (Parse.fail fault : Parse α)
  | report (error : SyntaxError) : Composed (Parse.report error)
  | freshId : Composed Parse.freshId
  | unaryOperators : Composed Parse.unaryOperators
  | recovering {parse : Parse Stmt} (inside : Composed parse) : Composed (Parse.recovering parse)

variable {α β : Type}

namespace Composed

theorem map {parse : Parse α} (composed : Composed parse) (build : α → β) :
    Composed (build <$> parse) := by
  rw [map_eq_pure_bind]
  exact composed.bind fun _ => .pure _

theorem discard {parse : Parse α} (composed : Composed parse) : Composed (Functor.discard parse) :=
  composed.map _

end Composed

section Steps

theorem take_composed (word : Terminal) : Composed (take word) := by
  apply Composed.bind (.check word)
  intro found
  cases found with
  | true => exact .bind .skip fun _ => .pure _
  | false => exact .pure _

theorem expect_composed (expectation : Expectation) : Composed (expect expectation) := by
  apply Composed.bind .peek
  intro token
  split
  · exact .bind .skip fun _ => .pure _
  · exact .fail _

theorem expectName_composed (expectation : Expectation) : Composed (expectName expectation) :=
  (expect_composed expectation).bind fun _ => .pure _

theorem takeOperator?_composed (operator? : Kind → Option α) : Composed (takeOperator? operator?) := by
  apply Composed.bind .peek
  intro token
  split
  · exact .bind .skip fun _ => .pure _
  · exact .pure _

variable {item : Parse α} (items : Composed item)

include items

theorem commaSeparated_composed (excess : SyntaxFault) (bound count : Nat) :
    Composed (commaSeparated excess item bound count) := by
  induction bound generalizing count with
  | zero => exact .pure _
  | succ bound ih =>
    have others : Composed (item >>= fun first => take .comma >>= fun more => if more then
        commaSeparated excess item bound (count + 1) >>= fun rest => return first :: rest
        else return [first]) := by
      apply items.bind
      intro first
      apply (take_composed .comma).bind
      intro more
      split
      · exact (ih (count + 1)).bind fun _ => .pure _
      · exact .pure _
    simp only [commaSeparated]
    split
    · exact .bind .peek fun _ => .bind (.report _) fun _ => others
    · exact others

theorem listed_composed (excess : SyntaxFault) : Composed (listed excess item) := by
  apply Composed.bind (.check .rightParen)
  intro closed
  split
  · exact .pure _
  · exact .bind .remaining fun count => commaSeparated_composed items excess (count + 1) 0

end Steps

section Expressions

variable {expression : Parse Expr} (inner : Composed expression)

include inner

theorem callArguments_composed (callee : Expr) : Composed (callArguments expression callee) :=
  (listed_composed inner _).bind fun _ => (expect_composed _).bind fun _ => .pure _

theorem primary_composed : Composed (primary expression) := by
  apply Composed.bind .peek
  intro token
  split
  · exact .bind .skip fun _ => .pure _
  · exact .bind .skip fun _ => .pure _
  · exact .bind .skip fun _ => .pure _
  · exact .bind .skip fun _ => .pure _
  · exact .bind .skip fun _ => .pure _
  · apply Composed.bind .skip
    intro _
    apply (expect_composed .dotAfterSuper).discard.bind
    intro _
    apply (expectName_composed .superMethodName).bind
    intro method
    exact .bind .freshId fun _ => .pure _
  · exact .bind .skip fun _ => .bind .freshId fun _ => .pure _
  · exact .bind .skip fun _ => .bind .freshId fun _ => .pure _
  · apply Composed.bind .skip
    intro _
    apply inner.bind
    intro tree
    exact (expect_composed .parenAfterGrouping).discard.bind fun _ => .pure _
  · exact .fail _

theorem callsFrom_composed (bound : Nat) (callee : Expr) :
    Composed (callsFrom expression bound callee) := by
  induction bound generalizing callee with
  | zero => exact .pure _
  | succ bound ih =>
    apply (take_composed .leftParen).bind
    intro called
    split
    · exact (callArguments_composed inner callee).bind ih
    · apply (take_composed .dot).bind
      intro read
      split
      · exact (expectName_composed .propertyName).bind fun _ => ih _
      · exact .pure _

theorem call_composed : Composed (call expression) :=
  (primary_composed inner).bind fun callee =>
    .bind .remaining fun bound => callsFrom_composed inner bound callee

theorem unary_composed : Composed (unary expression) :=
  .bind .unaryOperators fun _ => (call_composed inner).bind fun _ => .pure _

omit inner in
theorem chainFrom_composed {operator? : Kind → Option α} {join : α → Nat → Expr → Expr → Expr}
    {operand : Parse Expr} (operands : Composed operand) (bound : Nat) (left : Expr) :
    Composed (chainFrom operator? join operand bound left) := by
  induction bound generalizing left with
  | zero => exact .pure _
  | succ bound ih =>
    apply (takeOperator?_composed operator?).bind
    intro operator
    split
    · exact operands.bind fun _ => ih _
    · exact .pure _

omit inner in
theorem chain_composed {operator? : Kind → Option α} {join : α → Nat → Expr → Expr → Expr}
    {operand : Parse Expr} (operands : Composed operand) :
    Composed (chain operator? join operand) :=
  operands.bind fun left => .bind .remaining fun bound => chainFrom_composed operands bound left

theorem disjunction_composed : Composed (disjunction expression) := by
  have factors : Composed (factor expression) := chain_composed (unary_composed inner)
  have comparisons : Composed (comparison expression) := chain_composed (chain_composed factors)
  exact chain_composed (chain_composed (chain_composed comparisons))

theorem assignment_composed : Composed (assignment expression) := by
  apply (disjunction_composed inner).bind
  intro target
  apply Composed.bind .peek
  intro equals
  apply (take_composed .equal).bind
  intro assigned
  split
  · apply inner.bind
    intro value
    split
    · exact .bind .freshId fun _ => .pure _
    · exact .pure _
    · exact .bind (.report _) fun _ => .pure _
  · exact .pure _

end Expressions

theorem expressionWithin_composed (depth : Nat) : Composed (expressionWithin depth) := by
  induction depth with
  | zero => exact .fail _
  | succ depth ih => exact assignment_composed ih

theorem expression_composed : Composed expression :=
  .bind .remaining fun depth => expressionWithin_composed (depth + 1)

/-- What a declaration does before it recovers. -/
def declared (statement : Parse Stmt) (declaration : Parse (Option Stmt)) : Parse Stmt := do
  if ← take .kwClass then
    classDeclaration declaration
  else if ← take .kwFun then
    .declareFunction <$> routine .function declaration
  else if ← take .kwVar then
    varDeclaration
  else
    statementAround statement declaration

/-- An expression that is there or not, before what comes after it. -/
theorem optional_composed {later : Option Expr → Parse α} (rest : ∀ value, Composed (later value))
    (present : Bool) :
    Composed (if present then some <$> expression >>= later else pure none >>= later) := by
  cases present with
  | true => exact (expression_composed.map some).bind rest
  | false => exact (Composed.pure none).bind rest

theorem missing_composed {later : Option Expr → Parse α} (rest : ∀ value, Composed (later value))
    (absent : Bool) :
    Composed (if absent then pure none >>= later else some <$> expression >>= later) := by
  cases absent with
  | true => exact optional_composed rest false
  | false => exact optional_composed rest true

section Statements

variable {declaration : Parse (Option Stmt)} (declarations : Composed declaration)

include declarations

theorem declarationsWhile_composed {more : Parse Bool} (continues : Composed more) (bound : Nat) :
    Composed (declarationsWhile more declaration bound) := by
  induction bound with
  | zero => exact .pure _
  | succ bound ih =>
    apply continues.bind
    intro going
    split
    · exact declarations.bind fun _ => ih.bind fun _ => .pure _
    · exact .pure _

omit declarations in
theorem inBlock_composed : Composed inBlock :=
  .bind (.check .rightBrace) fun _ => .bind .atEnd fun _ => .pure _

theorem block_composed : Composed (block declaration) := by
  apply Composed.bind .remaining
  intro bound
  apply (declarationsWhile_composed declarations inBlock_composed bound).bind
  intro body
  exact (expect_composed .braceAfterBlock).discard.bind fun _ => .pure _

theorem routine_composed (kind : RoutineKind) : Composed (routine kind declaration) := by
  apply (expectName_composed (.routineName kind)).bind
  intro name
  apply (expect_composed (.parenAfterRoutineName kind)).discard.bind
  intro _
  apply (listed_composed (expectName_composed .parameterName) .tooManyParameters).bind
  intro parameters
  apply (expect_composed .parenAfterParameters).discard.bind
  intro _
  apply (expect_composed (.braceBeforeRoutineBody kind)).discard.bind
  intro _
  exact (block_composed declarations).bind fun _ => .pure _

theorem methods_composed (bound : Nat) : Composed (methods declaration bound) := by
  induction bound with
  | zero => exact .pure _
  | succ bound ih =>
    apply inBlock_composed.bind
    intro going
    split
    · exact (routine_composed declarations .method).bind fun _ => ih.bind fun _ => .pure _
    · exact .pure _

omit declarations in
theorem superclass?_composed : Composed superclass? := by
  apply (take_composed .less).bind
  intro extended
  split
  · exact (expectName_composed .superclassName).bind fun _ => .bind .freshId fun _ => .pure _
  · exact .pure _

theorem classDeclaration_composed : Composed (classDeclaration declaration) := by
  apply (expectName_composed .className).bind
  intro name
  apply superclass?_composed.bind
  intro superclass
  apply (expect_composed .braceBeforeClassBody).discard.bind
  intro _
  apply Composed.bind .remaining
  intro bound
  apply (methods_composed declarations bound).bind
  intro routines
  exact (expect_composed .braceAfterClassBody).discard.bind fun _ => .pure _

omit declarations in
theorem varDeclaration_composed : Composed varDeclaration := by
  apply (expectName_composed .variableName).bind
  intro name
  apply (take_composed .equal).bind
  apply optional_composed
  intro initializer
  exact (expect_composed .semicolonAfterDeclaration).discard.bind fun _ => .pure _

omit declarations in
theorem expressionStatement_composed : Composed expressionStatement :=
  expression_composed.bind fun _ =>
    (expect_composed .semicolonAfterExpression).discard.bind fun _ => .pure _

omit declarations in
theorem printStatement_composed : Composed printStatement :=
  expression_composed.bind fun _ =>
    (expect_composed .semicolonAfterPrint).discard.bind fun _ => .pure _

omit declarations in
theorem returnStatement_composed (line : Nat) : Composed (returnStatement line) := by
  apply Composed.bind (.check .semicolon)
  apply missing_composed
  intro value
  exact (expect_composed .semicolonAfterReturn).discard.bind fun _ => .pure _

omit declarations in
theorem forInitializer_composed : Composed forInitializer := by
  apply (take_composed .semicolon).bind
  intro absent
  split
  · exact .pure _
  · apply (take_composed .kwVar).bind
    intro declared
    split
    · exact varDeclaration_composed.map some
    · exact expressionStatement_composed.map some

variable {statement : Parse Stmt} (statements : Composed statement)

omit declarations

include statements

theorem whileStatement_composed : Composed (whileStatement statement) := by
  apply (expect_composed .parenAfterWhile).discard.bind
  intro _
  apply expression_composed.bind
  intro condition
  apply (expect_composed .parenAfterWhileCondition).discard.bind
  intro _
  exact statements.bind fun _ => .pure _

theorem ifStatement_composed : Composed (ifStatement statement) := by
  apply (expect_composed .parenAfterIf).discard.bind
  intro _
  apply expression_composed.bind
  intro condition
  apply (expect_composed .parenAfterIfCondition).discard.bind
  intro _
  apply statements.bind
  intro consequent
  apply (take_composed .kwElse).bind
  intro divided
  split
  · exact statements.bind fun _ => .pure _
  · exact .pure _

theorem forStatement_composed : Composed (forStatement statement) := by
  apply (expect_composed .parenAfterFor).discard.bind
  intro _
  apply forInitializer_composed.bind
  intro initializer
  apply Composed.bind (.check .semicolon)
  apply missing_composed
  intro condition
  apply (expect_composed .semicolonAfterLoopCondition).discard.bind
  intro _
  apply Composed.bind (.check .rightParen)
  apply missing_composed
  intro increment
  apply (expect_composed .parenAfterForClauses).discard.bind
  intro _
  exact statements.bind fun _ => .pure _

include declarations

theorem statementAround_composed : Composed (statementAround statement declaration) := by
  apply Composed.bind .peek
  intro token
  split
  · exact .bind .skip fun _ => forStatement_composed statements
  · exact .bind .skip fun _ => ifStatement_composed statements
  · exact .bind .skip fun _ => printStatement_composed
  · exact .bind .skip fun _ => returnStatement_composed _
  · exact .bind .skip fun _ => whileStatement_composed statements
  · exact .bind .skip fun _ => (block_composed declarations).map _
  · exact expressionStatement_composed

theorem declared_composed : Composed (declared statement declaration) := by
  apply (take_composed .kwClass).bind
  intro ofClass
  split
  · exact classDeclaration_composed declarations
  apply (take_composed .kwFun).bind
  intro ofFunction
  split
  · exact (routine_composed declarations .function).map _
  apply (take_composed .kwVar).bind
  intro ofVariable
  split
  · exact varDeclaration_composed
  · exact statementAround_composed declarations statements

theorem declarationAround_composed : Composed (declarationAround statement declaration) :=
  .recovering (declared_composed declarations statements)

end Statements

/-- By induction on how deep statements and declarations are nested. -/
theorem within_composed (depth : Nat) :
    Composed (statementWithin depth) ∧ Composed (declarationWithin depth) := by
  induction depth with
  | zero => exact ⟨.fail _, .recovering (.fail _)⟩
  | succ depth ih =>
    exact ⟨statementAround_composed ih.2 ih.1, declarationAround_composed ih.2 ih.1⟩

end Lox.Parse
