import Lox.Proofs.Parse.Expression

/-! Statements, declarations and programs with other labels, those that fail included. -/

namespace Lox.Parse

variable {α β : Type} {pairing : Pairing}

theorem startsStatement_alike (same : List.Forall₂ (Token.Alike pairing) tokens tokens') :
    startsStatement tokens = startsStatement tokens' := by
  cases same with
  | nil => rfl
  | cons first _ => simp only [startsStatement, first.kind]

theorem nextBoundary_alike (same : List.Forall₂ (Token.Alike pairing) tokens tokens') :
    List.Forall₂ (Token.Alike pairing) (nextBoundary tokens) (nextBoundary tokens') := by
  induction same with
  | nil => exact .nil
  | cons first rest ih =>
    simp only [nextBoundary, ← first.kind, ← startsStatement_alike rest]
    split
    · exact rest
    · exact ih

theorem recovering_relabels {parse parse' : Parse Stmt}
    (relabels : Relabels pairing (Stmt.Alike pairing) parse parse') :
    Relabels pairing (Option.Rel (Stmt.Alike pairing)) (recovering parse) (recovering parse') := by
  intro state state' alike
  have ends := relabels state state' alike
  unfold recovering
  generalize parse state = result at ends ⊢
  generalize parse' state' = result' at ends ⊢
  cases ends with
  | ok same after => exact .ok (.some same) after
  | error reason after => exact .ok .none (after.report reason (nextBoundary_alike after.rest))

/-- An expression that is there or not, before what comes after it. -/
theorem optional_relabels {later : Option Expr → Parse α} {later' : Option Expr → Parse β}
    {final : α → β → Prop} (present : Bool)
    (rest : ∀ value value', Option.Rel (Expr.Alike pairing) value value' →
      Relabels pairing final (later value) (later' value')) :
    Relabels pairing final (if present then some <$> expression >>= later else pure none >>= later)
      (if present then some <$> expression >>= later' else pure none >>= later') := by
  have found : Relabels pairing (Option.Rel (Expr.Alike pairing)) (some <$> expression) (some <$> expression) :=
    expression_relabels.map fun _ _ same => .some same
  have missing : Relabels pairing (Option.Rel (Expr.Alike pairing)) (pure none) (pure none) := .pure .none
  cases present with
  | true => exact found.bind rest
  | false => exact missing.bind rest

theorem missing_relabels {later : Option Expr → Parse α} {later' : Option Expr → Parse β}
    {final : α → β → Prop} (absent : Bool)
    (rest : ∀ value value', Option.Rel (Expr.Alike pairing) value value' →
      Relabels pairing final (later value) (later' value')) :
    Relabels pairing final (if absent then pure none >>= later else some <$> expression >>= later)
      (if absent then pure none >>= later' else some <$> expression >>= later') := by
  cases absent with
  | true => exact optional_relabels false rest
  | false => exact optional_relabels true rest

section Forms

variable {declaration declaration' : Parse (Option Stmt)}
  (declarations : Relabels pairing (Option.Rel (Stmt.Alike pairing)) declaration declaration')

include declarations

theorem declarationsWhile_relabels {more : Parse Bool} (continues : Relabels pairing Eq more more)
    (bound : Nat) :
    Relabels pairing (Stmt.AllAlike pairing) (declarationsWhile more declaration bound)
      (declarationsWhile more declaration' bound) := by
  induction bound with
  | zero => exact .pure .nil
  | succ bound ih =>
    apply continues.bind_eq
    intro going
    split
    · apply declarations.bind
      intro first first' same
      apply ih.bind
      intro rest rest' others
      cases same with
      | none => exact .pure others
      | some same => exact .pure (.cons same others)
    · exact .pure .nil

omit declarations in
theorem inBlock_relabels : Relabels pairing Eq inBlock inBlock :=
  (check_relabels .rightBrace).bind_eq fun _ => atEnd_relabels.bind_eq fun _ => .pure rfl

theorem block_relabels :
    Relabels pairing (Stmt.AllAlike pairing) (block declaration) (block declaration') := by
  apply remaining_relabels.bind_eq
  intro bound
  apply (declarationsWhile_relabels declarations inBlock_relabels bound).bind
  intro body body' same
  exact (expect_relabels .braceAfterBlock).discard.bind_eq fun _ => .pure same

theorem routine_relabels (kind : RoutineKind) :
    Relabels pairing (Routine.Alike pairing) (routine kind declaration) (routine kind declaration') := by
  apply (expectName_relabels (.routineName kind)).bind
  intro name name' same
  apply (expect_relabels (.parenAfterRoutineName kind)).discard.bind_eq
  intro _
  apply (listed_relabels .tooManyParameters (expectName_relabels .parameterName)).bind
  intro parameters parameters' same'
  apply (expect_relabels .parenAfterParameters).discard.bind_eq
  intro _
  apply (expect_relabels (.braceBeforeRoutineBody kind)).discard.bind_eq
  intro _
  exact (block_relabels declarations).bind fun _ _ body => .pure (.routine same same' body)

theorem methods_relabels (bound : Nat) :
    Relabels pairing (Routine.AllAlike pairing) (methods declaration bound)
      (methods declaration' bound) := by
  induction bound with
  | zero => exact .pure .nil
  | succ bound ih =>
    apply inBlock_relabels.bind_eq
    intro going
    split
    · apply (routine_relabels declarations .method).bind
      intro first first' same
      exact ih.bind fun _ _ others => .pure (.cons same others)
    · exact .pure .nil

omit declarations in
theorem superclass?_relabels :
    Relabels pairing (Option.Rel (Superclass.Alike pairing)) superclass? superclass? := by
  apply (take_relabels .less).bind_eq
  intro extended
  split
  · apply (expectName_relabels .superclassName).bind
    intro name name' same
    exact freshId_relabels.bind fun _ _ id => .pure (.some ⟨id, same⟩)
  · exact .pure .none

theorem classDeclaration_relabels :
    Relabels pairing (Stmt.Alike pairing) (classDeclaration declaration) (classDeclaration declaration') := by
  apply (expectName_relabels .className).bind
  intro name name' same
  apply superclass?_relabels.bind
  intro superclass superclass' extended
  apply (expect_relabels .braceBeforeClassBody).discard.bind_eq
  intro _
  apply remaining_relabels.bind_eq
  intro bound
  apply (methods_relabels declarations bound).bind
  intro owned owned' methods
  exact (expect_relabels .braceAfterClassBody).discard.bind_eq fun _ =>
    .pure (.declareClass same extended methods)

omit declarations in
theorem varDeclaration_relabels : Relabels pairing (Stmt.Alike pairing) varDeclaration varDeclaration := by
  apply (expectName_relabels .variableName).bind
  intro name name' same
  apply (take_relabels .equal).bind_eq
  intro assigned
  refine optional_relabels assigned ?_
  intro initializer initializer' same'
  exact (expect_relabels .semicolonAfterDeclaration).discard.bind_eq fun _ =>
    .pure (.declareVar same same')

omit declarations in
theorem expressionStatement_relabels :
    Relabels pairing (Stmt.Alike pairing) expressionStatement expressionStatement :=
  expression_relabels.bind fun _ _ same =>
    (expect_relabels .semicolonAfterExpression).discard.bind_eq fun _ => .pure (.expression same)

omit declarations in
theorem printStatement_relabels : Relabels pairing (Stmt.Alike pairing) printStatement printStatement :=
  expression_relabels.bind fun _ _ same =>
    (expect_relabels .semicolonAfterPrint).discard.bind_eq fun _ => .pure (.print same)

omit declarations in
theorem returnStatement_relabels (line : pairing.lines here there) :
    Relabels pairing (Stmt.Alike pairing) (returnStatement here) (returnStatement there) := by
  apply (check_relabels .semicolon).bind_eq
  intro absent
  refine missing_relabels absent ?_
  intro value value' same
  exact (expect_relabels .semicolonAfterReturn).discard.bind_eq fun _ => .pure (.return line same)

omit declarations in
theorem forInitializer_relabels :
    Relabels pairing (Option.Rel (Stmt.Alike pairing)) forInitializer forInitializer := by
  apply (take_relabels .semicolon).bind_eq
  intro absent
  split
  · exact .pure .none
  · apply (take_relabels .kwVar).bind_eq
    intro declared
    split
    · exact varDeclaration_relabels.map fun _ _ same => .some same
    · exact expressionStatement_relabels.map fun _ _ same => .some same

variable {statement statement' : Parse Stmt}
  (statements : Relabels pairing (Stmt.Alike pairing) statement statement')

omit declarations

include statements

theorem whileStatement_relabels :
    Relabels pairing (Stmt.Alike pairing) (whileStatement statement) (whileStatement statement') := by
  apply (expect_relabels .parenAfterWhile).discard.bind_eq
  intro _
  apply expression_relabels.bind
  intro condition condition' same
  apply (expect_relabels .parenAfterWhileCondition).discard.bind_eq
  intro _
  exact statements.bind fun _ _ body => .pure (.while same body)

theorem ifStatement_relabels :
    Relabels pairing (Stmt.Alike pairing) (ifStatement statement) (ifStatement statement') := by
  apply (expect_relabels .parenAfterIf).discard.bind_eq
  intro _
  apply expression_relabels.bind
  intro condition condition' same
  apply (expect_relabels .parenAfterIfCondition).discard.bind_eq
  intro _
  apply statements.bind
  intro consequent consequent' chosen
  apply (take_relabels .kwElse).bind_eq
  intro divided
  split
  · exact statements.bind fun _ _ other => .pure (.ifElse same chosen other)
  · exact .pure (.ifThen same chosen)

theorem forStatement_relabels :
    Relabels pairing (Stmt.Alike pairing) (forStatement statement) (forStatement statement') := by
  apply (expect_relabels .parenAfterFor).discard.bind_eq
  intro _
  apply forInitializer_relabels.bind
  intro initializer initializer' started
  apply (check_relabels .semicolon).bind_eq
  intro untested
  refine missing_relabels untested ?_
  intro condition condition' tested
  apply (expect_relabels .semicolonAfterLoopCondition).discard.bind_eq
  intro _
  apply (check_relabels .rightParen).bind_eq
  intro unstepped
  refine missing_relabels unstepped ?_
  intro increment increment' stepped
  apply (expect_relabels .parenAfterForClauses).discard.bind_eq
  intro _
  exact statements.bind fun _ _ body => .pure (.forLoop started tested stepped body)

include declarations

theorem statementAround_relabels :
    Relabels pairing (Stmt.Alike pairing) (statementAround statement declaration)
      (statementAround statement' declaration') := by
  apply peek_relabels
  intro kind lexeme here there line
  dsimp only
  split
  · exact skip_relabels.bind_eq fun _ => forStatement_relabels statements
  · exact skip_relabels.bind_eq fun _ => ifStatement_relabels statements
  · exact skip_relabels.bind_eq fun _ => printStatement_relabels
  · exact skip_relabels.bind_eq fun _ => returnStatement_relabels line
  · exact skip_relabels.bind_eq fun _ => whileStatement_relabels statements
  · exact skip_relabels.bind_eq fun _ => (block_relabels declarations).map fun _ _ body => .block body
  · exact expressionStatement_relabels

theorem declarationAround_relabels :
    Relabels pairing (Option.Rel (Stmt.Alike pairing)) (declarationAround statement declaration)
      (declarationAround statement' declaration') := by
  apply recovering_relabels
  apply (take_relabels .kwClass).bind_eq
  intro ofClass
  split
  · exact classDeclaration_relabels declarations
  apply (take_relabels .kwFun).bind_eq
  intro ofFunction
  split
  · exact (routine_relabels declarations .function).map fun _ _ same => .declareFunction same
  apply (take_relabels .kwVar).bind_eq
  intro ofVariable
  split
  · exact varDeclaration_relabels
  · exact statementAround_relabels declarations statements

end Forms

/-- By induction on how deep statements and declarations are nested. -/
theorem within_relabels (depth : Nat) :
    Relabels pairing (Stmt.Alike pairing) (statementWithin depth) (statementWithin depth) ∧
      Relabels pairing (Option.Rel (Stmt.Alike pairing)) (declarationWithin depth)
        (declarationWithin depth) := by
  induction depth with
  | zero => exact ⟨fail_relabels _, recovering_relabels (fail_relabels _)⟩
  | succ depth ih =>
    exact ⟨statementAround_relabels ih.2 ih.1, declarationAround_relabels ih.2 ih.1⟩

theorem program_relabels :
    Relabels pairing (Stmt.AllAlike pairing) program program := by
  apply remaining_relabels.bind_eq
  intro count
  refine declarationsWhile_relabels (within_relabels (count + 1)).2 ?_ count
  exact atEnd_relabels.map fun _ _ same => congrArg not same

end Lox.Parse
