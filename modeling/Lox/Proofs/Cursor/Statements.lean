import Lox.Proofs.Cursor.Expressions
import Lox.Proofs.Cursor.Statement
import Lox.Proofs.Parse.Settles

/-! Both parsers read statements and declarations alike, with fuel in proportion to the tokens to come. -/

namespace Lox.Cursor

variable {tokens : List Token} {last : Token} {cursor : State} {state : Parse.State} {fuel : Nat}

section Simple

variable (mirrors : Mirrors tokens last cursor state)

include mirrors

theorem whole_expression_reaches (fueled : 20 * state.rest.length + 15 ≤ fuel) :
    Reaches tokens last (expression fuel) cursor (Parse.expression state) :=
  (expressions tokens last fuel).expression mirrors (Nat.lt_succ_self _) fueled

theorem some_expression_reaches (fueled : 20 * state.rest.length + 15 ≤ fuel) :
    Reaches tokens last (some <$> expression fuel) cursor ((some <$> Parse.expression) state) :=
  (whole_expression_reaches mirrors fueled).map some

theorem superclass?_reaches :
    Reaches tokens last superclass? cursor (Parse.superclass? state) := by
  refine (take_reaches mirrors .less).bind fun {extended _ _} _ mirrors _ => ?_
  cases extended with
  | true =>
    refine (expectName_reaches mirrors .superclassName).bind fun _ mirrors _ => ?_
    exact (freshId_reaches mirrors).bind fun _ mirrors _ => .pure mirrors _
  | false => exact .pure mirrors _

theorem varDeclaration_reaches (fueled : 20 * state.rest.length + 15 ≤ fuel) :
    Reaches tokens last (varDeclaration fuel) cursor (Parse.varDeclaration state) := by
  refine (expectName_reaches mirrors .variableName).bind fun {name _ _} _ between forward => ?_
  have short := mirrors.shorter between forward
  refine (take_reaches between .equal).bind fun {assigned _ _} _ after onward => ?_
  have shorter := between.shorter after onward
  cases assigned with
  | true =>
    refine (some_expression_reaches after (by omega)).bind fun _ mirrors _ => ?_
    exact (expect_reaches mirrors _).discard.bind fun _ mirrors _ => .pure mirrors _
  | false => exact (expect_reaches after _).discard.bind fun _ mirrors _ => .pure mirrors _

theorem expressionStatement_reaches (fueled : 20 * state.rest.length + 15 ≤ fuel) :
    Reaches tokens last (expressionStatement fuel) cursor (Parse.expressionStatement state) := by
  refine (whole_expression_reaches mirrors fueled).bind fun _ mirrors _ => ?_
  exact (expect_reaches mirrors _).discard.bind fun _ mirrors _ => .pure mirrors _

theorem printStatement_reaches (fueled : 20 * state.rest.length + 15 ≤ fuel) :
    Reaches tokens last (printStatement fuel) cursor (Parse.printStatement state) := by
  refine (whole_expression_reaches mirrors fueled).bind fun _ mirrors _ => ?_
  exact (expect_reaches mirrors _).discard.bind fun _ mirrors _ => .pure mirrors _

/-- An expression that is there unless the given word is, before what comes after it. -/
theorem missing_reaches {later : Option Expr → Cursor Stmt} {later' : Option Expr → Parse Stmt}
    (word : Terminal) (fueled : 20 * state.rest.length + 15 ≤ fuel)
    (rest : ∀ {value cursor ended}, Mirrors tokens last cursor ended →
      ended.rest.length ≤ state.rest.length →
      Reaches tokens last (later value) cursor (later' value ended)) :
    Reaches tokens last
      (check (.terminal word) >>= fun absent =>
        if absent then pure none >>= later else some <$> expression fuel >>= later) cursor
      ((Parse.check word >>= fun absent =>
        if absent then pure none >>= later' else some <$> Parse.expression >>= later') state) := by
  refine (checkWord_reaches mirrors word).bind fun {absent _ _} checked mirrors _ => ?_
  cases checked
  cases absent : state.peek.kind == .terminal word with
  | true => exact rest mirrors (Nat.le_refl _)
  | false =>
    refine (some_expression_reaches mirrors fueled).bind fun _ after forward => ?_
    exact rest after (mirrors.shorter after forward)

theorem returnStatement_reaches (passed : cursor.Passed tokens keyword)
    (fueled : 20 * state.rest.length + 15 ≤ fuel) :
    Reaches tokens last (returnStatement fuel) cursor
      (Parse.returnStatement keyword.line state) := by
  refine .step (previous_runs passed) (Nat.le_refl _) ?_
  refine missing_reaches mirrors .semicolon fueled fun mirrors _ => ?_
  exact (expect_reaches mirrors _).discard.bind fun _ mirrors _ => .pure mirrors _

theorem forInitializer_reaches (fueled : 20 * state.rest.length + 15 ≤ fuel) :
    Reaches tokens last (forInitializer fuel) cursor (Parse.forInitializer state) := by
  refine (take_reaches mirrors .semicolon).bind fun {absent _ _} _ between forward => ?_
  have short := mirrors.shorter between forward
  cases absent with
  | true => exact .pure between _
  | false =>
    refine (take_reaches between .kwVar).bind fun {declared _ _} _ after onward => ?_
    have shorter := between.shorter after onward
    cases declared with
    | true => exact (varDeclaration_reaches after (by omega)).map some
    | false => exact (expressionStatement_reaches after (by omega)).map some

end Simple

section Recovery

variable {buffer : List Token} {parse : Cursor Stmt} {start ended stopped : State}

theorem tryCatch_ok {parse : Cursor α} {handle : SyntaxError → Cursor α}
    (ran : parse buffer start = some (.ok value, ended)) :
    tryCatch parse handle buffer start = some (.ok value, ended) := by
  change (parse buffer start >>= _) = _
  rw [ran]
  rfl

theorem tryCatch_error {parse : Cursor α} {handle : SyntaxError → Cursor α}
    (ran : parse buffer start = some (.error error, ended)) :
    tryCatch parse handle buffer start = handle error buffer ended := by
  change (parse buffer start >>= _) = _
  rw [ran]
  rfl

theorem recovering_ok (ran : parse buffer start = some (.ok stmt, ended)) :
    recovering fuel parse buffer start = some (.ok (some stmt),
      { ended with declarations := ⟨start.current, ended.current⟩ :: ended.declarations }) := by
  have mapped : (some <$> parse) buffer start = some (.ok (some stmt), ended) := by
    change (parse >>= fun stmt => pure (some stmt)) buffer start = _
    exact bind_ok ran
  exact bind_ok (tryCatch_ok mapped)

theorem recovering_error (ran : parse buffer start = some (.error error, ended))
    (passed : synchronize fuel buffer { ended with errors := ended.errors.push error } =
      some (.ok (), stopped)) :
    recovering fuel parse buffer start = some (.ok none,
      { stopped with declarations := ⟨start.current, stopped.current⟩ :: stopped.declarations }) := by
  have mapped : (some <$> parse) buffer start = some (.error error, ended) := by
    change (parse >>= fun stmt => pure (some stmt)) buffer start = _
    exact bind_error ran
  exact bind_ok ((tryCatch_error mapped).trans (bind_ok passed))

end Recovery

/-- A declaration that starts before the end passes over a token, also where it fails. -/
theorem recovering_reaches {parse : Cursor Stmt} {other : Parse Stmt}
    (reaches : Reaches tokens last parse cursor (other state))
    (mirrors : Mirrors tokens last cursor state) (begun : state.rest ≠ [])
    (fueled : state.rest.length < fuel) (settles : Parse.Settles (Parse.recovering other)) :
    Reaches tokens last (recovering fuel parse) cursor (Parse.recovering other state) := by
  obtain ⟨stmt?, after, settled, less, _⟩ := settles state begun
  have place := mirrors.length
  unfold Reaches at reaches
  generalize ran : parse (tokens ++ [last]) cursor = outcome at reaches
  rw [settled]
  unfold Parse.recovering at settled
  generalize other state = result at reaches settled
  cases reaches with
  | @ok ended _ _ ends forward =>
    cases settled
    have stops := ends.length
    unfold Reaches
    rw [recovering_ok ran]
    refine .ok { ends with progress := ?_ } forward
    rintro span (_ | ⟨_, earlier⟩) early
    · change cursor.current < ended.current
      omega
    · exact ends.progress span earlier early
  | @error ended failed error ends forward =>
    cases settled
    have stops := ends.length
    have few := mirrors.shorter ends forward
    have begun : failed.rest = [] → 0 < ended.current := by
      intro none
      have := List.length_pos_iff.mpr begun
      simp only [none, List.length_nil] at stops
      omega
    have fueled : failed.rest.length < fuel := by omega
    obtain ⟨stopped, passed, mirrors, onward⟩ :=
      (synchronize_reaches (ends.report error) begun fueled).runs
    have stops := mirrors.length
    unfold Reaches
    rw [recovering_error ran passed]
    refine .ok { mirrors with progress := ?_ } (Nat.le_trans forward onward)
    rintro span (_ | ⟨_, earlier⟩) early
    · change cursor.current < stopped.current
      dsimp only at stops less
      omega
    · exact mirrors.progress span earlier early

/-- Past a token that is met by both. -/
theorem expected {later : Unit → Cursor α} {later' : Unit → Parse α}
    (mirrors : Mirrors tokens last cursor state) (expectation : Expectation)
    (rest : ∀ {cursor ended}, Mirrors tokens last cursor ended →
      ended.rest.length + 1 = state.rest.length →
      Reaches tokens last (later ()) cursor (later' () ended)) :
    Reaches tokens last (discard (expect expectation) >>= later) cursor
      ((discard (Parse.expect expectation) >>= later') state) :=
  (expect_reaches mirrors expectation).discard.bind fun met mirrors _ =>
    rest mirrors (Parse.discard_expect_shorter met).1

/-- With so much fuel, statements and declarations are the same. -/
structure Statements (tokens : List Token) (last : Token) (fuel : Nat) : Prop where
  statement : ∀ {cursor state depth}, Mirrors tokens last cursor state →
    state.rest.length < depth → 20 * state.rest.length + 16 ≤ fuel →
    Reaches tokens last (statement fuel) cursor (Parse.statementWithin depth state)
  forStatement : ∀ {cursor state depth}, Mirrors tokens last cursor state →
    state.rest.length ≤ depth → 20 * state.rest.length + 1 ≤ fuel →
    Reaches tokens last (forStatement fuel) cursor
      (Parse.forStatement (Parse.statementWithin depth) state)
  ifStatement : ∀ {cursor state depth}, Mirrors tokens last cursor state →
    state.rest.length ≤ depth → 20 * state.rest.length + 1 ≤ fuel →
    Reaches tokens last (ifStatement fuel) cursor
      (Parse.ifStatement (Parse.statementWithin depth) state)
  whileStatement : ∀ {cursor state depth}, Mirrors tokens last cursor state →
    state.rest.length ≤ depth → 20 * state.rest.length + 1 ≤ fuel →
    Reaches tokens last (whileStatement fuel) cursor
      (Parse.whileStatement (Parse.statementWithin depth) state)
  declaration : ∀ {cursor state depth}, Mirrors tokens last cursor state → state.rest ≠ [] →
    state.rest.length < depth → 20 * state.rest.length + 18 ≤ fuel →
    Reaches tokens last (declaration fuel) cursor (Parse.declarationWithin depth state)
  declared : ∀ {cursor state depth}, Mirrors tokens last cursor state →
    state.rest.length ≤ depth → 20 * state.rest.length + 17 ≤ fuel →
    Reaches tokens last (declared fuel) cursor
      (Parse.declared (Parse.statementWithin depth) (Parse.declarationWithin depth) state)
  declarations : ∀ {cursor state depth bound}, Mirrors tokens last cursor state →
    state.rest.length < depth → state.rest.length ≤ bound → 20 * state.rest.length + 19 ≤ fuel →
    Reaches tokens last (declarations fuel) cursor
      (Parse.declarationsWhile Parse.inBlock (Parse.declarationWithin depth) bound state)
  block : ∀ {cursor state depth}, Mirrors tokens last cursor state →
    state.rest.length < depth → 20 * state.rest.length + 20 ≤ fuel →
    Reaches tokens last (block fuel) cursor (Parse.block (Parse.declarationWithin depth) state)
  routine : ∀ {cursor state depth} kind, Mirrors tokens last cursor state →
    state.rest.length ≤ depth → 20 * state.rest.length + 1 ≤ fuel →
    Reaches tokens last (routine fuel kind) cursor
      (Parse.routine kind (Parse.declarationWithin depth) state)
  methods : ∀ {cursor state depth bound}, Mirrors tokens last cursor state →
    state.rest.length ≤ depth → state.rest.length ≤ bound → 20 * state.rest.length + 2 ≤ fuel →
    Reaches tokens last (methods fuel) cursor
      (Parse.methods (Parse.declarationWithin depth) bound state)
  classDeclaration : ∀ {cursor state depth}, Mirrors tokens last cursor state →
    state.rest.length ≤ depth → 20 * state.rest.length + 3 ≤ fuel →
    Reaches tokens last (classDeclaration fuel) cursor
      (Parse.classDeclaration (Parse.declarationWithin depth) state)

section More

variable {depth bound : Nat} (less : Statements tokens last fuel)
  (mirrors : Mirrors tokens last cursor state)

include less mirrors

theorem whileStatement_reaches (deep : state.rest.length ≤ depth)
    (fueled : 20 * state.rest.length + 1 ≤ fuel + 1) :
    Reaches tokens last (whileStatement (fuel + 1)) cursor
      (Parse.whileStatement (Parse.statementWithin depth) state) := by
  refine expected mirrors .parenAfterWhile fun opened _ => ?_
  refine (whole_expression_reaches opened (by omega)).bind fun _ between forward => ?_
  have short := opened.shorter between forward
  refine expected between .parenAfterWhileCondition fun closed _ => ?_
  exact (less.statement closed (by omega) (by omega)).bind fun _ mirrors _ => .pure mirrors _

theorem ifStatement_reaches (deep : state.rest.length ≤ depth)
    (fueled : 20 * state.rest.length + 1 ≤ fuel + 1) :
    Reaches tokens last (ifStatement (fuel + 1)) cursor
      (Parse.ifStatement (Parse.statementWithin depth) state) := by
  refine expected mirrors .parenAfterIf fun opened _ => ?_
  refine (whole_expression_reaches opened (by omega)).bind fun _ between forward => ?_
  have short := opened.shorter between forward
  refine expected between .parenAfterIfCondition fun closed _ => ?_
  refine (less.statement closed (by omega) (by omega)).bind fun _ mirrors forward => ?_
  have short := closed.shorter mirrors forward
  refine (take_reaches mirrors .kwElse).bind fun {divided _ _} taken mirrors _ => ?_
  cases divided with
  | true =>
    have passed := (Parse.take_shorter taken).1
    exact (less.statement mirrors (by omega) (by omega)).bind fun _ mirrors _ => .pure mirrors _
  | false => exact .pure mirrors _

theorem forStatement_reaches (deep : state.rest.length ≤ depth)
    (fueled : 20 * state.rest.length + 1 ≤ fuel + 1) :
    Reaches tokens last (forStatement (fuel + 1)) cursor
      (Parse.forStatement (Parse.statementWithin depth) state) := by
  refine expected mirrors .parenAfterFor fun opened _ => ?_
  refine (forInitializer_reaches opened (by omega)).bind fun _ between forward => ?_
  have short := opened.shorter between forward
  refine missing_reaches between .semicolon (by omega) fun mirrors _ => ?_
  refine expected mirrors .semicolonAfterLoopCondition fun mirrors _ => ?_
  refine missing_reaches mirrors .rightParen (by omega) fun mirrors _ => ?_
  refine expected mirrors .parenAfterForClauses fun mirrors _ => ?_
  exact (less.statement mirrors (by omega) (by omega)).bind fun _ mirrors _ => .pure mirrors _

theorem statement_reaches (deep : state.rest.length < depth)
    (fueled : 20 * state.rest.length + 16 ≤ fuel + 1) :
    Reaches tokens last (statement (fuel + 1)) cursor (Parse.statementWithin depth state) := by
  obtain ⟨depth, rfl⟩ := Nat.exists_eq_add_one_of_ne_zero (Nat.ne_zero_of_lt deep)
  unfold Parse.statementWithin Parse.statementAround
  rw [Parse.peek_bind]
  change Follows tokens last _ _ cursor state
  split
  case _ kind =>
    exact past mirrors (by simp) kind fun mirrors _ _ => less.forStatement mirrors (by omega) (by omega)
  case _ kind =>
    refine (take_other mirrors (by simp) (by simp [kind])).and_then fun mirrors _ => ?_
    exact past mirrors (by simp) kind fun mirrors _ _ => less.ifStatement mirrors (by omega) (by omega)
  case _ kind =>
    iterate 2 refine (take_other mirrors (by simp) (by simp [kind])).and_then fun mirrors _ => ?_
    exact past mirrors (by simp) kind fun mirrors _ _ => printStatement_reaches mirrors (by omega)
  case _ kind =>
    iterate 3 refine (take_other mirrors (by simp) (by simp [kind])).and_then fun mirrors _ => ?_
    exact past mirrors (by simp) kind fun mirrors passed _ =>
      returnStatement_reaches mirrors passed (by omega)
  case _ kind =>
    iterate 4 refine (take_other mirrors (by simp) (by simp [kind])).and_then fun mirrors _ => ?_
    exact past mirrors (by simp) kind fun mirrors _ _ => less.whileStatement mirrors (by omega) (by omega)
  case _ kind =>
    iterate 5 refine (take_other mirrors (by simp) (by simp [kind])).and_then fun mirrors _ => ?_
    refine past mirrors (by simp) kind fun mirrors _ _ => ?_
    exact (less.block mirrors (by omega) (by omega)).map _
  case _ notFor notIf notPrint notReturn notWhile notBrace =>
    refine (take_other mirrors (by simp) notFor).and_then fun mirrors _ => ?_
    refine (take_other mirrors (by simp) notIf).and_then fun mirrors _ => ?_
    refine (take_other mirrors (by simp) notPrint).and_then fun mirrors _ => ?_
    refine (take_other mirrors (by simp) notReturn).and_then fun mirrors _ => ?_
    refine (take_other mirrors (by simp) notWhile).and_then fun mirrors _ => ?_
    refine (take_other mirrors (by simp) notBrace).and_then fun mirrors _ => ?_
    exact expressionStatement_reaches mirrors (by omega)

theorem block_reaches (deep : state.rest.length < depth)
    (fueled : 20 * state.rest.length + 20 ≤ fuel + 1) :
    Reaches tokens last (block (fuel + 1)) cursor
      (Parse.block (Parse.declarationWithin depth) state) := by
  refine (less.declarations mirrors deep (Nat.le_refl _) (by omega)).bind fun _ mirrors _ => ?_
  exact (expect_reaches mirrors .braceAfterBlock).discard.bind fun _ mirrors _ => .pure mirrors _

theorem declarations_reaches (deep : state.rest.length < depth) (bounded : state.rest.length ≤ bound)
    (fueled : 20 * state.rest.length + 19 ≤ fuel + 1) :
    Reaches tokens last (declarations (fuel + 1)) cursor
      (Parse.declarationsWhile Parse.inBlock (Parse.declarationWithin depth) bound state) := by
  obtain ⟨going, looked, goes⟩ := Parse.inBlock_looks state
  have blocks := inBlock_reaches mirrors
  rw [looked] at blocks
  refine blocks.and_then fun mirrors _ => ?_
  cases going with
  | false =>
    rw [Parse.declarationsWhile_done looked]
    exact .pure mirrors _
  | true =>
    have more := List.length_pos_iff.mpr (goes rfl)
    obtain ⟨bound, rfl⟩ := Nat.exists_eq_add_one.mpr (Nat.lt_of_lt_of_le more bounded)
    obtain ⟨first, after, ran, passed, _⟩ := (Parse.within_pays depth).2 state (goes rfl)
    have same := less.declaration mirrors (goes rfl) deep (by omega)
    rw [ran] at same
    rw [Parse.declarationsWhile_more looked ran]
    refine same.and_then fun mirrors _ => ?_
    refine (less.declarations mirrors (by omega) (by omega) (by omega)).bind fun _ mirrors _ => ?_
    exact .pure mirrors _

theorem routine_reaches (kind : RoutineKind) (deep : state.rest.length ≤ depth)
    (fueled : 20 * state.rest.length + 1 ≤ fuel + 1) :
    Reaches tokens last (routine (fuel + 1) kind) cursor
      (Parse.routine kind (Parse.declarationWithin depth) state) := by
  refine (expectName_reaches mirrors (.routineName kind)).bind fun named between _ => ?_
  have passed := (Parse.expectName_shorter named).1
  refine expected between (.parenAfterRoutineName kind) fun {_ listed} opened _ => ?_
  have names {cursor : State} {state : Parse.State} (mirrors : Mirrors tokens last cursor state)
      (_ : state.rest.length ≤ listed.rest.length) :=
    expectName_reaches mirrors .parameterName
  refine (listed_reaches .tooManyParameters names opened (Nat.le_refl _) (by omega)).bind
    fun _ after forward => ?_
  have short := opened.shorter after forward
  refine expected after .parenAfterParameters fun closed _ => ?_
  refine expected closed (.braceBeforeRoutineBody kind) fun inside _ => ?_
  exact (less.block inside (by omega) (by omega)).bind fun _ mirrors _ => .pure mirrors _

theorem methods_reaches (deep : state.rest.length ≤ depth) (bounded : state.rest.length ≤ bound)
    (fueled : 20 * state.rest.length + 2 ≤ fuel + 1) :
    Reaches tokens last (methods (fuel + 1)) cursor
      (Parse.methods (Parse.declarationWithin depth) bound state) := by
  obtain ⟨going, looked, goes⟩ := Parse.inBlock_looks state
  have blocks := inBlock_reaches mirrors
  rw [looked] at blocks
  refine blocks.and_then fun mirrors _ => ?_
  cases going with
  | false =>
    rw [Parse.methods_done looked]
    exact .pure mirrors _
  | true =>
    have more := List.length_pos_iff.mpr (goes rfl)
    obtain ⟨bound, rfl⟩ := Nat.exists_eq_add_one.mpr (Nat.lt_of_lt_of_le more bounded)
    rw [Parse.methods_more looked]
    refine (less.routine .method mirrors deep (by omega)).bind fun ran mirrors _ => ?_
    have pays := Parse.routine_pays (Parse.within_pays depth).2 .method
    have composed := Parse.routine_composed (Parse.within_composed depth).2 .method
    have passed := pays.shorter composed.leads ran
    refine (less.methods mirrors (by omega) (by omega) (by omega)).bind fun _ mirrors _ => ?_
    exact .pure mirrors _

theorem classDeclaration_reaches (deep : state.rest.length ≤ depth)
    (fueled : 20 * state.rest.length + 3 ≤ fuel + 1) :
    Reaches tokens last (classDeclaration (fuel + 1)) cursor
      (Parse.classDeclaration (Parse.declarationWithin depth) state) := by
  refine (expectName_reaches mirrors .className).bind fun _ named forward => ?_
  have short := mirrors.shorter named forward
  refine (superclass?_reaches named).bind fun _ extended forward => ?_
  have short := named.shorter extended forward
  refine expected extended .braceBeforeClassBody fun opened _ => ?_
  refine (less.methods opened (by omega) (Nat.le_refl _) (by omega)).bind fun _ mirrors _ => ?_
  exact (expect_reaches mirrors .braceAfterClassBody).discard.bind fun _ mirrors _ => .pure mirrors _

theorem declared_reaches (deep : state.rest.length ≤ depth)
    (fueled : 20 * state.rest.length + 17 ≤ fuel + 1) :
    Reaches tokens last (declared (fuel + 1)) cursor
      (Parse.declared (Parse.statementWithin depth) (Parse.declarationWithin depth) state) := by
  refine (take_reaches mirrors .kwClass).bind fun {ofClass _ _} taken mirrors _ => ?_
  cases ofClass with
  | true =>
    have passed := (Parse.take_shorter taken).1
    exact less.classDeclaration mirrors (by omega) (by omega)
  | false =>
  cases Parse.take_still taken
  refine (take_reaches mirrors .kwFun).bind fun {ofFunction _ _} taken mirrors _ => ?_
  cases ofFunction with
  | true =>
    have passed := (Parse.take_shorter taken).1
    exact (less.routine .function mirrors (by omega) (by omega)).map _
  | false =>
  cases Parse.take_still taken
  refine (take_reaches mirrors .kwVar).bind fun {ofVariable _ _} taken mirrors _ => ?_
  cases ofVariable with
  | true =>
    have passed := (Parse.take_shorter taken).1
    exact varDeclaration_reaches mirrors (by omega)
  | false =>
  cases Parse.take_still taken
  exact less.statement mirrors (Nat.lt_succ_of_le deep) (by omega)

theorem declaration_reaches (begun : state.rest ≠ []) (deep : state.rest.length < depth)
    (fueled : 20 * state.rest.length + 18 ≤ fuel + 1) :
    Reaches tokens last (declaration (fuel + 1)) cursor
      (Parse.declarationWithin depth state) := by
  obtain ⟨depth, rfl⟩ := Nat.exists_eq_add_one_of_ne_zero (Nat.ne_zero_of_lt deep)
  refine recovering_reaches (less.declared mirrors (by omega) (by omega)) mirrors begun (by omega) ?_
  exact (Parse.within_pays (depth + 1)).2

end More

/-- By induction on the fuel. -/
theorem statements (tokens : List Token) (last : Token) (fuel : Nat) :
    Statements tokens last fuel := by
  induction fuel with
  | zero =>
    refine ⟨?_, ?_, ?_, ?_, ?_, ?_, ?_, ?_, ?_, ?_, ?_⟩
    all_goals intros; omega
  | succ fuel ih =>
    exact {
      statement := statement_reaches ih
      forStatement := forStatement_reaches ih
      ifStatement := ifStatement_reaches ih
      whileStatement := whileStatement_reaches ih
      declaration := declaration_reaches ih
      declared := declared_reaches ih
      declarations := declarations_reaches ih
      block := block_reaches ih
      routine := fun kind mirrors => routine_reaches ih mirrors kind
      methods := methods_reaches ih
      classDeclaration := classDeclaration_reaches ih }

theorem program_reaches (mirrors : Mirrors tokens last cursor state) (deep : state.rest.length < depth)
    (bounded : state.rest.length ≤ bound) (fueled : 20 * state.rest.length + 19 ≤ fuel) :
    Reaches tokens last (program fuel) cursor
      (Parse.declarationsWhile (not <$> Parse.atEnd) (Parse.declarationWithin depth) bound state) := by
  induction fuel generalizing cursor state bound with
  | zero => omega
  | succ fuel ih =>
    refine (atEnd_reaches mirrors).and_then fun mirrors _ => ?_
    cases ended : state.rest.isEmpty with
    | true =>
      rw [Parse.declarationsWhile_done (Parse.atEnd_done (List.isEmpty_iff.mp ended))]
      exact .pure mirrors _
    | false =>
      have begun := List.isEmpty_eq_false_iff.mp ended
      have more := List.length_pos_iff.mpr begun
      obtain ⟨bound, rfl⟩ := Nat.exists_eq_add_one.mpr (Nat.lt_of_lt_of_le more bounded)
      obtain ⟨first, after, ran, passed, _⟩ := (Parse.within_pays depth).2 state begun
      have same := (statements tokens last fuel).declaration mirrors begun deep (by omega)
      rw [ran] at same
      rw [Parse.declarationsWhile_more (Parse.atEnd_more begun) ran]
      refine same.and_then fun mirrors _ => ?_
      refine (ih mirrors (by omega) (by omega) (by omega)).bind fun _ mirrors _ => ?_
      exact .pure mirrors _

end Lox.Cursor
