import Lox.Proofs.Parse.Spends

/-! Declarations before the end never fail. Each passes over a token at least, and the error of one that
is given up is paid for too, so that in the end there are no more errors than there were tokens. -/

namespace Lox

namespace Parse

variable {α : Type} {state : State}

theorem nextBoundary_shorter (token : Token) (rest : List Token) :
    (nextBoundary (token :: rest)).length ≤ rest.length := by
  unfold nextBoundary
  split
  · exact Nat.le_refl _
  · exact (nextBoundary_suffix rest).length_le

/-- A parser of declarations that never fails, and before the end passes over a token at least and never
adds weight. -/
def Settles (parse : Parse (Option Stmt)) : Prop :=
  ∀ state, state.rest ≠ [] → ∃ stmt after, parse state = .ok stmt after ∧
    after.rest.length < state.rest.length ∧ after.weight ≤ state.weight

theorem Pays.shorter {parse : Parse α} {after : State} (pays : Pays parse) (leads : Leads parse)
    (ran : parse state = .ok value after) : after.rest.length < state.rest.length := by
  have less := (pays state).less ran
  have kept := (leads state).errors.length_le
  rw [final_ok ran, Array.length_toList, Array.length_toList] at kept
  unfold State.weight at less
  omega

/-- The error is paid for by the token at which it occurred, or else by those passed over before. -/
theorem recovering_settles {parse : Parse Stmt} (pays : Pays parse) (leads : Leads parse) :
    Settles (recovering parse) := by
  intro state more
  unfold recovering
  cases ran : parse state with
  | ok stmt after =>
    exact ⟨some stmt, after, rfl, pays.shorter leads ran, Nat.le_of_lt ((pays state).less ran)⟩
  | error error after =>
    refine ⟨none, _, rfl, ?_⟩
    have spent := (pays state).spends
    have suffix := (leads state).tokens.length_le
    have some : 0 < state.rest.length := List.length_pos_iff.mpr more
    rw [final_error ran] at spent suffix
    simp only [State.weight, Array.size_push]
    cases next : after.rest with
    | nil =>
      rcases spent with less | ⟨same, _⟩
      · simp only [State.weight, next, List.length_nil] at less
        simp only [nextBoundary, List.length_nil]
        omega
      · exact absurd (same.symm.trans next) more
    | cons token rest =>
      have passed := nextBoundary_shorter token rest
      have weight := spent.weight
      simp only [State.weight, next, List.length_cons] at weight suffix
      omega

theorem atEnd_done (done : state.rest = []) : (not <$> atEnd) state = .ok false state := by
  change EStateM.Result.ok (!state.rest.isEmpty) state = _
  rw [done]
  rfl

theorem atEnd_more (more : state.rest ≠ []) : (not <$> atEnd) state = .ok true state := by
  change EStateM.Result.ok (!state.rest.isEmpty) state = _
  rw [List.isEmpty_eq_false_iff.mpr more]
  rfl

theorem inBlock_looks (state : State) :
    ∃ going, inBlock state = .ok going state ∧ (going = true → state.rest ≠ []) := by
  refine ⟨_, rfl, fun going => ?_⟩
  simp only [Bool.and_eq_true, Bool.not_eq_true', List.isEmpty_eq_false_iff] at going
  exact going.2

theorem inBlock_spends : Spends inBlock :=
  (check_spends .rightBrace).bind fun _ => (look_spends _).bind fun _ => .pure _

section Statements

variable {declaration : Parse (Option Stmt)}

theorem declarationsWhile_done {more : Parse Bool} (done : more state = .ok false state) (bound : Nat) :
    declarationsWhile more declaration bound state = .ok [] state := by
  cases bound with
  | zero => rfl
  | succ bound => exact bind_ok done

theorem declarationsWhile_more {more : Parse Bool} (going : more state = .ok true state)
    (ran : declaration state = .ok first after) (bound : Nat) :
    declarationsWhile more declaration (bound + 1) state =
      (declarationsWhile more declaration bound >>= fun later => return first.toList ++ later) after :=
  (bind_ok going).trans (bind_ok ran)

theorem methods_done (done : inBlock state = .ok false state) (bound : Nat) :
    methods declaration bound state = .ok [] state := by
  cases bound with
  | zero => rfl
  | succ bound => exact bind_ok done

theorem methods_more (going : inBlock state = .ok true state) (bound : Nat) :
    methods declaration (bound + 1) state =
      (routine .method declaration >>= fun first =>
        methods declaration bound >>= fun later => return first :: later) state :=
  bind_ok going

variable (declarations : Settles declaration)

include declarations

/-- Declarations go on only before the end, so none of them fails. -/
theorem declarationsWhile_settles {more : Parse Bool}
    (looks : ∀ state, ∃ going, more state = .ok going state ∧ (going = true → state.rest ≠ []))
    (bound : Nat) (state : State) :
    ∃ body after, declarationsWhile more declaration bound state = .ok body after ∧
      after.weight ≤ state.weight := by
  induction bound generalizing state with
  | zero => exact ⟨[], state, rfl, Nat.le_refl _⟩
  | succ bound ih =>
    obtain ⟨going, looked, goes⟩ := looks state
    cases going with
    | false => exact ⟨[], state, declarationsWhile_done looked _, Nat.le_refl _⟩
    | true =>
      obtain ⟨first, middle, ran, _, before⟩ := declarations state (goes rfl)
      obtain ⟨later, after, run, further⟩ := ih middle
      refine ⟨first.toList ++ later, after, ?_, Nat.le_trans further before⟩
      rw [declarationsWhile_more looked ran, bind_ok run]
      rfl

theorem declarationsWhile_affords {more : Parse Bool}
    (looks : ∀ state, ∃ going, more state = .ok going state ∧ (going = true → state.rest ≠ []))
    (bound : Nat) : Affords (declarationsWhile more declaration bound) := by
  intro state
  obtain ⟨body, after, ran, weight⟩ := declarationsWhile_settles declarations looks bound state
  rwa [final_ok ran]

theorem block_affords : Affords (block declaration) := by
  apply (look_spends fun state => state.rest.length).affords.bind
  intro bound
  apply (declarationsWhile_affords declarations inBlock_looks bound).bind
  intro body
  exact (expect_pays .braceAfterBlock).affords.discard.bind fun _ => .pure _

theorem routine_pays (kind : RoutineKind) : Pays (routine kind declaration) := by
  apply (expectName_pays (.routineName kind)).bind
  intro name
  apply (expect_pays (.parenAfterRoutineName kind)).affords.discard.bind
  intro _
  apply (listed_affords (expectName_pays .parameterName) .tooManyParameters).bind
  intro parameters
  apply (expect_pays .parenAfterParameters).affords.discard.bind
  intro _
  apply (expect_pays (.braceBeforeRoutineBody kind)).affords.discard.bind
  intro _
  exact (block_affords declarations).bind fun _ => .pure _

theorem methods_affords (bound : Nat) : Affords (methods declaration bound) := by
  induction bound with
  | zero => exact .pure _
  | succ bound ih =>
    apply inBlock_spends.affords.bind
    intro going
    split
    · exact (routine_pays declarations .method).affords.bind fun _ => ih.bind fun _ => .pure _
    · exact .pure _

omit declarations in
theorem superclass?_affords : Affords superclass? := by
  apply (take_spends .less).affords.bind
  intro extended
  split
  · apply (expectName_pays .superclassName).affords.bind
    intro name
    exact freshId_spends.affords.bind fun _ => .pure _
  · exact .pure _

theorem classDeclaration_pays : Pays (classDeclaration declaration) := by
  apply (expectName_pays .className).bind
  intro name
  apply superclass?_affords.bind
  intro superclass
  apply (expect_pays .braceBeforeClassBody).affords.discard.bind
  intro _
  apply (look_spends fun state => state.rest.length).affords.bind
  intro bound
  apply (methods_affords declarations bound).bind
  intro routines
  exact (expect_pays .braceAfterClassBody).affords.discard.bind fun _ => .pure _

omit declarations

/-- An expression that is there or not, before what comes after it. -/
theorem optional_affords {later : Option Expr → Parse α} (rest : ∀ value, Affords (later value))
    (present : Bool) :
    Affords (if present then some <$> expression >>= later else pure none >>= later) := by
  cases present with
  | true => exact (expression_pays.affords.map some).bind rest
  | false => exact (Affords.pure none).bind rest

theorem missing_affords {later : Option Expr → Parse α} (rest : ∀ value, Affords (later value))
    (absent : Bool) :
    Affords (if absent then pure none >>= later else some <$> expression >>= later) := by
  cases absent with
  | true => exact optional_affords rest false
  | false => exact optional_affords rest true

theorem varDeclaration_pays : Pays varDeclaration := by
  apply (expectName_pays .variableName).bind
  intro name
  apply (take_spends .equal).affords.bind
  apply optional_affords
  intro initializer
  exact (expect_pays .semicolonAfterDeclaration).affords.discard.bind fun _ => .pure _

theorem expressionStatement_pays : Pays expressionStatement :=
  expression_pays.bind fun _ =>
    (expect_pays .semicolonAfterExpression).affords.discard.bind fun _ => .pure _

theorem printStatement_pays : Pays printStatement :=
  expression_pays.bind fun _ =>
    (expect_pays .semicolonAfterPrint).affords.discard.bind fun _ => .pure _

theorem returnStatement_affords (line : Nat) : Affords (returnStatement line) := by
  apply (check_spends .semicolon).affords.bind
  apply missing_affords
  intro value
  exact (expect_pays .semicolonAfterReturn).affords.discard.bind fun _ => .pure _

theorem forInitializer_affords : Affords forInitializer := by
  apply (take_spends .semicolon).affords.bind
  intro absent
  split
  · exact .pure _
  · apply (take_spends .kwVar).affords.bind
    intro declared
    split
    · exact varDeclaration_pays.affords.map some
    · exact expressionStatement_pays.affords.map some

variable {statement : Parse Stmt} (statements : Pays statement)

include statements

theorem whileStatement_affords : Affords (whileStatement statement) := by
  apply (expect_pays .parenAfterWhile).affords.discard.bind
  intro _
  apply expression_pays.affords.bind
  intro condition
  apply (expect_pays .parenAfterWhileCondition).affords.discard.bind
  intro _
  exact statements.affords.bind fun _ => .pure _

theorem ifStatement_affords : Affords (ifStatement statement) := by
  apply (expect_pays .parenAfterIf).affords.discard.bind
  intro _
  apply expression_pays.affords.bind
  intro condition
  apply (expect_pays .parenAfterIfCondition).affords.discard.bind
  intro _
  apply statements.affords.bind
  intro consequent
  apply (take_spends .kwElse).affords.bind
  intro divided
  split
  · exact statements.affords.bind fun _ => .pure _
  · exact .pure _

theorem forStatement_affords : Affords (forStatement statement) := by
  apply (expect_pays .parenAfterFor).affords.discard.bind
  intro _
  apply forInitializer_affords.bind
  intro initializer
  apply (check_spends .semicolon).affords.bind
  apply missing_affords
  intro condition
  apply (expect_pays .semicolonAfterLoopCondition).affords.discard.bind
  intro _
  apply (check_spends .rightParen).affords.bind
  apply missing_affords
  intro increment
  apply (expect_pays .parenAfterForClauses).affords.discard.bind
  intro _
  exact statements.affords.bind fun _ => .pure _

include declarations

theorem statementAround_pays : Pays (statementAround statement declaration) := by
  intro state
  refine .after (look_spends State.peek) fun ran => ?_
  cases ran
  split
  case _ kind => exact (skip_pays (by simp [kind])).bind fun _ => forStatement_affords statements
  case _ kind => exact (skip_pays (by simp [kind])).bind fun _ => ifStatement_affords statements
  case _ kind => exact (skip_pays (by simp [kind])).bind fun _ => printStatement_pays.affords
  case _ kind => exact (skip_pays (by simp [kind])).bind fun _ => returnStatement_affords _
  case _ kind => exact (skip_pays (by simp [kind])).bind fun _ => whileStatement_affords statements
  case _ kind => exact (skip_pays (by simp [kind])).bind fun _ => (block_affords declarations).map _
  case _ => exact expressionStatement_pays _

theorem declared_pays : Pays (declared statement declaration) := by
  apply Pays.after (take_spends .kwClass)
  intro ofClass
  split
  · exact classDeclaration_pays declarations
  apply Pays.after (take_spends .kwFun)
  intro ofFunction
  split
  · exact (routine_pays declarations .function).map _
  apply Pays.after (take_spends .kwVar)
  intro ofVariable
  split
  · exact varDeclaration_pays
  · exact statementAround_pays declarations statements

end Statements

/-- By induction on how deep statements and declarations are nested. -/
theorem within_pays (depth : Nat) :
    Pays (statementWithin depth) ∧ Settles (declarationWithin depth) := by
  induction depth with
  | zero => exact ⟨fail_pays _, recovering_settles (fail_pays _) (Composed.fail _).leads⟩
  | succ depth ih =>
    obtain ⟨statements, declarations⟩ := within_composed depth
    refine ⟨statementAround_pays ih.2 ih.1, ?_⟩
    exact recovering_settles (declared_pays ih.2 ih.1) (declared_composed declarations statements).leads

theorem program_settles (state : State) :
    ∃ body after, program state = .ok body after ∧ after.weight ≤ state.weight := by
  refine declarationsWhile_settles (within_pays _).2 (fun state => ?_) state.rest.length state
  refine ⟨_, rfl, fun going => ?_⟩
  rwa [Bool.not_eq_true', List.isEmpty_eq_false_iff] at going

end Parse

/-- There are at most as many errors as there are tokens before the end mark. -/
theorem Parsed.errors_length_le (tokens : List Token) (first : NodeId)
    (failed : (ofTokens tokens first).program = .error errors) :
    errors.length ≤ (tokens.takeWhile (·.kind != .eof)).length := by
  obtain ⟨body, after, ran, weight⟩ := Parse.program_settles (.start tokens first)
  simp only [ofTokens, ran] at failed
  split at failed
  · cases failed
  · cases failed
    rw [Array.length_toList]
    simp only [Parse.State.weight, Parse.State.start, Array.size_empty] at weight
    omega

end Lox
