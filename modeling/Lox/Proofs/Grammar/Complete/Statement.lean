import Lox.Proofs.Grammar.Complete.Expression
import Lox.Tree.Parse.Statement

/-! Declarations of the grammar are accepted. A statement that ends in an open `if` must not stand
before an `else`, which the grammar grants wherever it puts one statement after another. -/

namespace Lox.Parse

open Grammar Level

theorem varDeclaration_accepts (form : VarDeclaration first input tree next rest) :
    Accepts varDeclaration first input tree next rest := by
  cases form with
  | bare names ends =>
    refine Accepts.bind (expectName_accepts names) ?_
    refine (take_absent (headKind_ne_of_is ends (by decide))).bind ?_
    exact Accepts.bind .pure (Accepts.bind (discard_expect_accepts ends) .pure)
  | initialized names sign assigned ends =>
    refine Accepts.bind (expectName_accepts names) ((take_present sign).bind ?_)
    refine Accepts.bind ((expression_accepts assigned (ends_before ends rfl)).map some) ?_
    exact Accepts.bind (discard_expect_accepts ends) .pure

theorem expressionStatement_accepts (form : ExpressionStatement first input tree next rest) :
    Accepts expressionStatement first input tree next rest := by
  cases form with
  | ended evaluated ends =>
    refine (expression_accepts evaluated (ends_before ends rfl)).bind ?_
    exact Accepts.bind (discard_expect_accepts ends) .pure

theorem printStatement_accepts
    (printed : Expression .assignment first input value next (semicolon :: rest))
    (ends : semicolon.Is .semicolon) :
    Accepts printStatement first input (.print value) next rest := by
  refine (expression_accepts printed (ends_before ends rfl)).bind ?_
  exact Accepts.bind (discard_expect_accepts ends) .pure

/-- An expression that may be left out before a certain word. -/
theorem optional_accepts {later : Option Expr → Parse α} {closing : Token}
    (formed : Optional (Expression .assignment) first input value middle (closing :: between))
    (closes : closing.Is word) (ends : continued? (.terminal word) = none)
    (excluded : startsExpression (.terminal word) = false)
    (after : Accepts (later value) middle (closing :: between) result next rest) :
    Accepts (check word >>= fun found => if found = true then Pure.pure none >>= later
      else some <$> expression >>= later) first input result next rest := by
  cases formed with
  | none => exact (check_present closes).bind (Accepts.bind .pure after)
  | some evaluated =>
    have starts := evaluated.opens.headKind
    refine (check_absent (headKind_ne startsExpression starts excluded)).bind ?_
    exact Accepts.bind ((expression_accepts evaluated (ends_before closes ends)).map some) after

theorem returnStatement_accepts
    (returned : Optional (Expression .assignment) first input value next (semicolon :: rest))
    (ends : semicolon.Is .semicolon) (line : Nat) :
    Accepts (returnStatement line) first input (.return line value) next rest :=
  optional_accepts returned ends rfl rfl (Accepts.bind (discard_expect_accepts ends) .pure)

theorem forInitializer_accepts (form : ForInitializer first input tree next rest) :
    Accepts forInitializer first input tree next rest := by
  cases form with
  | none ends => exact (take_present ends).bind .pure
  | var begins declaration =>
    refine (take_absent (headKind_ne_of_is begins (by decide))).bind ?_
    exact (take_present begins).bind ((varDeclaration_accepts declaration).map some)
  | expression statement =>
    have starts := statement.opens.headKind
    refine (take_absent (headKind_ne startsExpression starts rfl)).bind ?_
    refine (take_absent (headKind_ne startsExpression starts rfl)).bind ?_
    exact (expressionStatement_accepts statement).map some

theorem parameters_accepts (taken : Listed Parameter first input names next (closing :: rest))
    (closes : closing.Is .rightParen) :
    Accepts (listed .tooManyParameters (expectName .parameterName)) first input names next
      (closing :: rest) := by
  refine listed_accepts ?_ ?_ ?_ taken (Nat.le_refl _) closes
  · rintro _ _ _ _ _ ⟨names⟩ _ _
    exact expectName_accepts names
  · intro _ _ _ _ _ parameter
    exact parameter.suffix.length_le
  · rintro _ _ _ _ _ ⟨names⟩
    exact fun same => Kind.noConfusion (names.symm.trans same)

theorem recovering_accepts {parse : Parse Stmt} (accepts : Accepts parse first input tree next rest) :
    Accepts (recovering parse) first input (some tree) next rest := by
  intro endLine errors
  unfold recovering
  rw [accepts endLine errors]
  rfl

theorem inBlock_proceeds (starts : Kind → Bool) (begins : starts (headKind input) = true)
    (brace : starts (.terminal .rightBrace) = false) (eof : starts .eof = false) :
    Accepts inBlock first input true first input := by
  cases input with
  | nil => cases begins.symm.trans eof
  | cons token rest => exact (check_absent (headKind_ne starts begins brace)).bind fun _ _ => rfl

theorem inBlock_stops (closes : closing.Is .rightBrace) :
    Accepts inBlock first (closing :: rest) false first (closing :: rest) :=
  (check_present closes).bind fun _ _ => rfl

section

variable {statement : Parse Stmt} {declaration : Parse (Option Stmt)} {size : Nat}
  (ofStatement : ∀ {dangling first input tree next rest},
    Statement dangling first input tree next rest → input.length ≤ size →
    (dangling = true → headKind rest ≠ .terminal .kwElse) →
    Accepts statement first input tree next rest)
  (ofDeclaration : ∀ {first input tree next rest}, Declaration first input tree next rest →
    input.length ≤ size → headKind rest ≠ .terminal .kwElse →
    Accepts declaration first input (some tree) next rest)

include ofDeclaration

/-- Declarations are accepted up to a place where there are no more of them. -/
theorem declarationsWhile_accepts {more : Parse Bool}
    (proceeds : ∀ {first input}, startsDeclaration (headKind input) = true →
      Accepts more first input true first input)
    (form : Many Declaration first input trees next rest) (small : input.length ≤ size)
    (stops : Accepts more next rest false next rest)
    (alone : headKind rest ≠ .terminal .kwElse) (bounded : input.length ≤ bound) :
    Accepts (declarationsWhile more declaration bound) first input trees next rest := by
  induction bound generalizing first input trees with
  | zero =>
    cases form with
    | nil => exact .pure
    | cons item others =>
      have short := item.opens.shorter
      omega
  | succ bound ih =>
    cases form with
    | nil => exact stops.bind .pure
    | cons item others =>
      have short := item.opens.shorter
      refine (proceeds item.opens.headKind).bind ?_
      refine Accepts.bind (ofDeclaration item small ?_) ?_
      · cases others with
        | nil => exact alone
        | cons second others => exact headKind_ne startsDeclaration second.opens.headKind rfl
      · exact (ih others (by omega) (by omega)).bind .pure

theorem block_accepts (inside : Many Declaration first input body next (closing :: rest))
    (small : input.length ≤ size) (closes : closing.Is .rightBrace) :
    Accepts (block declaration) first input body next rest := by
  have alone : headKind (closing :: rest) ≠ .terminal .kwElse :=
    headKind_ne_of_is closes (by decide)
  refine remaining_accepts.bind ?_
  refine Accepts.bind (declarationsWhile_accepts ofDeclaration ?_ inside small
    (inBlock_stops closes) alone (Nat.le_refl _)) ?_
  · exact fun begins => inBlock_proceeds startsDeclaration begins rfl rfl
  · exact Accepts.bind (discard_expect_accepts closes) .pure

theorem routine_accepts (form : Definition first input tree next rest) (small : input.length ≤ size)
    (kind : RoutineKind) : Accepts (routine kind declaration) first input tree next rest := by
  cases form with
  | routine names opens taken closes opensBody inside closesBody =>
    have short := taken.parameters_suffix.length_le
    simp only [List.length_cons] at short small
    refine Accepts.bind (expectName_accepts names) ?_
    refine Accepts.bind (discard_expect_accepts opens) ((parameters_accepts taken closes).bind ?_)
    refine Accepts.bind (discard_expect_accepts closes) ?_
    refine Accepts.bind (discard_expect_accepts opensBody) ?_
    exact (block_accepts ofDeclaration inside (by omega) closesBody).bind .pure

theorem methods_accepts (form : Many Definition first input trees next (closing :: rest))
    (small : input.length ≤ size) (closes : closing.Is .rightBrace)
    (bounded : input.length ≤ bound) :
    Accepts (methods declaration bound) first input trees next (closing :: rest) := by
  induction bound generalizing first input trees with
  | zero =>
    have short := form.definitions_suffix.length_le
    simp only [List.length_cons] at short
    omega
  | succ bound ih =>
    cases form with
    | nil => exact (inBlock_stops closes).bind .pure
    | cons item others =>
      have short := item.opens.shorter
      refine (inBlock_proceeds (· == .identifier) item.opens.headKind rfl rfl).bind ?_
      refine (routine_accepts ofDeclaration item small .method).bind ?_
      exact (ih others (by omega) (by omega)).bind .pure

theorem classDeclaration_accepts (names : name.IsName)
    (extended : Optional Inheritance first input superclass middle (opening :: later))
    (opens : opening.Is .leftBrace)
    (owned : Many Definition middle later routines next (closing :: rest))
    (small : input.length ≤ size) (closes : closing.Is .rightBrace) :
    Accepts (classDeclaration declaration) first (name :: input)
      (.declareClass name.toName superclass routines) next rest := by
  have short := (Inheritance.suffix extended).length_le
  simp only [List.length_cons] at short
  have clause : Accepts superclass? first input superclass middle (opening :: later) := by
    cases extended with
    | none => exact (take_absent (headKind_ne_of_is opens (by decide))).bind .pure
    | some clause =>
      obtain ⟨sign, names⟩ := clause
      refine (take_present sign).bind (Accepts.bind (expectName_accepts names) ?_)
      exact freshId_accepts.bind .pure
  refine Accepts.bind (expectName_accepts names) (clause.bind ?_)
  refine Accepts.bind (discard_expect_accepts opens) (remaining_accepts.bind ?_)
  refine (methods_accepts ofDeclaration owned (by omega) closes (Nat.le_refl _)).bind ?_
  exact Accepts.bind (discard_expect_accepts closes) .pure

include ofStatement

theorem statementAround_accepts (form : Statement dangling first input tree next rest)
    (small : input.length ≤ size + 1)
    (alone : dangling = true → headKind rest ≠ .terminal .kwElse) :
    Accepts (statementAround statement declaration) first input tree next rest := by
  cases form with
  | expression form =>
    obtain ⟨token, later, rfl, starts, _⟩ := form.opens
    refine peek_accepts.bind ?_
    split
    case h_7 => exact expressionStatement_accepts form
    all_goals
      rename_i same
      rw [same] at starts
      cases starts
  | print begins printed ends =>
    refine peek_accepts.bind ?_
    rw [show _ = Kind.terminal .kwPrint from begins]
    exact skip_accepts.bind (printStatement_accepts printed ends)
  | «return» begins returned ends =>
    refine peek_accepts.bind ?_
    rw [show _ = Kind.terminal .kwReturn from begins]
    exact skip_accepts.bind (returnStatement_accepts returned ends _)
  | block opens inside closes =>
    simp only [List.length_cons] at small
    refine peek_accepts.bind ?_
    rw [show _ = Kind.terminal .leftBrace from opens]
    exact skip_accepts.bind ((block_accepts ofDeclaration inside (by omega) closes).map _)
  | «while» begins opens tested closes repeated =>
    have short := tested.opens.shorter
    simp only [List.length_cons] at short small
    refine peek_accepts.bind ?_
    rw [show _ = Kind.terminal .kwWhile from begins]
    refine skip_accepts.bind (Accepts.bind (discard_expect_accepts opens) ?_)
    refine (expression_accepts tested (ends_before closes rfl)).bind ?_
    refine Accepts.bind (discard_expect_accepts closes) ?_
    exact (ofStatement repeated (by omega) alone).bind .pure
  | «for» begins opens started tested ends stepped closes repeated =>
    have second := started.suffix.length_le
    have third := tested.suffix.length_le
    have fourth := stepped.suffix.length_le
    simp only [List.length_cons] at second third fourth small
    refine peek_accepts.bind ?_
    rw [show _ = Kind.terminal .kwFor from begins]
    refine skip_accepts.bind (Accepts.bind (discard_expect_accepts opens) ?_)
    refine (forInitializer_accepts started).bind ?_
    refine optional_accepts tested ends rfl rfl (Accepts.bind (discard_expect_accepts ends) ?_)
    refine optional_accepts stepped closes rfl rfl ?_
    refine Accepts.bind (discard_expect_accepts closes) ?_
    exact (ofStatement repeated (by omega) alone).bind .pure
  | ifThen begins opens tested closes chosen =>
    have short := tested.opens.shorter
    simp only [List.length_cons] at short small
    refine peek_accepts.bind ?_
    rw [show _ = Kind.terminal .kwIf from begins]
    refine skip_accepts.bind (Accepts.bind (discard_expect_accepts opens) ?_)
    refine (expression_accepts tested (ends_before closes rfl)).bind ?_
    refine Accepts.bind (discard_expect_accepts closes) ?_
    refine (ofStatement chosen (by omega) fun _ => alone rfl).bind ?_
    exact (take_absent (alone rfl)).bind .pure
  | ifElse begins opens tested closes chosen divides otherwise =>
    have short := tested.opens.shorter
    have shorter := chosen.opens.shorter
    simp only [List.length_cons] at short shorter small
    refine peek_accepts.bind ?_
    rw [show _ = Kind.terminal .kwIf from begins]
    refine skip_accepts.bind (Accepts.bind (discard_expect_accepts opens) ?_)
    refine (expression_accepts tested (ends_before closes rfl)).bind ?_
    refine Accepts.bind (discard_expect_accepts closes) ?_
    refine (ofStatement chosen (by omega) nofun).bind ((take_present divides).bind ?_)
    exact (ofStatement otherwise (by omega) alone).bind .pure

theorem declarationAround_accepts (form : Declaration first input tree next rest)
    (small : input.length ≤ size + 1) (alone : headKind rest ≠ .terminal .kwElse) :
    Accepts (declarationAround statement declaration) first input (some tree) next rest := by
  refine recovering_accepts ?_
  cases form with
  | statement form =>
    have starts := form.opens.headKind
    refine (take_absent (headKind_ne Grammar.startsStatement starts rfl)).bind ?_
    refine (take_absent (headKind_ne Grammar.startsStatement starts rfl)).bind ?_
    refine (take_absent (headKind_ne Grammar.startsStatement starts rfl)).bind ?_
    exact statementAround_accepts ofStatement ofDeclaration form small fun _ => alone
  | var begins declaration =>
    refine (take_absent (headKind_ne_of_is begins (by decide))).bind ?_
    refine (take_absent (headKind_ne_of_is begins (by decide))).bind ?_
    exact (take_present begins).bind (varDeclaration_accepts declaration)
  | function begins definition =>
    simp only [List.length_cons] at small
    refine (take_absent (headKind_ne_of_is begins (by decide))).bind ((take_present begins).bind ?_)
    exact (routine_accepts ofDeclaration definition (by omega) .function).map _
  | «class» begins names extended opens owned closes =>
    simp only [List.length_cons] at small
    refine (take_present begins).bind ?_
    exact classDeclaration_accepts ofDeclaration names extended opens owned (by omega) closes

end

theorem within_accepts (depth : Nat) :
    (∀ {dangling first input tree next rest}, Statement dangling first input tree next rest →
      input.length ≤ depth → (dangling = true → headKind rest ≠ .terminal .kwElse) →
      Accepts (statementWithin depth) first input tree next rest) ∧
    (∀ {first input tree next rest}, Declaration first input tree next rest →
      input.length ≤ depth → headKind rest ≠ .terminal .kwElse →
      Accepts (declarationWithin depth) first input (some tree) next rest) := by
  induction depth with
  | zero =>
    constructor
    · intro _ _ _ _ _ _ form small
      have long := form.opens.shorter
      omega
    · intro _ _ _ _ _ form small
      have long := form.opens.shorter
      omega
  | succ depth ih =>
    constructor
    · intro _ _ _ _ _ _ form small alone
      unfold statementWithin
      exact statementAround_accepts ih.1 ih.2 form small alone
    · intro _ _ _ _ _ form small alone
      unfold declarationWithin
      exact declarationAround_accepts ih.1 ih.2 form small alone

/-- The tokens of a program are parsed as that program. -/
theorem program_accepts (form : Grammar.Program first input body next) :
    Accepts program first input body next [] := by
  refine remaining_accepts.bind ?_
  refine declarationsWhile_accepts (within_accepts _).2 ?_ form (Nat.le_succ _) ?_ nofun
    (Nat.le_refl _)
  · intro first input begins
    cases input with
    | nil => cases begins
    | cons => exact fun _ _ => rfl
  · exact fun _ _ => rfl

end Lox.Parse
