import Lox.Proofs.Grammar.Sound.Expression
import Lox.Tree.Parse.Statement

/-! Parsed declarations are declarations of the grammar. A statement that ends in an open `if` was
parsed as such because no `else` follows it, which is how an `else` finds the nearest `if`. -/

namespace Lox.Parse

open Grammar

/-- A statement that no `else` could still belong to. -/
def Settled : Form Stmt := fun first input tree next rest =>
  ∃ dangling, Statement dangling first input tree next rest ∧
    (dangling = true → ¬ Begins .kwElse rest)

theorem varDeclaration_sound : Sound varDeclaration VarDeclaration := by
  refine (expectName_sound _).bind fun name => take_sound.bind fun
    | true => (expression_sound.mapped some).bind fun value =>
      (discard_expect_sound _).bind fun _ => .pure ?_
    | false => (Sound.returned none).bind fun value => (discard_expect_sound _).bind fun _ => .pure ?_
  · rintro next rest _ _ ⟨⟨ends⟩⟩ _ _ ⟨assigned⟩ _ _ ⟨sign⟩ first input ⟨⟨names⟩⟩
    exact .initialized names sign assigned ends
  · rintro next rest _ _ ⟨⟨ends⟩⟩ _ _ ⟨⟩ _ _ ⟨_⟩ first input ⟨⟨names⟩⟩
    exact .bare names ends

theorem expressionStatement_sound : Sound expressionStatement ExpressionStatement := by
  refine expression_sound.bind fun value => (discard_expect_sound _).bind fun _ => .pure ?_
  rintro next rest _ _ ⟨⟨ends⟩⟩ first input evaluated
  exact .ended evaluated ends

theorem printStatement_sound : Sound printStatement fun first input tree next rest =>
    ∀ keyword, keyword.Is .kwPrint → Settled first (keyword :: input) tree next rest := by
  refine expression_sound.bind fun value => (discard_expect_sound _).bind fun _ => .pure ?_
  rintro next rest _ _ ⟨⟨ends⟩⟩ first input printed keyword begins
  exact ⟨false, .print begins printed ends, nofun⟩

/-- An expression that is left out before a certain word. -/
theorem Sound.optional {later : Option Expr → Parse α} {whole : Form α}
    (rest : ∀ value, Sound (later value) fun middle input result next rest => ∀ start before,
      Optional (Expression .assignment) start before value middle input →
        whole start before result next rest) :
    Sound (check word >>= fun found => if found = true then Pure.pure none >>= later
      else some <$> expression >>= later) whole := by
  refine check_sound.bind fun
    | true => (Sound.returned none).bind fun value => (rest value).weaken ?_
    | false => (expression_sound.mapped some).bind fun value => (rest value).weaken ?_
  · rintro middle input tree next rest formed _ _ ⟨⟩ first before ⟨_⟩
    exact formed _ _ .none
  · rintro middle input tree next rest formed _ _ ⟨evaluated⟩ first before ⟨_⟩
    exact formed _ _ (.some evaluated)

theorem returnStatement_sound (keyword : Token) : Sound (returnStatement keyword.line)
    fun first input tree next rest => keyword.Is .kwReturn →
      Settled first (keyword :: input) tree next rest := by
  refine .optional fun value => (discard_expect_sound _).bind fun _ => .pure ?_
  rintro next rest _ _ ⟨⟨ends⟩⟩ first input returned begins
  exact ⟨false, .return begins returned ends, nofun⟩

section Nested

variable {statement : Parse Stmt}

theorem whileStatement_sound (sound : Sound statement Settled) :
    Sound (whileStatement statement) fun first input tree next rest =>
      ∀ keyword, keyword.Is .kwWhile → Settled first (keyword :: input) tree next rest := by
  refine (discard_expect_sound _).bind fun _ => expression_sound.bind fun condition =>
    (discard_expect_sound _).bind fun _ => sound.bind fun body => .pure ?_
  rintro next rest middle later ⟨dangling, repeated, alone⟩ _ _ ⟨⟨closes⟩⟩ _ _ tested first input
    ⟨⟨opens⟩⟩ keyword begins
  exact ⟨dangling, .while begins opens tested closes repeated, alone⟩

theorem ifStatement_sound (sound : Sound statement Settled) :
    Sound (ifStatement statement) fun first input tree next rest =>
      ∀ keyword, keyword.Is .kwIf → Settled first (keyword :: input) tree next rest := by
  refine (discard_expect_sound _).bind fun _ => expression_sound.bind fun condition =>
    (discard_expect_sound _).bind fun _ => sound.bind fun consequent => take_sound.bind fun
      | true => sound.bind fun alternative => .pure ?_
      | false => .pure ?_
  · rintro next rest third later ⟨dangling, otherwise, alone⟩ _ _ ⟨divides⟩ second _
      ⟨open?, chosen, closed⟩ _ _ ⟨⟨closes⟩⟩ _ _ tested first input ⟨⟨opens⟩⟩ keyword begins
    -- An `else` follows the first branch, so that no `if` in it was left open.
    cases open? with
    | true => exact absurd divides (closed rfl)
    | false => exact ⟨dangling, .ifElse begins opens tested closes chosen divides otherwise, alone⟩
  · rintro next rest third later taken second _ ⟨open?, chosen, _⟩ _ _ ⟨⟨closes⟩⟩ _ _ tested first
      input ⟨⟨opens⟩⟩ keyword begins
    cases taken with
    | absent alone => exact ⟨true, .ifThen begins opens tested closes chosen, fun _ => alone⟩

theorem forInitializer_sound : Sound forInitializer ForInitializer := by
  refine take_sound.bind fun
    | true => .pure ?_
    | false => take_sound.bind fun
      | true => varDeclaration_sound.map ?_
      | false => expressionStatement_sound.map ?_
  · rintro first rest _ _ ⟨ends⟩
    exact .none ends
  · rintro first input tree next rest declaration _ _ ⟨begins⟩ _ _ ⟨_⟩
    exact .var begins declaration
  · rintro first input tree next rest statement _ _ ⟨_⟩ _ _ ⟨_⟩
    exact .expression statement

theorem forStatement_sound (sound : Sound statement Settled) :
    Sound (forStatement statement) fun first input tree next rest =>
      ∀ keyword, keyword.Is .kwFor → Settled first (keyword :: input) tree next rest := by
  refine (discard_expect_sound _).bind fun _ => forInitializer_sound.bind fun initializer =>
    .optional fun condition => (discard_expect_sound _).bind fun _ => .optional fun increment =>
      (discard_expect_sound _).bind fun _ => sound.bind fun body => .pure ?_
  rintro next rest fourth _ ⟨dangling, repeated, alone⟩ _ _ ⟨⟨closes⟩⟩ third _ stepped _ _ ⟨⟨ends⟩⟩
    second _ tested _ _ started first input ⟨⟨opens⟩⟩ keyword begins
  exact ⟨dangling, .for begins opens started tested ends stepped closes repeated, alone⟩

/-- A failed declaration is an error on record. -/
theorem recovering_sound (sound : Sound statement form) :
    Sound (recovering statement) (Mapped some form) := by
  intro state tree after run clean
  unfold recovering at run
  split at run
  · rename_i ran
    cases run
    obtain ⟨before, formed⟩ := sound ran clean
    exact ⟨before, .built formed⟩
  · cases run
    simp at clean

variable {declaration : Parse (Option Stmt)} {more : Parse Bool}

/-- Declarations go on for as long as there are more of them. -/
theorem declarationsWhile_sound (sound : Sound declaration (Mapped some Declaration))
    {proceeds : List Token → Bool → Prop}
    (looks : Sound more fun first input found next rest =>
      next = first ∧ rest = input ∧ proceeds input found) (bound : Nat) :
    Sound (declarationsWhile more declaration bound) fun first input trees next rest =>
      Many Declaration first input trees next rest ∧
        (input.length ≤ bound → rest = [] ∨ proceeds rest false) := by
  induction bound with
  | zero =>
    refine .pure fun first rest => ⟨.nil, fun short => .inl ?_⟩
    exact List.eq_nil_of_length_eq_zero (Nat.le_zero.mp short)
  | succ bound ih =>
    refine looks.bind fun
      | true => sound.bind fun tree => ih.bind fun trees => .pure ?_
      | false => .pure ?_
    · rintro next rest middle later ⟨others, ended⟩ _ _ ⟨item⟩ first input ⟨rfl, rfl, _⟩
      have short := item.opens.shorter
      exact ⟨.cons item others, fun bounded => ended (by omega)⟩
    · rintro next rest first input ⟨rfl, rfl, ended⟩
      exact ⟨.nil, fun _ => .inr ended⟩

theorem inBlock_sound : Sound inBlock fun first input _ next rest =>
    next = first ∧ rest = input ∧ True := by
  intro state found after run clean
  cases run
  exact ⟨clean, rfl, rfl, trivial⟩

theorem block_sound (sound : Sound declaration (Mapped some Declaration)) :
    Sound (block declaration) fun first input body next rest =>
      ∃ closing, Many Declaration first input body next (closing :: rest) ∧
        closing.Is .rightBrace := by
  refine .remaining fun count => (declarationsWhile_sound sound inBlock_sound count).bind fun body =>
    (discard_expect_sound _).bind fun _ => .pure ?_
  rintro next rest _ _ ⟨⟨closes⟩⟩ first input ⟨inside, _⟩ _
  exact ⟨_, inside, closes⟩

theorem expectParameter_sound (expectation : Expectation) (named : expectation.wanted = .identifier) :
    Sound (expectName expectation) Parameter := by
  refine (expectName_sound expectation).weaken ?_
  rintro first input tree next rest ⟨⟨wanted⟩⟩
  exact .named (wanted.trans named)

theorem routine_sound (kind : RoutineKind) (sound : Sound declaration (Mapped some Declaration)) :
    Sound (routine kind declaration) Definition := by
  refine (expectName_sound _).bind fun name => (discard_expect_sound _).bind fun _ =>
    (listed_sound (expectParameter_sound .parameterName rfl) (·.suffix.length_le)).bind
      fun parameters => (discard_expect_sound _).bind fun _ => (discard_expect_sound _).bind fun _ =>
        (block_sound sound).bind fun body => .pure ?_
  rintro next rest middle later ⟨closing, inside, closesBody⟩ _ _ ⟨⟨opensBody⟩⟩ _ _ ⟨⟨closes⟩⟩ _ _
    taken _ _ ⟨⟨opens⟩⟩ first input ⟨⟨names⟩⟩
  exact .routine names opens taken closes opensBody inside closesBody

theorem methods_sound (sound : Sound declaration (Mapped some Declaration)) (bound : Nat) :
    Sound (methods declaration bound) (Many Definition) := by
  induction bound with
  | zero => exact .pure fun _ _ => .nil
  | succ bound ih =>
    refine inBlock_sound.bind fun
      | true => (routine_sound .method sound).bind fun routine => ih.bind fun routines => .pure ?_
      | false => .pure ?_
    · rintro next rest middle later others _ _ item first input ⟨rfl, rfl, _⟩
      exact .cons item others
    · rintro next rest first input ⟨rfl, rfl, _⟩
      exact .nil

theorem superclass?_sound : Sound superclass? (Optional Inheritance) := by
  refine take_sound.bind fun
    | true => (expectName_sound _).bind fun name => freshId_sound.bind fun id => .pure ?_
    | false => .pure ?_
  · rintro _ rest middle _ ⟨⟩ _ _ ⟨⟨names⟩⟩ first input ⟨sign⟩
    exact .some (.from sign names)
  · rintro first rest _ _ ⟨_⟩
    exact .none

theorem classDeclaration_sound (sound : Sound declaration (Mapped some Declaration)) :
    Sound (classDeclaration declaration) fun first input tree next rest =>
      ∀ keyword, keyword.Is .kwClass → Declaration first (keyword :: input) tree next rest := by
  refine (expectName_sound _).bind fun name => superclass?_sound.bind fun superclass =>
    (discard_expect_sound _).bind fun _ => .remaining fun count =>
      (methods_sound sound count).bind fun routines => (discard_expect_sound _).bind fun _ =>
        .pure ?_
  rintro next rest _ _ ⟨⟨closes⟩⟩ middle later owned _ _ _ ⟨⟨opens⟩⟩ _ _ extended first input
    ⟨⟨names⟩⟩ keyword begins
  exact .class begins names extended opens owned closes

theorem statementAround_sound (sound : Sound statement Settled)
    (declares : Sound declaration (Mapped some Declaration)) :
    Sound (statementAround statement declaration) Settled := by
  refine .peek (fun line => ?_) fun token => ?_
  · exact expressionStatement_sound.weaken fun _ _ _ _ _ form => ⟨false, .expression form, nofun⟩
  · split
    · rename_i begins
      refine skip_sound.bind fun _ => (forStatement_sound sound).weaken ?_
      rintro first input tree next rest formed _ before ⟨⟩ others rfl
      exact formed token begins
    · rename_i begins
      refine skip_sound.bind fun _ => (ifStatement_sound sound).weaken ?_
      rintro first input tree next rest formed _ before ⟨⟩ others rfl
      exact formed token begins
    · rename_i begins
      refine skip_sound.bind fun _ => printStatement_sound.weaken ?_
      rintro first input tree next rest formed _ before ⟨⟩ others rfl
      exact formed token begins
    · rename_i begins
      refine skip_sound.bind fun _ => (returnStatement_sound token).weaken ?_
      rintro first input tree next rest formed _ before ⟨⟩ others rfl
      exact formed begins
    · rename_i begins
      refine skip_sound.bind fun _ => (whileStatement_sound sound).weaken ?_
      rintro first input tree next rest formed _ before ⟨⟩ others rfl
      exact formed token begins
    · rename_i opens
      refine skip_sound.bind fun _ => (block_sound declares).map ?_
      rintro first input body next rest ⟨closing, inside, closes⟩ _ before ⟨⟩ others rfl
      exact ⟨false, .block opens inside closes, nofun⟩
    · refine expressionStatement_sound.weaken fun _ _ _ _ _ form _ _ => ?_
      exact ⟨false, .expression form, nofun⟩

theorem declarationAround_sound (sound : Sound statement Settled)
    (declares : Sound declaration (Mapped some Declaration)) :
    Sound (declarationAround statement declaration) (Mapped some Declaration) := by
  refine recovering_sound (take_sound.bind fun
    | true => (classDeclaration_sound declares).weaken ?_
    | false => take_sound.bind fun
      | true => (routine_sound .function declares).map ?_
      | false => take_sound.bind fun
        | true => varDeclaration_sound.weaken ?_
        | false => (statementAround_sound sound declares).weaken ?_)
  · rintro first input tree next rest formed _ _ ⟨begins⟩
    exact formed _ begins
  · rintro first input tree next rest definition _ _ ⟨begins⟩ _ _ ⟨_⟩
    exact .function begins definition
  · rintro first input tree next rest declared _ _ ⟨begins⟩ _ _ ⟨_⟩ _ _ ⟨_⟩
    exact .var begins declared
  · rintro first input tree next rest ⟨dangling, formed, _⟩ _ _ ⟨_⟩ _ _ ⟨_⟩ _ _ ⟨_⟩
    exact .statement formed

end Nested

theorem within_sound (depth : Nat) : Sound (statementWithin depth) Settled ∧
    Sound (declarationWithin depth) (Mapped some Declaration) := by
  induction depth with
  | zero => exact ⟨.fail, recovering_sound .fail⟩
  | succ depth ih =>
    exact ⟨statementAround_sound ih.1 ih.2, declarationAround_sound ih.1 ih.2⟩

/-- A program that is parsed without errors is one of the grammar. -/
theorem program_sound : Sound program fun first input body next _ =>
    Program first input body next := by
  have looks : Sound (not <$> atEnd) fun first input found next rest =>
      next = first ∧ rest = input ∧ found = !input.isEmpty := by
    intro state found after run clean
    cases run
    exact ⟨clean, rfl, rfl, rfl⟩
  refine .remaining fun count =>
    (declarationsWhile_sound (within_sound (count + 1)).2 looks count).weaken ?_
  rintro first input tree next rest ⟨declared, ended⟩ rfl
  have nothing : rest = [] := by
    rcases ended (Nat.le_refl _) with nothing | nothing
    · exact nothing
    · simpa using nothing
  rw [nothing] at declared
  exact declared

end Lox.Parse
