import Lox.Proofs.Cursor.Program
import Lox.Proofs.Grammar.Local
import Lox.Proofs.Parse.Blind
import Lox.Proofs.Segment.Program

/-! A statement that breaks off before its semicolon, at a word at which another statement begins. The word
is reported. Since it is the token at which parsing failed it is also passed over, and parsing goes on at
the next boundary after it, inside the statement that it begins. -/

namespace Lox

open Grammar Grammar.Level

/-- What is missing where a statement breaks off before its semicolon. After a bare `return` it would be a
value. -/
def Stmt.unended? : Stmt → Option Expectation
  | .print _ => some .semicolonAfterPrint
  | .declareVar _ _ => some .semicolonAfterDeclaration
  | .expression _ => some .semicolonAfterExpression
  | .return _ (some _) => some .semicolonAfterReturn
  | _ => none

theorem Stmt.unended?_forLoop (initializer : Option Stmt) (condition increment : Option Expr) (body : Stmt) :
    (forLoop initializer condition increment body).unended? = none := by
  cases initializer <;> rfl

namespace Grammar

/-- A statement without its semicolon, which is what is then missing. -/
inductive Unended : Expectation → Form Stmt where
  | print (begins : keyword.Is .kwPrint)
      (printed : Expression .assignment first input value next rest) :
      Unended .semicolonAfterPrint first (keyword :: input) (.print value) next rest
  | return (begins : keyword.Is .kwReturn)
      (returned : Expression .assignment first input value next rest) :
      Unended .semicolonAfterReturn first (keyword :: input) (.return keyword.line (some value)) next rest
  | expression (evaluated : Expression .assignment first input value next rest) :
      Unended .semicolonAfterExpression first input (.expression value) next rest
  | bare (begins : keyword.Is .kwVar) (names : name.IsName) :
      Unended .semicolonAfterDeclaration first (keyword :: name :: rest)
        (.declareVar name.toName none) first rest
  | initialized (begins : keyword.Is .kwVar) (names : name.IsName) (sign : equals.Is .equal)
      (assigned : Expression .assignment first input value next rest) :
      Unended .semicolonAfterDeclaration first (keyword :: name :: equals :: input)
        (.declareVar name.toName (some value)) next rest

theorem exists_own {own input : List Token} {sign token : Token} (whole : own ++ [sign] = token :: input)
    (more : input ≠ []) : ∃ others, own = token :: others ∧ others ++ [sign] = input := by
  cases own with
  | nil => exact absurd (List.tail_eq_of_cons_eq whole).symm more
  | cons head others =>
    cases whole
    exact ⟨others, rfl, rfl⟩

theorem Expression.more (form : Expression level first input tree next rest) : input ≠ [] := by
  rintro rfl
  exact absurd form.opens.shorter (Nat.not_lt_zero _)

/-- Without its last token, a statement of one of these sorts is unended before whatever follows. -/
theorem Unended.of_declaration {own : List Token} {sign : Token}
    (form : Declaration first (own ++ [sign]) stmt next []) (unended : stmt.unended? = some expectation)
    (other : List Token) : Unended expectation first (own ++ other) stmt next other := by
  generalize whole : own ++ [sign] = tokens at form
  cases form with
  | statement form =>
    cases form with
    | expression form =>
      cases form with
      | ended evaluated =>
        cases unended
        subst whole
        exact .expression (evaluated.before_last other)
    | print begins printed =>
      cases unended
      obtain ⟨_, rfl, rfl⟩ := exists_own whole printed.more
      exact .print begins (printed.before_last other)
    | «return» begins returned =>
      cases returned with
      | none => cases unended
      | some returned =>
        cases unended
        obtain ⟨_, rfl, rfl⟩ := exists_own whole returned.more
        exact .return begins (returned.before_last other)
    | «for» =>
      rw [Stmt.unended?_forLoop] at unended
      cases unended
    | _ => cases unended
  | var begins declaration =>
    cases declaration with
    | bare names =>
      cases unended
      obtain ⟨_, rfl, named⟩ := exists_own whole (by simp)
      obtain ⟨_, rfl, ended⟩ := exists_own named (by simp)
      obtain ⟨rfl, _⟩ := List.append_inj' (ended.trans (List.nil_append _).symm) rfl
      exact .bare begins names
    | initialized names sign assigned =>
      cases unended
      obtain ⟨_, rfl, named⟩ := exists_own whole (by simp)
      obtain ⟨_, rfl, given⟩ := exists_own named (by simp)
      obtain ⟨_, rfl, rfl⟩ := exists_own given assigned.more
      exact .initialized begins names sign (assigned.before_last other)
  | _ => cases unended

end Grammar

namespace Parse

/-- Whether a parser passes over tokens and fails where it expects the next one. -/
def Misses (parse : Parse α) (expectation : Expectation) (first : NodeId) (input : List Token)
    (next : NodeId) (rest : List Token) : Prop :=
  ∀ endLine errors, parse ⟨input, endLine, first, errors⟩ =
    .error ⟨.missing expectation, (State.mk rest endLine next errors).peek⟩ ⟨rest, endLine, next, errors⟩

theorem expect_misses (other : headKind rest ≠ expectation.wanted) (later : Unit → Parse α) :
    Misses (discard (expect expectation) >>= later) expectation first rest first rest :=
  fun endLine errors => bind_error (discard_expect_other (by rwa [peek_kind]))

theorem Accepts.misses {later : α → Parse β} (before : Accepts parse first input tree middle between)
    (after : Misses (later tree) expectation middle between next rest) :
    Misses (parse >>= later) expectation first input next rest :=
  fun endLine errors => (bind_ok (before endLine errors)).trans (after endLine errors)

variable {statement : Parse Stmt} {declaration : Parse (Option Stmt)}

/-- Before a word at which a statement begins, an expression ends and there is neither a semicolon nor an
equals sign. -/
theorem word_ends (begins : word ∈ statementWords) (here : headKind rest = .terminal word) :
    Grammar.Level.Ends .assignment (headKind rest) ∧ headKind rest ≠ .terminal .semicolon ∧
      headKind rest ≠ .terminal .equal := by
  rw [here]
  refine ⟨ends_of_none ?_, fun same => ?_, fun same => ?_⟩
  · exact (by decide : ∀ word ∈ statementWords, continued? (.terminal word) = none) word begins
  · cases same
    exact absurd begins (by decide)
  · cases same
    exact absurd begins (by decide)

theorem unended_misses (form : Unended expectation first input tree next rest)
    (begins : word ∈ statementWords) (here : headKind rest = .terminal word) :
    Misses (declared statement declaration) expectation first input next rest := by
  obtain ⟨ends, semicolon, equal⟩ := word_ends begins here
  cases form with
  | print begins printed =>
    refine (take_absent (headKind_ne_of_is begins (by decide))).misses ?_
    refine (take_absent (headKind_ne_of_is begins (by decide))).misses ?_
    refine (take_absent (headKind_ne_of_is begins (by decide))).misses ?_
    refine peek_accepts.misses ?_
    rw [show _ = Kind.terminal .kwPrint from begins]
    exact skip_accepts.misses ((expression_accepts printed ends).misses (expect_misses semicolon _))
  | «return» begins returned =>
    have starts := returned.opens.headKind
    refine (take_absent (headKind_ne_of_is begins (by decide))).misses ?_
    refine (take_absent (headKind_ne_of_is begins (by decide))).misses ?_
    refine (take_absent (headKind_ne_of_is begins (by decide))).misses ?_
    refine peek_accepts.misses ?_
    rw [show _ = Kind.terminal .kwReturn from begins]
    refine skip_accepts.misses ?_
    refine (check_absent (headKind_ne startsExpression starts rfl)).misses ?_
    exact ((expression_accepts returned ends).map some).misses (expect_misses semicolon _)
  | expression evaluated =>
    have starts := evaluated.opens.headKind
    refine (take_absent (headKind_ne startsExpression starts rfl)).misses ?_
    refine (take_absent (headKind_ne startsExpression starts rfl)).misses ?_
    refine (take_absent (headKind_ne startsExpression starts rfl)).misses ?_
    obtain ⟨token, later, rfl, _⟩ := evaluated.opens
    refine peek_accepts.misses ?_
    split
    case h_7 => exact (expression_accepts evaluated ends).misses (expect_misses semicolon _)
    all_goals
      rename_i same
      rw [headKind, same] at starts
      cases starts
  | bare begins names =>
    refine (take_absent (headKind_ne_of_is begins (by decide))).misses ?_
    refine (take_absent (headKind_ne_of_is begins (by decide))).misses ?_
    refine (take_present begins).misses ((expectName_accepts (show _ = Expectation.wanted .variableName from names)).misses ?_)
    refine (take_absent equal).misses ?_
    exact Accepts.pure.misses (expect_misses semicolon _)
  | initialized begins names sign assigned =>
    refine (take_absent (headKind_ne_of_is begins (by decide))).misses ?_
    refine (take_absent (headKind_ne_of_is begins (by decide))).misses ?_
    refine (take_present begins).misses ((expectName_accepts (show _ = Expectation.wanted .variableName from names)).misses ?_)
    refine (take_present sign).misses ?_
    exact ((expression_accepts assigned ends).map some).misses (expect_misses semicolon _)

/-- The statement is given up, and so is the token at which it broke off. -/
theorem declaration_misses
    (misses : Misses (declared (statementWithin depth) (declarationWithin depth)) expectation first
      (own ++ token :: others) next (token :: others)) (endLine : Nat) :
    declarationWithin (depth + 1) ⟨own ++ token :: others, endLine, first, #[]⟩ =
      .ok none ⟨nextBoundary (token :: others), endLine, next, #[⟨.missing expectation, token⟩]⟩ := by
  change recovering (declared _ _) _ = _
  unfold recovering
  rw [misses endLine #[]]
  rfl

theorem program_composed : Composed program :=
  .bind .remaining fun count =>
    declarationsWhile_composed (within_composed (count + 1)).2 (Composed.atEnd.map not) count

/-- Where parsing goes on after errors, it adds those of the tokens that are left. -/
theorem resumes {tokens : List Token} (only : ∀ token ∈ tokens, token.kind ≠ .eof)
    (deep : tokens.length < depth) (bounded : tokens.length ≤ bound) (line : Nat) (next start : NodeId)
    (errors : Array SyntaxError) :
    ∃ body after,
      declarationsWhile (not <$> atEnd) (declarationWithin depth) bound ⟨tokens, line, next, errors⟩ =
        .ok body after ∧
      after.errors.toList = errors.toList ++ (salvage ⟨tokens, line, start, #[]⟩).2 := by
  obtain ⟨body, after, ran, _⟩ := program_settles ⟨tokens, line, next, #[]⟩
  have blind := program_composed.blind errors ⟨tokens, line, next, #[]⟩
  rw [ran] at blind
  refine ⟨body, after.after errors, ?_, ?_⟩
  · rw [Cursor.declarationsWhile_eq_program only deep bounded]
    exact blind
  · rw [(salvage_alike tokens line next start).1, salvage_ok ran]
    exact Array.toList_append

/-- What breaks off in the first declaration gives an error, and parsing goes on. -/
theorem salvage_misses {keyword : Token}
    (misses : ∀ depth, Misses (declared (statementWithin depth) (declarationWithin depth)) expectation
      first (own ++ keyword :: others) next (keyword :: others))
    (real : ∀ token ∈ keyword :: others, token.kind ≠ .eof) (line : Nat) (start : NodeId) :
    (salvage ⟨own ++ keyword :: others, line, first, #[]⟩).2 =
      ⟨.missing expectation, keyword⟩ ::
        (salvage ⟨nextBoundary (keyword :: others), line, start, #[]⟩).2 := by
  have count : (own ++ keyword :: others).length = own.length + others.length + 1 := by
    simp [Nat.add_assoc]
  have fewer := nextBoundary_shorter keyword others
  have left : ∀ token ∈ nextBoundary (keyword :: others), token.kind ≠ .eof := fun token member =>
    real token ((nextBoundary_suffix _).subset member)
  have deep : (nextBoundary (keyword :: others)).length < own.length + others.length + 1 + 1 := by omega
  have bounded : (nextBoundary (keyword :: others)).length ≤ own.length + others.length := by omega
  obtain ⟨body, after, ran, errors⟩ := resumes left deep bounded line next start
    #[⟨.missing expectation, keyword⟩]
  have whole : program ⟨own ++ keyword :: others, line, first, #[]⟩ = .ok body after := by
    change declarationsWhile _ (declarationWithin ((own ++ keyword :: others).length + 1))
      (own ++ keyword :: others).length _ = _
    rw [count, declarationsWhile_more (atEnd_more (by simp)) (declaration_misses (misses _) line),
      bind_ok ran]
    rfl
  rw [salvage_ok whole]
  exact errors

end Parse

namespace Parsed

theorem declaration_of_ok {tokens : List Token} {last : Token} (only : ∀ token ∈ tokens, token.kind ≠ .eof)
    (ends : last.kind = .eof) (accepted : (ofTokens (tokens ++ [last]) first).program = .ok [stmt]) :
    ∃ next, Declaration first tokens stmt next [] := by
  rcases program_or_errors first only ends with ⟨body, next, parsed, form⟩ | ⟨_, _, failed⟩
  · rw [parsed] at accepted
    cases accepted
    cases form with
    | cons item others =>
      cases others
      exact ⟨_, item⟩
  · rw [failed] at accepted
    cases accepted

/-- Where a semicolon was forgotten before a word at which a statement begins, there is one error for it.
The other errors are those of the tokens from the next boundary past that word. -/
theorem unended_errors {own others : List Token} {sign keyword last mark : Token} {word : Terminal}
    (only : ∀ token ∈ own, token.kind ≠ .eof) (semicolon : sign.kind = .terminal .semicolon)
    (ends : mark.kind = .eof)
    (accepted : (ofTokens (own ++ [sign] ++ [mark]) first).program = .ok [stmt])
    (unended : stmt.unended? = some expectation)
    (begins : word ∈ statementWords) (here : keyword.kind = .terminal word)
    (real : ∀ token ∈ others, token.kind ≠ .eof) (ends' : last.kind = .eof) (start : NodeId) :
    (ofTokens (own ++ keyword :: others ++ [last]) first).errors =
      ⟨.missing expectation, keyword⟩ ::
        (ofTokens (Parse.nextBoundary (keyword :: others) ++ [last]) start).errors := by
  have ended : ∀ token ∈ own ++ [sign], token.kind ≠ .eof := by
    simpa [or_imp, forall_and, semicolon] using only
  have follows : ∀ token ∈ keyword :: others, token.kind ≠ .eof := by simpa [here] using real
  have whole : ∀ token ∈ own ++ keyword :: others, token.kind ≠ .eof := fun token member =>
    (List.mem_append.mp member).elim (only token) (follows token)
  have left : ∀ token ∈ Parse.nextBoundary (keyword :: others), token.kind ≠ .eof := fun token member =>
    follows token ((Parse.nextBoundary_suffix _).subset member)
  obtain ⟨next, form⟩ := declaration_of_ok ended ends accepted
  have missed := Unended.of_declaration form unended (keyword :: others)
  rw [errors_eq, errors_eq, Parse.State.start_eq first whole ends', Parse.State.start_eq start left ends']
  exact Parse.salvage_misses (fun _ => Parse.unended_misses missed begins here) follows last.line start

private def symbol (terminal : Terminal) : Token := ⟨.terminal terminal, terminal.spelling, 1⟩

private def variableNamed (text : String) : Token := ⟨.identifier, text, 1⟩

/-- A statement that lacks its semicolon. -/
private def unended : List Token := [symbol .kwPrint, variableNamed "a"]

/-- What follows the first word of a statement with an unclosed parenthesis. -/
private def unclosed : List Token := [symbol .leftParen, variableNamed "b", symbol .semicolon]

theorem unclosed_errors :
    (∀ token ∈ unended, token.kind ≠ .eof) ∧ (symbol .semicolon).kind = .terminal .semicolon ∧
      (Token.eof 1).kind = .eof ∧
      (ofTokens (unended ++ [symbol .semicolon] ++ [.eof 1]) 0).program =
        .ok [.print (.read 0 ⟨"a", 1⟩)] ∧
      (Stmt.print (.read 0 ⟨"a", 1⟩)).unended? = some .semicolonAfterPrint ∧
      .kwPrint ∈ statementWords ∧ (symbol .kwPrint).kind = .terminal .kwPrint ∧
      (∀ token ∈ unclosed, token.kind ≠ .eof) ∧
      (ofTokens (unended ++ symbol .kwPrint :: unclosed ++ [.eof 1]) 0).errors =
        ⟨.missing .semicolonAfterPrint, symbol .kwPrint⟩ ::
          (ofTokens (Parse.nextBoundary (symbol .kwPrint :: unclosed) ++ [.eof 1]) 0).errors := by
  have accepted : (ofTokens (unended ++ [symbol .semicolon] ++ [.eof 1]) 0).program =
      .ok [.print (.read 0 ⟨"a", 1⟩)] := rfl
  exact ⟨by decide, rfl, rfl, accepted, rfl, by decide, rfl, by decide,
    unended_errors (by decide) rfl rfl accepted rfl (by decide) rfl (by decide) rfl 0⟩

/-- The error of the second statement is not found, because the word that it begins with is passed over. -/
theorem unclosed_hidden :
    (ofTokens (symbol .kwPrint :: unclosed ++ [.eof 1]) 0).errors =
        [⟨.missing .parenAfterGrouping, symbol .semicolon⟩] ∧
      (ofTokens (unended ++ symbol .kwPrint :: unclosed ++ [.eof 1]) 0).errors =
        [⟨.missing .semicolonAfterPrint, symbol .kwPrint⟩] := by
  constructor <;> rfl

end Parsed

end Lox
