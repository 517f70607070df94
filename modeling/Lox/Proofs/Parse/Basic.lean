import Lox.Proofs.Steps
import Lox.Proofs.Tree.Alike
import Lox.Tree.Parse.Statement

/-! Parsing with other labels. Lines and the first identifier to hand out only label what is parsed: of
tokens that are alike as many are passed, alike errors are reported and the trees are alike. -/

namespace Lox

variable (pairing : Pairing)

structure SyntaxError.Alike (error other : SyntaxError) : Prop where
  fault : error.fault = other.fault
  token : Token.Alike pairing error.token other.token

namespace Parse

variable {α β γ δ : Type}

/-- States before tokens that are alike, with next identifiers that stand for each other from now on. -/
structure State.Alike (state other : State) : Prop where
  rest : List.Forall₂ (Token.Alike pairing) state.rest other.rest
  endLine : pairing.lines state.endLine other.endLine
  ids : ∀ count, pairing.ids (state.nextId + count) (other.nextId + count)
  errors : List.Forall₂ (SyntaxError.Alike pairing) state.errors.toList other.errors.toList

inductive Ends (related : α → β → Prop) :
    EStateM.Result SyntaxError State α → EStateM.Result SyntaxError State β → Prop where
  | ok (same : related value value') (after : State.Alike pairing state state') :
      Ends related (.ok value state) (.ok value' state')
  | error (reason : SyntaxError.Alike pairing cause cause')
      (after : State.Alike pairing state state') :
      Ends related (.error cause state) (.error cause' state')

/-- Parsers that do the same from states that are alike. -/
def Relabels (related : α → β → Prop) (parse : Parse α) (other : Parse β) : Prop :=
  ∀ state state', State.Alike pairing state state' →
    Ends pairing related (parse state) (other state')

variable {pairing}

namespace Relabels

theorem pure {related : α → β → Prop} (same : related value value') :
    Relabels pairing related (Pure.pure value) (Pure.pure value') :=
  fun _ _ alike => .ok same alike

theorem bind {related : α → β → Prop} {final : γ → δ → Prop} {parse : Parse α} {other : Parse β}
    {later : α → Parse γ} {later' : β → Parse δ} (first : Relabels pairing related parse other)
    (rest : ∀ value value', related value value' →
      Relabels pairing final (later value) (later' value')) :
    Relabels pairing final (parse >>= later) (other >>= later') := by
  intro state state' alike
  have ends := first state state' alike
  rw [bind_apply, bind_apply]
  generalize parse state = result at ends ⊢
  generalize other state' = result' at ends ⊢
  cases ends with
  | ok same after => exact rest _ _ same _ _ after
  | error reason after => exact .error reason after

theorem bind_eq {final : γ → δ → Prop} {parse other : Parse α} {later : α → Parse γ}
    {later' : α → Parse δ} (first : Relabels pairing Eq parse other)
    (rest : ∀ value, Relabels pairing final (later value) (later' value)) :
    Relabels pairing final (parse >>= later) (other >>= later') :=
  first.bind fun _ _ same => same ▸ rest _

theorem discard {related : α → β → Prop} {parse : Parse α} {other : Parse β}
    (relabels : Relabels pairing related parse other) :
    Relabels pairing Eq (Functor.discard parse) (Functor.discard other) :=
  relabels.bind fun _ _ _ => pure rfl

theorem map {related : α → β → Prop} {final : γ → δ → Prop} {parse : Parse α} {other : Parse β}
    {build : α → γ} {build' : β → δ} (relabels : Relabels pairing related parse other)
    (same : ∀ value value', related value value' → final (build value) (build' value')) :
    Relabels pairing final (build <$> parse) (build' <$> other) := by
  intro state state' alike
  have ends := relabels state state' alike
  change Ends pairing final (EStateM.map build parse state) (EStateM.map build' other state')
  unfold EStateM.map
  generalize parse state = result at ends ⊢
  generalize other state' = result' at ends ⊢
  cases ends with
  | ok related after => exact .ok (same _ _ related) after
  | error reason after => exact .error reason after

/-- A look at the state that finds the same in states that are alike. -/
theorem look {view : State → α}
    (same : ∀ {state state'}, State.Alike pairing state state' → view state = view state') :
    Relabels pairing Eq (fun state => .ok (view state) state) fun state => .ok (view state) state :=
  fun _ _ alike => .ok (same alike) alike

end Relabels

section Steps

theorem State.Alike.peek (alike : State.Alike pairing state state') :
    Token.Alike pairing state.peek state'.peek := by
  have rest := alike.rest
  unfold State.peek
  generalize state.rest = tokens at rest ⊢
  generalize state'.rest = tokens' at rest ⊢
  cases rest with
  | nil => exact ⟨rfl, rfl, alike.endLine⟩
  | cons first _ => exact first

/-- The next tokens differ in their lines only. -/
theorem peek_relabels {final : α → β → Prop} {later : Token → Parse α} {later' : Token → Parse β}
    (rest : ∀ kind lexeme {here there}, pairing.lines here there →
      Relabels pairing final (later ⟨kind, lexeme, here⟩) (later' ⟨kind, lexeme, there⟩)) :
    Relabels pairing final (peek >>= later) (peek >>= later') := by
  have looks : Relabels pairing (Token.Alike pairing) peek peek :=
    fun _ _ alike => .ok alike.peek alike
  apply looks.bind
  intro token token' same
  obtain ⟨kind, lexeme, line⟩ := token
  obtain ⟨kind', lexeme', line'⟩ := token'
  obtain ⟨rfl, rfl, lines⟩ := same
  exact rest kind lexeme lines

theorem atEnd_relabels : Relabels pairing Eq atEnd atEnd := by
  apply Relabels.look
  intro state state' alike
  rw [Bool.eq_iff_iff, List.isEmpty_iff_length_eq_zero, List.isEmpty_iff_length_eq_zero,
    alike.rest.length_eq]

theorem remaining_relabels : Relabels pairing Eq remaining remaining :=
  .look fun alike => alike.rest.length_eq

theorem skip_relabels : Relabels pairing Eq skip skip := by
  intro state state' alike
  refine .ok rfl { alike with rest := ?_ }
  have rest := alike.rest
  generalize state.rest = tokens at rest ⊢
  generalize state'.rest = tokens' at rest ⊢
  cases rest with
  | nil => exact .nil
  | cons _ rest => exact rest

theorem check_relabels (word : Terminal) : Relabels pairing Eq (check word) (check word) :=
  .look fun alike => by rw [alike.peek.kind]

theorem fail_relabels {related : α → β → Prop} (fault : SyntaxFault) :
    Relabels pairing related (fail fault) (fail fault) :=
  fun _ _ alike => .error ⟨rfl, alike.peek⟩ alike

theorem State.Alike.report (alike : State.Alike pairing state state')
    (reason : SyntaxError.Alike pairing error error') (rest : List.Forall₂ (Token.Alike pairing) tokens tokens') :
    State.Alike pairing { state with rest := tokens, errors := state.errors.push error }
      { state' with rest := tokens', errors := state'.errors.push error' } := by
  refine { alike with rest, errors := ?_ }
  simp only [Array.toList_push]
  exact List.rel_append alike.errors (.cons reason .nil)

theorem report_relabels (reason : SyntaxError.Alike pairing error error') :
    Relabels pairing Eq (report error) (report error') :=
  fun _ _ alike => .ok rfl (alike.report reason alike.rest)

theorem freshId_relabels : Relabels pairing pairing.ids freshId freshId := by
  intro state state' alike
  refine .ok (alike.ids 0) { alike with ids := ?_ }
  intro count
  have later := alike.ids (1 + count)
  rwa [← Nat.add_assoc, ← Nat.add_assoc] at later

theorem take_relabels (word : Terminal) : Relabels pairing Eq (take word) (take word) := by
  apply (check_relabels word).bind_eq
  intro found
  cases found with
  | true => exact skip_relabels.bind_eq fun _ => .pure rfl
  | false => exact .pure rfl

theorem expect_relabels (expectation : Expectation) :
    Relabels pairing (Token.Alike pairing) (expect expectation) (expect expectation) := by
  apply peek_relabels
  intro kind lexeme here there line
  split
  · exact skip_relabels.bind_eq fun _ => .pure ⟨rfl, rfl, line⟩
  · exact fail_relabels _

theorem expectName_relabels (expectation : Expectation) :
    Relabels pairing (Name.Alike pairing) (expectName expectation)
      (expectName expectation) :=
  (expect_relabels expectation).bind fun _ _ same => .pure ⟨same.lexeme, same.line⟩

/-- The same operator on lines that stand for each other. -/
def SameOperator (pairing : Pairing) (operator other : α × Nat) : Prop :=
  operator.1 = other.1 ∧ pairing.lines operator.2 other.2

theorem takeOperator?_relabels (operator? : Kind → Option α) :
    Relabels pairing (Option.Rel (SameOperator pairing)) (takeOperator? operator?)
      (takeOperator? operator?) := by
  apply peek_relabels
  intro kind lexeme here there line
  dsimp only
  cases operator? kind with
  | some op => exact skip_relabels.bind_eq fun _ => .pure (.some ⟨rfl, line⟩)
  | none => exact .pure .none

variable {related : α → β → Prop} {item : Parse α} {item' : Parse β}

theorem commaSeparated_relabels (excess : SyntaxFault) (items : Relabels pairing related item item')
    (bound count : Nat) :
    Relabels pairing (List.Forall₂ related) (commaSeparated excess item bound count)
      (commaSeparated excess item' bound count) := by
  induction bound generalizing count with
  | zero => exact .pure .nil
  | succ bound ih =>
    have others : Relabels pairing (List.Forall₂ related)
        (item >>= fun first => take .comma >>= fun more => if more then
          commaSeparated excess item bound (count + 1) >>= fun rest => return first :: rest
          else return [first])
        (item' >>= fun first => take .comma >>= fun more => if more then
          commaSeparated excess item' bound (count + 1) >>= fun rest => return first :: rest
          else return [first]) := by
      apply items.bind
      intro first first' same
      apply (take_relabels .comma).bind_eq
      intro more
      split
      · exact (ih (count + 1)).bind fun _ _ rest => .pure (.cons same rest)
      · exact .pure (.cons same .nil)
    simp only [commaSeparated]
    split
    · apply peek_relabels
      intro kind lexeme here there line
      have reason : SyntaxError.Alike pairing ⟨excess, kind, lexeme, here⟩
        ⟨excess, kind, lexeme, there⟩ := ⟨rfl, rfl, rfl, line⟩
      exact (report_relabels reason).bind_eq fun _ => others
    · exact others

theorem listed_relabels (excess : SyntaxFault) (items : Relabels pairing related item item') :
    Relabels pairing (List.Forall₂ related) (listed excess item) (listed excess item') := by
  apply (check_relabels .rightParen).bind_eq
  intro closed
  split
  · exact .pure .nil
  · exact remaining_relabels.bind_eq fun count => commaSeparated_relabels excess items (count + 1) 0

end Steps

end Parse

end Lox
