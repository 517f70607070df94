import Lox.Proofs.Grammar.Basic
import Lox.Proofs.Parse.Steps

/-! Parsers that keep to a form: whenever they succeed and no error is on record afterwards, none was
before, and the tokens they passed over make up the form with the tree they give. Errors stay on
record, so a parse without errors is one in which every step has kept to its form. -/

namespace Lox.Parse

open Grammar

def Sound (parse : Parse α) (form : Form α) : Prop :=
  ∀ ⦃state tree after⦄, parse state = .ok tree after → after.errors = #[] →
    state.errors = #[] ∧ form state.nextId state.rest tree after.nextId after.rest

theorem Sound.weaken {form other : Form α} (sound : Sound parse form)
    (implies : ∀ first input tree next rest,
      form first input tree next rest → other first input tree next rest) :
    Sound parse other := by
  intro state tree after run clean
  obtain ⟨before, formed⟩ := sound run clean
  exact ⟨before, implies _ _ _ _ _ formed⟩

theorem Sound.pure {form : Form α} (formed : ∀ first rest, form first rest tree first rest) :
    Sound (Pure.pure tree) form := by
  intro state _ after run clean
  cases run
  exact ⟨clean, formed _ _⟩

/-- The form of the first step is at the disposal of the steps after it. -/
theorem Sound.bind {form : Form α} {whole : Form β} {later : α → Parse β}
    (first : Sound parse form)
    (rest : ∀ tree, Sound (later tree) fun middle input result next rest =>
      ∀ start before, form start before tree middle input → whole start before result next rest) :
    Sound (parse >>= later) whole := by
  intro state result after run clean
  obtain ⟨tree, between, ran, ended⟩ := bind_eq_ok run
  obtain ⟨cleanBetween, formed⟩ := rest tree ended clean
  obtain ⟨cleanBefore, started⟩ := first ran cleanBetween
  exact ⟨cleanBefore, formed _ _ started⟩

theorem Sound.map {form : Form α} {whole : Form β} {build : α → β} (sound : Sound parse form)
    (builds : ∀ first input tree next rest,
      form first input tree next rest → whole first input (build tree) next rest) :
    Sound (build <$> parse) whole := by
  intro state result after run clean
  change EStateM.map build parse state = .ok result after at run
  unfold EStateM.map at run
  split at run
  · rename_i ran
    cases run
    obtain ⟨before, formed⟩ := sound ran clean
    exact ⟨before, builds _ _ _ _ _ formed⟩
  · cases run

inductive Returned (result : α) : Form α where
  | same : Returned result first rest result first rest

inductive Mapped (build : α → β) (form : Form α) : Form β where
  | built (formed : form first input tree next rest) :
      Mapped build form first input (build tree) next rest

theorem Sound.returned (result : α) : Sound (Pure.pure result) (Returned result) :=
  .pure fun _ _ => .same

theorem Sound.mapped {form : Form α} (sound : Sound parse form) (build : α → β) :
    Sound (build <$> parse) (Mapped build form) :=
  sound.map fun _ _ _ _ _ => .built

theorem Sound.fail {form : Form α} : Sound (Parse.fail fault) form := by
  intro state tree after run
  cases run

/-- Nothing is without errors after a report. -/
theorem Sound.report {form other : Form α} {later : Unit → Parse α}
    (rest : Sound (later ()) other) : Sound (Parse.report error >>= later) form := by
  intro state tree after run clean
  obtain ⟨reported, _⟩ := rest run clean
  simp at reported

theorem Sound.trivial : Sound (Pure.pure tree : Parse α) fun _ _ _ _ _ => True :=
  .pure fun _ _ => True.intro

def Begins (word : Terminal) : List Token → Prop
  | [] => False
  | token :: _ => token.Is word

inductive Observed (word : Terminal) : Form Bool where
  | present (begins : Begins word rest) : Observed word first rest true first rest
  | absent (begins : ¬ Begins word rest) : Observed word first rest false first rest

inductive Taken (word : Terminal) : Form Bool where
  | present (taken : token.Is word) : Taken word first (token :: rest) true first rest
  | absent (begins : ¬ Begins word rest) : Taken word first rest false first rest

inductive Expected (expectation : Expectation) : Form Token where
  | met (wanted : token.kind = expectation.wanted) :
      Expected expectation first (token :: rest) token first rest

inductive Skipped : Form Unit where
  | one : Skipped first input () first input.tail

inductive Drawn : Form NodeId where
  | next : Drawn first rest first (first + 1) rest

theorem begins_iff (state : State) (word : Terminal) :
    Begins word state.rest ↔ state.peek.kind = .terminal word := by
  unfold State.peek
  cases state.rest with
  | nil => simp [Begins, Token.eof]
  | cons token later => rfl

theorem check_sound : Sound (check word) (Observed word) := by
  intro state found after run clean
  cases run
  refine ⟨clean, ?_⟩
  by_cases present : Begins word state.rest
  · rw [(begins_iff state word).mp present, beq_self_eq_true]
    exact .present present
  · rw [beq_false_of_ne (mt (begins_iff state word).mpr present)]
    exact .absent present

theorem skip_sound : Sound skip Skipped := by
  intro state found after run clean
  cases run
  exact ⟨clean, .one⟩

theorem take_sound : Sound (take word) (Taken word) := by
  refine check_sound.bind fun
    | true => skip_sound.bind fun _ => .pure ?_
    | false => .pure ?_
  · rintro first rest _ before ⟨⟩ _ _ ⟨begins⟩
    cases before with
    | nil => exact begins.elim
    | cons token later => exact .present begins
  · intro first rest start before observed
    cases observed with
    | absent begins => exact .absent begins

/-- A look at the next token, which there is none of at the end of the source. -/
theorem Sound.peek {form : Form α} {later : Token → Parse α}
    (ended : ∀ line, Sound (later (.eof line)) form)
    (found : ∀ token, Sound (later token) fun first input tree next rest =>
      ∀ others, input = token :: others → form first input tree next rest) :
    Sound (Parse.peek >>= later) form := by
  intro state tree after run clean
  change later state.peek state = .ok tree after at run
  unfold State.peek at run
  cases rest : state.rest with
  | nil =>
    rw [rest] at run
    have formed := ended _ run clean
    rwa [rest] at formed
  | cons token others =>
    rw [rest] at run
    obtain ⟨before, formed⟩ := found token run clean
    have result := formed others rest
    rw [rest] at result
    exact ⟨before, result⟩

theorem expect_sound (expectation : Expectation) :
    Sound (expect expectation) (Expected expectation) := by
  refine .peek (fun line => ?_) fun token => ?_
  · split
    · rename_i wanted
      exact absurd wanted.symm (wanted_ne_eof expectation)
    · exact .fail
  · split
    · rename_i wanted
      refine skip_sound.bind fun _ => .pure ?_
      rintro first rest _ before ⟨⟩ others rfl
      exact .met wanted
    · exact .fail

theorem discard_expect_sound (expectation : Expectation) :
    Sound (discard (expect expectation)) (Mapped (fun _ => ()) (Expected expectation)) :=
  (expect_sound expectation).mapped _

theorem expectName_sound (expectation : Expectation) :
    Sound (expectName expectation) (Mapped Token.toName (Expected expectation)) :=
  (expect_sound expectation).mapped _

theorem freshId_sound : Sound freshId Drawn := by
  intro state id after run clean
  cases run
  exact ⟨clean, .next⟩

/-- A bound that depends on the number of tokens left may be anything that is large enough. -/
theorem Sound.remaining {form : Form α} {later : Nat → Parse α}
    (rest : ∀ count, Sound (later count) fun first input tree next rest =>
      input.length = count → form first input tree next rest) :
    Sound (Parse.remaining >>= later) form := by
  intro state tree after run clean
  obtain ⟨before, formed⟩ := rest state.rest.length run clean
  exact ⟨before, formed rfl⟩

inductive Operated (operator? : Kind → Option α) : Form (Option (α × Nat)) where
  | some (operates : operator? token.kind = some op) :
      Operated operator? first (token :: rest) (some (op, token.line)) first rest
  | none : Operated operator? first rest none first rest

theorem takeOperator?_sound {operator? : Kind → Option α} (ending : operator? .eof = none) :
    Sound (takeOperator? operator?) (Operated operator?) := by
  refine .peek (fun line => ?_) fun token => ?_
  · simp only [Token.eof, ending]
    exact .pure fun _ _ => .none
  · cases operates : operator? token.kind with
    | none => exact .pure fun _ _ _ _ => .none
    | some op =>
      refine skip_sound.bind fun _ => .pure ?_
      rintro first rest _ before ⟨⟩ others rfl
      exact .some operates

theorem commaSeparated_sound {item : Parse α} {form : Form α} (sound : Sound item form)
    (shorter : ∀ {first input tree next rest}, form first input tree next rest →
      rest.length ≤ input.length) (bound count : Nat) :
    Sound (commaSeparated excess item bound count) fun first input trees next rest =>
      input.length < bound →
        Separated form first input trees next rest ∧ count + trees.length ≤ maxArity := by
  induction bound generalizing count with
  | zero => exact .pure fun first rest short => absurd short (Nat.not_lt_zero _)
  | succ bound ih =>
    -- Once the count is small enough, nothing is reported and the first item is parsed at once.
    have items : Sound (do
        let first ← item
        if ← take .comma then return first :: (← commaSeparated excess item bound (count + 1))
        else return [first]) fun first input trees next rest =>
          count < maxArity → input.length < bound + 1 →
            Separated form first input trees next rest ∧ count + trees.length ≤ maxArity := by
      refine sound.bind fun tree => take_sound.bind fun
        | true => (ih (count + 1)).bind fun trees => .pure ?_
        | false => .pure ?_
      · rintro first rest middle later others _ _ ⟨isComma⟩ start before taken few short
        have rested := shorter taken
        simp only [List.length_cons] at rested
        obtain ⟨separated, bounded⟩ := others (by omega)
        exact ⟨.comma taken isComma separated, by simp only [List.length_cons]; omega⟩
      · rintro first rest _ _ ⟨⟩ start before taken few _
        exact ⟨.last taken, by simp only [List.length_singleton]; omega⟩
    unfold commaSeparated
    split
    · refine .peek (fun line => ?_) fun token => ?_
      · exact .report items
      · exact .report items
    · rename_i few
      exact items.weaken fun _ _ _ _ _ formed => formed (Nat.lt_of_not_le few)

theorem listed_sound {item : Parse α} {form : Form α} (sound : Sound item form)
    (shorter : ∀ {first input tree next rest}, form first input tree next rest →
      rest.length ≤ input.length) :
    Sound (listed excess item) (Listed form) := by
  refine check_sound.bind fun
    | true => .pure ?_
    | false => .remaining fun count => ?_
  · rintro first rest _ _ ⟨_⟩
    exact .none
  · refine (commaSeparated_sound sound shorter (count + 1) 0).weaken ?_
    rintro first input trees next rest formed rfl _ _ ⟨_⟩
    obtain ⟨items, few⟩ := formed (Nat.lt_succ_self _)
    exact .some items (by omega)

end Lox.Parse
