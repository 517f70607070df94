import Lox.Proofs.Parse.Later
import Lox.Proofs.Parse.Steps

/-! What parsing spends. Each error on record is paid for by a token that was passed over, so that the
errors and the tokens to come never grow in number together. -/

namespace Lox.Parse

variable {α β : Type} {state : State}

/-- The errors on record and the tokens to come. -/
def State.weight (state : State) : Nat :=
  state.errors.size + state.rest.length

/-- Weight was taken off, or else nothing has happened. -/
def State.Spent (state after : State) : Prop :=
  after.weight < state.weight ∨ after.rest = state.rest ∧ after.errors = state.errors

/-- A parser that never adds weight. -/
def Affords (parse : Parse α) : Prop :=
  ∀ state, (final parse state).weight ≤ state.weight

/-- A parser that takes off weight or does nothing. -/
def Spends (parse : Parse α) : Prop :=
  ∀ state : State, state.Spent (final parse state)

/-- A parser that does so and takes off weight if it succeeds. -/
structure PaysAt (parse : Parse α) (state : State) : Prop where
  spends : state.Spent (final parse state)
  less : ∀ {value after}, parse state = .ok value after → after.weight < state.weight

def Pays (parse : Parse α) : Prop :=
  ∀ state, PaysAt parse state

theorem State.Spent.weight {after : State} (spent : state.Spent after) : after.weight ≤ state.weight := by
  rcases spent with less | ⟨rest, errors⟩
  · exact Nat.le_of_lt less
  · simp [State.weight, rest, errors]

theorem State.Spent.trans {middle after : State} (first : state.Spent middle) (second : middle.Spent after) :
    state.Spent after := by
  rcases second with less | ⟨rest, errors⟩
  · exact .inl (Nat.lt_of_lt_of_le less first.weight)
  · rcases first with less | ⟨rest', errors'⟩
    · exact .inl (by simpa [State.weight, rest, errors] using less)
    · exact .inr ⟨rest.trans rest', errors.trans errors'⟩

theorem final_ok {parse : Parse α} (ran : parse state = .ok value after) :
    final parse state = after := by
  unfold final
  rw [ran]

theorem final_error {parse : Parse α} (ran : parse state = .error error after) :
    final parse state = after := by
  unfold final
  rw [ran]

/-- The first parser ends the whole, or else the second one does. -/
theorem final_bind {parse : Parse α} {later : α → Parse β} (state : State) :
    (∃ error, (parse >>= later) state = .error error (final parse state)) ∨
      ∃ value, parse state = .ok value (final parse state) ∧
        (parse >>= later) state = later value (final parse state) := by
  cases ran : parse state with
  | ok value middle => exact .inr ⟨value, by rw [final_ok ran], by rw [bind_ok ran, final_ok ran]⟩
  | error error middle => exact .inl ⟨error, by rw [bind_error ran, final_error ran]⟩

theorem final_congr {parse : Parse α} {other : Parse α} {middle : State}
    (same : parse state = other middle) : final parse state = final other middle := by
  unfold final
  rw [same]

theorem Pays.spends {parse : Parse α} (pays : Pays parse) : Spends parse :=
  fun state => (pays state).spends

theorem Spends.affords {parse : Parse α} (spends : Spends parse) : Affords parse :=
  fun state => (spends state).weight

theorem Pays.affords {parse : Parse α} (pays : Pays parse) : Affords parse :=
  pays.spends.affords

namespace Affords

theorem pure (value : α) : Affords (Pure.pure value) :=
  fun _ => Nat.le_refl _

theorem bind {parse : Parse α} {later : α → Parse β} (first : Affords parse)
    (rest : ∀ value, Affords (later value)) : Affords (parse >>= later) := by
  intro state
  have before := first state
  rcases final_bind state with ⟨_, failed⟩ | ⟨value, _, moved⟩
  · rwa [final_error failed]
  · rw [final_congr moved]
    exact Nat.le_trans (rest value _) before

theorem discard {parse : Parse α} (affords : Affords parse) : Affords (Functor.discard parse) :=
  affords.bind fun _ => pure _

theorem map {parse : Parse α} (affords : Affords parse) (build : α → β) :
    Affords (build <$> parse) :=
  affords.bind fun _ => pure _

end Affords

namespace Spends

theorem pure (value : α) : Spends (Pure.pure value) :=
  fun _ => .inr ⟨rfl, rfl⟩

theorem bind {parse : Parse α} {later : α → Parse β} (first : Spends parse)
    (rest : ∀ value, Spends (later value)) : Spends (parse >>= later) := by
  intro state
  have before := first state
  rcases final_bind state with ⟨_, failed⟩ | ⟨value, _, moved⟩
  · rwa [final_error failed]
  · rw [final_congr moved]
    exact before.trans (rest value _)

end Spends

namespace PaysAt

/-- Once something is paid, the rest needs only to be afforded. -/
theorem bind {parse : Parse α} {later : α → Parse β} (first : PaysAt parse state)
    (rest : ∀ value, Affords (later value)) : PaysAt (parse >>= later) state := by
  rcases final_bind state with ⟨error, failed⟩ | ⟨value, ran, moved⟩
  · refine ⟨by rw [final_error failed]; exact first.spends, fun ran => ?_⟩
    rw [failed] at ran
    cases ran
  · have less := Nat.lt_of_le_of_lt (rest value _) (first.less ran)
    rw [← final_congr moved] at less
    refine ⟨.inl less, fun ran => ?_⟩
    rwa [final_ok ran] at less

/-- A first step that need not pay. -/
theorem after {parse : Parse α} {later : α → Parse β} (first : Spends parse)
    (rest : ∀ {value middle}, parse state = .ok value middle → PaysAt (later value) middle) :
    PaysAt (parse >>= later) state := by
  have before := first state
  rcases final_bind state with ⟨error, failed⟩ | ⟨value, ran, moved⟩
  · refine ⟨by rwa [final_error failed], fun ran => ?_⟩
    rw [failed] at ran
    cases ran
  · have second := rest ran
    refine ⟨final_congr moved ▸ before.trans second.spends, fun ended => ?_⟩
    rw [moved] at ended
    exact Nat.lt_of_lt_of_le (second.less ended) before.weight

end PaysAt

namespace Pays

theorem bind {parse : Parse α} {later : α → Parse β} (first : Pays parse)
    (rest : ∀ value, Affords (later value)) : Pays (parse >>= later) :=
  fun state => (first state).bind rest

theorem after {parse : Parse α} {later : α → Parse β} (first : Spends parse)
    (rest : ∀ value, Pays (later value)) : Pays (parse >>= later) :=
  fun _ => .after first fun _ => rest _ _

theorem map {parse : Parse α} (pays : Pays parse) (build : α → β) : Pays (build <$> parse) :=
  pays.bind fun _ => .pure _

end Pays

section Steps

theorem look_spends (view : State → α) : Spends (fun state => .ok (view state) state : Parse α) :=
  fun _ => .inr ⟨rfl, rfl⟩

theorem skip_spends : Spends skip := by
  intro state
  change state.Spent { state with rest := state.rest.tail }
  unfold State.Spent State.weight
  cases next : state.rest with
  | nil => exact .inr ⟨rfl, rfl⟩
  | cons token rest => exact .inl (by simp)

theorem skip_pays (real : state.peek.kind ≠ .eof) : PaysAt skip state := by
  have less : { state with rest := state.rest.tail }.weight < state.weight := by
    obtain ⟨token, rest, next, _, _⟩ := State.next_token rfl real
    simp [State.weight, next]
  refine ⟨.inl less, fun ran => ?_⟩
  cases ran
  exact less

theorem fail_pays (fault : SyntaxFault) : Pays (fail fault : Parse α) :=
  fun _ => ⟨.inr ⟨rfl, rfl⟩, nofun⟩

theorem freshId_spends : Spends freshId :=
  fun _ => .inr ⟨rfl, rfl⟩

theorem check_spends (word : Terminal) : Spends (check word) :=
  look_spends _

theorem take_spends (word : Terminal) : Spends (take word) := by
  apply (check_spends word).bind
  intro found
  cases found with
  | true => exact skip_spends.bind fun _ => .pure _
  | false => exact .pure _

theorem expect_pays (expectation : Expectation) : Pays (expect expectation) := by
  intro state
  change PaysAt (peek >>= _) state
  refine .after (look_spends _) fun ran => ?_
  cases ran
  split
  · rename_i met
    exact (skip_pays (met ▸ wanted_ne_eof expectation)).bind fun _ => .pure _
  · exact fail_pays _ _

theorem expectName_pays (expectation : Expectation) : Pays (expectName expectation) :=
  (expect_pays expectation).bind fun _ => .pure _

theorem takeOperator?_spends (operator? : Kind → Option α) :
    Spends (takeOperator? operator?) := by
  apply (look_spends State.peek).bind
  intro token
  split
  · exact skip_spends.bind fun _ => .pure _
  · exact .pure _

theorem report_weight (error : SyntaxError) (state : State) :
    (final (report error) state).weight = state.weight + 1 := by
  simp only [final, report, State.weight, Array.size_push]
  omega

theorem take_weight (taken : take word state = .ok true after) : after.weight + 1 = state.weight := by
  obtain ⟨rest, errors⟩ := take_shorter taken
  rw [State.weight, State.weight, errors, ← rest]
  omega

/-- A parser that may leave one error to be paid for. -/
def Owes (parse : Parse α) : Prop :=
  ∀ state, (final parse state).weight ≤ state.weight + 1

theorem Affords.owes {parse : Parse α} (affords : Affords parse) : Owes parse :=
  fun state => Nat.le_succ_of_le (affords state)

theorem report_owes (error : SyntaxError) : Owes (report error) :=
  fun state => Nat.le_of_eq (report_weight error state)

theorem Owes.bind {parse : Parse α} {later : α → Parse β} (first : Owes parse)
    (rest : ∀ value, Affords (later value)) : Owes (parse >>= later) := by
  intro state
  have owed := first state
  rcases final_bind state with ⟨_, failed⟩ | ⟨value, _, moved⟩
  · rwa [final_error failed]
  · rw [final_congr moved]
    exact Nat.le_trans (rest value _) owed

/-- What is paid first makes up for what is owed afterwards. -/
theorem Pays.owes {parse : Parse α} {later : α → Parse β} (first : Pays parse)
    (rest : ∀ value, Owes (later value)) : Affords (parse >>= later) := by
  intro state
  rcases final_bind state with ⟨_, failed⟩ | ⟨value, ran, moved⟩
  · rw [final_error failed]
    exact first.affords state
  · rw [final_congr moved]
    exact Nat.le_trans (rest value _) ((first state).less ran)

/-- The report that an item is one too many is paid for by the comma before it. -/
theorem comma_affords {rest : Parse (List α)} (owes : Owes rest) (first : α) :
    Affords (take .comma >>= fun more =>
      if more then rest >>= fun values => return first :: values else return [first]) := by
  intro state
  have taken := (take_spends .comma).affords state
  rcases final_bind state with ⟨_, failed⟩ | ⟨more, ran, moved⟩
  · rwa [final_error failed]
  rw [final_congr moved]
  cases more with
  | false => exact taken
  | true =>
    have paid := take_weight ran
    have owed := owes (final (take .comma) state)
    have mapped : final (rest >>= fun values => return first :: values) (final (take .comma) state) =
        final rest (final (take .comma) state) := by
      rcases final_bind (final (take .comma) state) with ⟨_, failed⟩ | ⟨_, _, moved⟩
      · exact final_error failed
      · exact (final_congr moved).trans rfl
    rw [if_pos rfl, mapped]
    omega

theorem commaSeparated_owes {item : Parse α} (items : Pays item) (excess : SyntaxFault)
    (bound count : Nat) : Owes (commaSeparated excess item bound count) := by
  induction bound generalizing count with
  | zero => exact fun state => Nat.le_succ _
  | succ bound ih =>
    have round := (items.bind (comma_affords (ih (count + 1)))).affords
    intro state
    simp only [commaSeparated]
    split
    · exact (report_owes _).bind (fun _ => round) state
    · exact Nat.le_succ_of_le (round state)

theorem listed_affords {item : Parse α} (items : Pays item) (excess : SyntaxFault) :
    Affords (listed excess item) := by
  apply (check_spends .rightParen).affords.bind
  intro closed
  split
  · exact .pure _
  · apply (look_spends fun state => state.rest.length).affords.bind
    intro bound
    have few : ¬ maxArity ≤ 0 := by decide
    simp only [commaSeparated, if_neg few]
    exact (items.bind (comma_affords (commaSeparated_owes items excess bound 1))).affords

end Steps

section Expressions

variable {expression : Parse Expr} (inner : Pays expression)

include inner

theorem callArguments_affords (callee : Expr) : Affords (callArguments expression callee) :=
  (listed_affords inner _).bind fun _ => (expect_pays _).affords.bind fun _ => .pure _

theorem primary_pays : Pays (primary expression) := by
  intro state
  refine .after (look_spends State.peek) fun ran => ?_
  cases ran
  split
  case _ kind => exact (skip_pays (by simp [kind])).bind fun _ => .pure _
  case _ kind => exact (skip_pays (by simp [kind])).bind fun _ => .pure _
  case _ kind => exact (skip_pays (by simp [kind])).bind fun _ => .pure _
  case _ kind => exact (skip_pays (by simp [kind])).bind fun _ => .pure _
  case _ kind => exact (skip_pays (by simp [kind])).bind fun _ => .pure _
  case _ kind =>
    refine (skip_pays (by simp [kind])).bind fun _ => ?_
    apply (expect_pays .dotAfterSuper).affords.discard.bind
    intro _
    apply (expectName_pays .superMethodName).affords.bind
    intro method
    exact freshId_spends.affords.bind fun _ => .pure _
  case _ kind =>
    exact (skip_pays (by simp [kind])).bind fun _ => freshId_spends.affords.bind fun _ => .pure _
  case _ kind =>
    exact (skip_pays (by simp [kind])).bind fun _ => freshId_spends.affords.bind fun _ => .pure _
  case _ kind =>
    refine (skip_pays (by simp [kind])).bind fun _ => ?_
    apply inner.affords.bind
    intro tree
    exact (expect_pays .parenAfterGrouping).affords.discard.bind fun _ => .pure _
  case _ => exact fail_pays _ _

theorem callsFrom_affords (bound : Nat) (callee : Expr) :
    Affords (callsFrom expression bound callee) := by
  induction bound generalizing callee with
  | zero => exact .pure _
  | succ bound ih =>
    apply (take_spends .leftParen).affords.bind
    intro called
    split
    · exact (callArguments_affords inner callee).bind ih
    · apply (take_spends .dot).affords.bind
      intro read
      split
      · exact (expectName_pays .propertyName).affords.bind fun _ => ih _
      · exact .pure _

theorem call_pays : Pays (call expression) :=
  (primary_pays inner).bind fun callee =>
    (look_spends _).affords.bind fun bound => callsFrom_affords inner bound callee

omit inner in
theorem unaryOperators_spends : Spends unaryOperators := by
  intro state
  change state.Spent { state with rest := (leadingUnary state.rest).2 }
  have suffix := leadingUnary_suffix state.rest
  rcases Nat.lt_or_eq_of_le suffix.length_le with less | same
  · exact .inl (Nat.add_lt_add_left less _)
  · exact .inr ⟨suffix.eq_of_length same, rfl⟩

theorem unary_pays : Pays (unary expression) :=
  .after unaryOperators_spends fun _ => (call_pays inner).map _

omit inner in
theorem chainFrom_affords {operator? : Kind → Option α} {join : α → Nat → Expr → Expr → Expr}
    {operand : Parse Expr} (operands : Pays operand) (bound : Nat) (left : Expr) :
    Affords (chainFrom operator? join operand bound left) := by
  induction bound generalizing left with
  | zero => exact .pure _
  | succ bound ih =>
    apply (takeOperator?_spends operator?).affords.bind
    intro operator
    split
    · exact operands.affords.bind fun _ => ih _
    · exact .pure _

omit inner in
theorem chain_pays {operator? : Kind → Option α} {join : α → Nat → Expr → Expr → Expr}
    {operand : Parse Expr} (operands : Pays operand) : Pays (chain operator? join operand) :=
  operands.bind fun left =>
    (look_spends _).affords.bind fun bound => chainFrom_affords operands bound left

theorem disjunction_pays : Pays (disjunction expression) := by
  have factors : Pays (factor expression) := chain_pays (unary_pays inner)
  have comparisons : Pays (comparison expression) := chain_pays (chain_pays factors)
  exact chain_pays (chain_pays (chain_pays comparisons))

/-- The report of a bad target is paid for by the value assigned to it. -/
theorem assignment_pays : Pays (assignment expression) := by
  apply (disjunction_pays inner).bind
  intro target
  apply (look_spends State.peek).affords.bind
  intro equals
  apply (take_spends .equal).affords.bind
  intro assigned
  split
  · apply inner.owes
    intro value
    split
    · exact (freshId_spends.affords.bind fun _ => .pure _).owes
    · exact (Affords.pure _).owes
    · exact (report_owes _).bind fun _ => .pure _
  · exact .pure _

end Expressions

theorem expressionWithin_pays (depth : Nat) : Pays (expressionWithin depth) := by
  induction depth with
  | zero => exact fail_pays _
  | succ depth ih => exact assignment_pays ih

theorem expression_pays : Pays expression :=
  .after (look_spends _) fun depth => expressionWithin_pays (depth + 1)

end Lox.Parse
