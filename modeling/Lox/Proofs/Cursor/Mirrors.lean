import Lox.Proofs.Cursor.Basic
import Lox.Proofs.Parse.Steps

/-! The two parsers side by side. The place in the buffer stands for the tokens from there on, and from
states that mirror each other the steps of both have the same results and lead to such states. -/

namespace Lox.Cursor

variable {α β : Type}

/-- The buffer from the place of `cursor` on holds what is to come in `state`, before the end mark
`last`, and the two agree otherwise. The parser never looked at a place before one that it had looked
at, and no declaration that started before the end stopped where it started. -/
structure Mirrors (tokens : List Token) (last : Token) (cursor : State) (state : Parse.State) : Prop where
  rest : (tokens ++ [last]).drop cursor.current = state.rest ++ [last]
  real : ∀ token ∈ state.rest, token.kind ≠ .eof
  ends : last.kind = .eof
  endLine : state.endLine = last.line
  nextId : cursor.nextId = state.nextId
  errors : cursor.errors = state.errors
  ordered : cursor.looks.Pairwise (· ≥ ·)
  behind : ∀ look ∈ cursor.looks, look ≤ cursor.current
  progress : ∀ span ∈ cursor.declarations, span.start < tokens.length → span.start < span.stop

/-- The parser over the buffer has the same result, in a state that mirrors the other one and not at an
earlier place. -/
inductive Same (tokens : List Token) (last : Token) (start : State) :
    Option (Except SyntaxError α × State) → EStateM.Result SyntaxError Parse.State α → Prop where
  | ok (mirrors : Mirrors tokens last cursor state) (forward : start.current ≤ cursor.current) :
      Same tokens last start (some (.ok value, cursor)) (.ok value state)
  | error (mirrors : Mirrors tokens last cursor state) (forward : start.current ≤ cursor.current) :
      Same tokens last start (some (.error error, cursor)) (.error error state)

/-- Parsing over the buffer has the given result. -/
def Reaches (tokens : List Token) (last : Token) (parse : Cursor α) (start : State)
    (result : EStateM.Result SyntaxError Parse.State α) : Prop :=
  Same tokens last start (parse (tokens ++ [last]) start) result

/-- Parsing over the buffer has the result of the other parser. -/
def Follows (tokens : List Token) (last : Token) (parse : Cursor α) (other : Parse α) (cursor : State)
    (state : Parse.State) : Prop :=
  Reaches tokens last parse cursor (other state)

/-- The token just passed over. -/
def State.Passed (tokens : List Token) (cursor : State) (token : Token) : Prop :=
  ∃ index, cursor.current = index + 1 ∧ tokens[index]? = some token

variable {tokens others : List Token} {last token : Token} {start cursor : State}
  {state : Parse.State}

namespace Mirrors

theorem length (mirrors : Mirrors tokens last cursor state) :
    cursor.current + state.rest.length = tokens.length := by
  have lengths := congrArg List.length mirrors.rest
  simp only [List.length_drop, List.length_append, List.length_cons, List.length_nil] at lengths
  omega

/-- The next token in the buffer. At the end it is the end mark. -/
theorem next (mirrors : Mirrors tokens last cursor state) :
    (tokens ++ [last])[cursor.current]? = some (state.rest.headD last) := by
  rw [← List.head?_drop, mirrors.rest]
  cases state.rest <;> rfl

/-- What is further on in the buffer leaves no more to come. -/
theorem shorter (mirrors : Mirrors tokens last start before)
    (ended : Mirrors tokens last cursor state) (forward : start.current ≤ cursor.current) :
    state.rest.length ≤ before.rest.length := by
  have := mirrors.length
  have := ended.length
  omega

theorem look (mirrors : Mirrors tokens last cursor state) :
    Mirrors tokens last { cursor with looks := cursor.current :: cursor.looks } state := by
  refine { mirrors with ordered := .cons mirrors.behind mirrors.ordered, behind := ?_ }
  rintro look (_ | ⟨_, member⟩)
  · exact Nat.le_refl _
  · exact mirrors.behind _ ‹_›

theorem pass (mirrors : Mirrors tokens last cursor state) (next : state.rest = token :: others) :
    Mirrors tokens last { cursor with current := cursor.current + 1 } { state with rest := others } := by
  refine { mirrors with rest := ?_, real := ?_, behind := ?_ }
  · have here := mirrors.rest
    rw [next] at here
    rw [← List.drop_drop, here]
    rfl
  · intro token member
    exact mirrors.real token (next ▸ List.mem_cons_of_mem _ member)
  · intro look member
    exact Nat.le_succ_of_le (mirrors.behind look member)

theorem passed (mirrors : Mirrors tokens last cursor state) (next : state.rest = token :: others) :
    State.Passed tokens { cursor with current := cursor.current + 1 } token := by
  refine ⟨cursor.current, rfl, ?_⟩
  have here := mirrors.next
  rw [next, List.getElem?_append_left] at here
  · exact here
  · have lengths := mirrors.length
    simp only [next, List.length_cons] at lengths
    omega

theorem report (mirrors : Mirrors tokens last cursor state) (error : SyntaxError) :
    Mirrors tokens last { cursor with errors := cursor.errors.push error }
      { state with errors := state.errors.push error } :=
  { mirrors with errors := congrArg (·.push error) mirrors.errors }

theorem draw (mirrors : Mirrors tokens last cursor state) :
    Mirrors tokens last { cursor with nextId := cursor.nextId + 1 }
      { state with nextId := state.nextId + 1 } :=
  { mirrors with nextId := congrArg (· + 1) mirrors.nextId }

end Mirrors

theorem bind_ok {buffer : List Token} {parse : Cursor α} {later : α → Cursor β}
    (ran : parse buffer start = some (.ok value, cursor)) :
    (parse >>= later) buffer start = later value buffer cursor := by
  change (parse buffer start >>= _) = _
  rw [ran]
  rfl

theorem discard_ok {buffer : List Token} {parse : Cursor α}
    (ran : parse buffer start = some (.ok value, cursor)) :
    discard parse buffer start = some (.ok (), cursor) := by
  change (parse >>= fun _ => pure ()) buffer start = _
  exact bind_ok ran

theorem bind_error {buffer : List Token} {parse : Cursor α} {later : α → Cursor β}
    (ran : parse buffer start = some (.error error, cursor)) :
    (parse >>= later) buffer start = some (.error error, cursor) := by
  change (parse buffer start >>= _) = _
  rw [ran]
  rfl

theorem Same.since {outcome : Option (Except SyntaxError α × State)}
    (same : Same tokens last cursor outcome result) (forward : start.current ≤ cursor.current) :
    Same tokens last start outcome result := by
  cases same with
  | ok mirrors further => exact .ok mirrors (Nat.le_trans forward further)
  | error mirrors further => exact .error mirrors (Nat.le_trans forward further)

namespace Reaches

theorem pure (mirrors : Mirrors tokens last cursor state) (value : α) :
    Reaches tokens last (Pure.pure value) cursor (.ok value state) :=
  .ok mirrors (Nat.le_refl _)

/-- A step of the parser over the buffer that the other parser does not take. -/
theorem step {parse : Cursor α} {later : α → Cursor β}
    (ran : parse (tokens ++ [last]) start = some (.ok value, cursor))
    (forward : start.current ≤ cursor.current)
    (rest : Reaches tokens last (later value) cursor result) :
    Reaches tokens last (parse >>= later) start result := by
  unfold Reaches
  rw [bind_ok ran]
  exact rest.since forward

/-- Both parsers take a step. -/
theorem bind {parse : Cursor α} {other : Parse α} {later : α → Cursor β} {later' : α → Parse β}
    (first : Reaches tokens last parse start (other state))
    (rest : ∀ {value cursor ended}, other state = .ok value ended →
      Mirrors tokens last cursor ended → start.current ≤ cursor.current →
      Reaches tokens last (later value) cursor (later' value ended)) :
    Reaches tokens last (parse >>= later) start ((other >>= later') state) := by
  rw [bind_apply]
  unfold Reaches at first
  generalize ran : parse (tokens ++ [last]) start = outcome at first
  generalize other state = result at first rest ⊢
  cases first with
  | ok mirrors forward => exact .step ran forward (rest rfl mirrors forward)
  | error mirrors forward =>
    unfold Reaches
    rw [bind_error ran]
    exact .error mirrors forward

theorem discard {parse : Cursor α} {other : Parse α}
    (reaches : Reaches tokens last parse start (other state)) :
    Reaches tokens last (Functor.discard parse) start (Functor.discard other state) :=
  reaches.bind fun _ mirrors _ => pure mirrors _

theorem map {parse : Cursor α} {other : Parse α}
    (reaches : Reaches tokens last parse start (other state)) (build : α → β) :
    Reaches tokens last (build <$> parse) start ((build <$> other) state) :=
  reaches.bind fun _ mirrors _ => pure mirrors _

theorem runs {parse : Cursor α} (reaches : Reaches tokens last parse start (.ok value state)) :
    ∃ cursor, parse (tokens ++ [last]) start = some (.ok value, cursor) ∧
      Mirrors tokens last cursor state ∧ start.current ≤ cursor.current := by
  unfold Reaches at reaches
  generalize parse (tokens ++ [last]) start = outcome at reaches
  cases reaches with
  | ok mirrors forward => exact ⟨_, rfl, mirrors, forward⟩

theorem discarded {parse : Cursor α}
    (reaches : Reaches tokens last parse start (.ok value state)) :
    Reaches tokens last (Functor.discard parse) start (.ok () state) := by
  obtain ⟨cursor, ran, mirrors, forward⟩ := reaches.runs
  unfold Reaches
  rw [discard_ok ran]
  exact .ok mirrors forward

/-- The parser over the buffer takes a step with a known result. -/
theorem and_then {parse : Cursor α} {later : α → Cursor β} {middle : Parse.State}
    (first : Reaches tokens last parse start (.ok value middle))
    (rest : ∀ {cursor}, Mirrors tokens last cursor middle → start.current ≤ cursor.current →
      Reaches tokens last (later value) cursor result) :
    Reaches tokens last (parse >>= later) start result := by
  obtain ⟨cursor, ran, mirrors, forward⟩ := first.runs
  exact .step ran forward (rest mirrors forward)

end Reaches

section Steps

variable (mirrors : Mirrors tokens last cursor state)

include mirrors

theorem next_kind : (state.rest.headD last).kind = state.peek.kind := by
  unfold Parse.State.peek
  cases state.rest with
  | nil => exact mirrors.ends
  | cons token others => rfl

theorem errorAt_eq (next : state.rest = token :: others) (fault : SyntaxFault) :
    errorAt token fault = ⟨fault, token⟩ := by
  unfold errorAt
  rw [if_neg (mirrors.real token (by simp [next]))]

theorem next_error (fault : SyntaxFault) :
    errorAt (state.rest.headD last) fault = ⟨fault, state.peek⟩ := by
  unfold Parse.State.peek
  cases next : state.rest with
  | nil => simp [errorAt, mirrors.ends, mirrors.endLine]
  | cons token others => exact errorAt_eq mirrors next fault

theorem peek_runs :
    peek (tokens ++ [last]) cursor =
      some (.ok (state.rest.headD last), { cursor with looks := cursor.current :: cursor.looks }) := by
  unfold peek
  rw [mirrors.next]
  rfl

theorem peek_reaches :
    Reaches tokens last peek cursor (.ok (state.rest.headD last) state) := by
  unfold Reaches
  rw [peek_runs mirrors]
  exact .ok mirrors.look (Nat.le_refl _)

theorem fail_reaches (fault : SyntaxFault) :
    Reaches tokens last (fail fault : Cursor α) cursor (Parse.fail fault state) := by
  refine (peek_reaches mirrors).and_then fun mirrors _ => ?_
  rw [next_error mirrors]
  exact .error mirrors (Nat.le_refl _)

theorem atEnd_runs :
    atEnd (tokens ++ [last]) cursor =
      some (.ok state.rest.isEmpty, { cursor with looks := cursor.current :: cursor.looks }) := by
  have same : ((state.rest.headD last).kind == .eof) = state.rest.isEmpty := by
    cases rest : state.rest with
    | nil => simp [mirrors.ends]
    | cons token others => simp [mirrors.real token (by simp [rest])]
  rw [← same]
  exact bind_ok (peek_runs mirrors)

theorem atEnd_reaches : Reaches tokens last atEnd cursor (Parse.atEnd state) := by
  unfold Reaches
  rw [atEnd_runs mirrors]
  exact .ok mirrors.look (Nat.le_refl _)

theorem check_reaches (real : kind ≠ .eof) :
    Reaches tokens last (check kind) cursor (.ok (state.peek.kind == kind) state) := by
  refine (atEnd_reaches mirrors).and_then fun mirrors _ => ?_
  cases rest : state.rest with
  | nil =>
    have other : (state.peek.kind == kind) = false := by
      simp [Parse.State.peek, rest, Token.eof, real.symm]
    rw [other]
    exact .pure mirrors _
  | cons token others =>
    refine (peek_reaches mirrors).and_then fun mirrors _ => ?_
    rw [next_kind mirrors]
    exact .pure mirrors _

omit mirrors in
theorem previous_runs (passed : cursor.Passed tokens token) :
    previous (tokens ++ [last]) cursor = some (.ok token, cursor) := by
  obtain ⟨index, place, found⟩ := passed
  have within : index < tokens.length := (List.getElem?_eq_some_iff.mp found).1
  unfold previous
  rw [place]
  dsimp only
  rw [List.getElem?_append_left within, found]
  rfl

theorem previous_reaches (passed : cursor.Passed tokens token) :
    Reaches tokens last previous cursor (.ok token state) := by
  unfold Reaches
  rw [previous_runs passed]
  exact .ok mirrors (Nat.le_refl _)

theorem checkWord_reaches (word : Terminal) :
    Reaches tokens last (check (.terminal word)) cursor (Parse.check word state) :=
  check_reaches mirrors (by simp)

/-- Passing over a token gives that token. -/
theorem advance_runs (next : state.rest = token :: others) :
    ∃ moved, advance (tokens ++ [last]) cursor = some (.ok token, moved) ∧
      Mirrors tokens last moved { state with rest := others } ∧ moved.Passed tokens token ∧
      cursor.current ≤ moved.current := by
  have looked := mirrors.look
  refine ⟨_, ?_, looked.pass next, looked.passed next, Nat.le_succ _⟩
  have ran := atEnd_runs mirrors
  rw [next] at ran
  exact (bind_ok ran).trans (previous_runs (looked.passed next))

theorem advance_reaches (next : state.rest = token :: others) :
    Reaches tokens last advance cursor (.ok token { state with rest := others }) := by
  obtain ⟨moved, ran, after, _, forward⟩ := advance_runs mirrors next
  unfold Reaches
  rw [ran]
  exact .ok after forward

/-- At the end nothing is passed over, and some token was passed before. -/
theorem advance_end (done : state.rest = []) (begun : 0 < cursor.current) :
    ∃ token, Reaches tokens last advance cursor (.ok token state) := by
  have length := mirrors.length
  rw [done] at length
  obtain ⟨index, place⟩ := Nat.exists_eq_add_one.mpr begun
  have within : index < tokens.length := by
    simp only [List.length_nil] at length
    omega
  have ran := atEnd_runs mirrors
  rw [done] at ran
  refine ⟨tokens[index], .step ran (Nat.le_refl _) ?_⟩
  exact previous_reaches mirrors.look ⟨index, place, List.getElem?_eq_getElem within⟩

theorem take_runs (next : state.rest = token :: others) :
    ∃ moved, take token.kind (tokens ++ [last]) cursor = some (.ok true, moved) ∧
      Mirrors tokens last moved { state with rest := others } ∧ moved.Passed tokens token ∧
      cursor.current ≤ moved.current := by
  have real : token.kind ≠ .eof := mirrors.real token (by simp [next])
  have same : (state.peek.kind == token.kind) = true := by simp [Parse.State.peek, next]
  obtain ⟨looked, checked, mirrors, before⟩ := (check_reaches mirrors real).runs
  obtain ⟨moved, ran, mirrors, passed, after⟩ := advance_runs mirrors next
  rw [same] at checked
  refine ⟨moved, ?_, mirrors, passed, Nat.le_trans before after⟩
  exact (bind_ok checked).trans (bind_ok (discard_ok ran))

theorem take_same (real : kind ≠ .eof) (same : state.peek.kind = kind) :
    Reaches tokens last (take kind) cursor (.ok true { state with rest := state.rest.tail }) := by
  obtain ⟨token, others, next, kind, _⟩ := Parse.State.next_token same real
  obtain ⟨moved, ran, after, _, forward⟩ := take_runs mirrors next
  rw [kind] at ran
  unfold Reaches
  rw [ran, next]
  exact .ok after forward

/-- Past a token that one parser takes and the other one has seen. -/
theorem past {later : Bool → Cursor α} {form : Parse α} (real : kind ≠ .eof)
    (same : state.peek.kind = kind)
    (rest : ∀ {cursor ended}, Mirrors tokens last cursor ended → cursor.Passed tokens state.peek →
      ended.rest.length + 1 = state.rest.length → Reaches tokens last (later true) cursor (form ended)) :
    Reaches tokens last (take kind >>= later) cursor ((Parse.skip >>= fun _ => form) state) := by
  obtain ⟨token, others, next, taken, peeked⟩ := Parse.State.next_token same real
  obtain ⟨moved, ran, after, passed, forward⟩ := take_runs mirrors next
  rw [taken] at ran
  rw [Parse.skip_bind, next]
  rw [peeked, next] at rest
  exact .step ran forward (rest after passed rfl)

/-- Another token is not taken. -/
theorem take_other (real : kind ≠ .eof) (other : state.peek.kind ≠ kind) :
    Reaches tokens last (take kind) cursor (.ok false state) := by
  refine (check_reaches mirrors real).and_then fun mirrors _ => ?_
  rw [beq_false_of_ne other]
  exact .pure mirrors _

theorem take_reaches (word : Terminal) :
    Reaches tokens last (take (.terminal word)) cursor (Parse.take word state) := by
  by_cases same : state.peek.kind = .terminal word
  · rw [Parse.take_same same]
    exact take_same mirrors (by simp) same
  · rw [Parse.take_other same]
    exact take_other mirrors (by simp) same

theorem expect_reaches (expectation : Expectation) :
    Reaches tokens last (expect expectation) cursor (Parse.expect expectation state) := by
  have checked := check_reaches mirrors (Parse.wanted_ne_eof expectation)
  by_cases same : state.peek.kind = expectation.wanted
  · obtain ⟨token, others, next, _, peeked⟩ := Parse.State.next_token same (Parse.wanted_ne_eof _)
    rw [Parse.expect_same same, next, peeked]
    rw [same, BEq.rfl] at checked
    exact checked.and_then fun mirrors _ => advance_reaches mirrors next
  · rw [Parse.expect_other same]
    rw [beq_false_of_ne same] at checked
    exact checked.and_then fun mirrors _ => fail_reaches mirrors _

theorem expectName_reaches (expectation : Expectation) :
    Reaches tokens last (expectName expectation) cursor (Parse.expectName expectation state) :=
  (expect_reaches mirrors expectation).bind fun _ mirrors _ => .pure mirrors _

theorem freshId_runs : freshId (tokens ++ [last]) cursor =
    some (.ok state.nextId, { cursor with nextId := cursor.nextId + 1 }) := by
  rw [← mirrors.nextId]
  rfl

theorem freshId_reaches : Reaches tokens last freshId cursor (Parse.freshId state) := by
  unfold Reaches
  rw [freshId_runs mirrors]
  exact .ok mirrors.draw (Nat.le_refl _)

theorem report_reaches (error : SyntaxError) :
    Reaches tokens last (report error) cursor (Parse.report error state) :=
  .ok (mirrors.report error) (Nat.le_refl _)

theorem inBlock_reaches : Reaches tokens last inBlock cursor (Parse.inBlock state) := by
  have checked := checkWord_reaches mirrors .rightBrace
  unfold Parse.check at checked
  change Reaches tokens last inBlock cursor
    (.ok (!(state.peek.kind == .terminal .rightBrace) && !state.rest.isEmpty) state)
  cases found : state.peek.kind == .terminal .rightBrace with
  | true =>
    rw [found] at checked
    exact checked.and_then fun mirrors _ => .pure mirrors _
  | false =>
    rw [found] at checked
    refine checked.and_then fun mirrors _ => ?_
    exact (atEnd_reaches mirrors).and_then fun mirrors _ => .pure mirrors _

theorem operator?_reaches {meaning? : Kind → Option α} (ending : meaning? .eof = none) :
    Reaches tokens last (operator? meaning?) cursor (.ok (meaning? state.peek.kind) state) := by
  refine (atEnd_reaches mirrors).and_then fun mirrors _ => ?_
  cases next : state.rest with
  | nil =>
    rw [show meaning? state.peek.kind = none by rw [Parse.State.peek, next]; exact ending]
    exact .pure mirrors _
  | cons token others =>
    refine (peek_reaches mirrors).and_then fun mirrors _ => ?_
    rw [next_kind mirrors]
    exact .pure mirrors _

end Steps

end Lox.Cursor
