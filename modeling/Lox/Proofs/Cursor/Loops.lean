import Lox.Proofs.Cursor.Mirrors

/-! The loops of both parsers. There is fuel enough for a loop if there is more than there are tokens to
come, for every round passes over one. -/

namespace Lox.Cursor

variable {α : Type} {tokens : List Token} {last : Token} {cursor : State} {state : Parse.State}

/-- Items with commas between them are the same if each of them is. -/
theorem commaSeparated_reaches {item : Cursor α} {item' : Parse α} (excess : SyntaxFault)
    (items : ∀ {cursor state}, Mirrors tokens last cursor state → state.rest.length ≤ limit →
      Reaches tokens last item cursor (item' state))
    (mirrors : Mirrors tokens last cursor state) (small : state.rest.length ≤ limit)
    (bounded : state.rest.length < bound) (fueled : state.rest.length < fuel) (count : Nat) :
    Reaches tokens last (commaSeparated excess item fuel count) cursor
      (Parse.commaSeparated excess item' bound count state) := by
  induction bound generalizing fuel cursor state count with
  | zero => omega
  | succ bound ih =>
    obtain ⟨fuel, rfl⟩ := Nat.exists_eq_add_one_of_ne_zero (Nat.ne_zero_of_lt fueled)
    have others {cursor state} (mirrors : Mirrors tokens last cursor state)
        (small : state.rest.length ≤ limit) (bounded : state.rest.length < bound + 1)
        (fueled : state.rest.length < fuel + 1) :
        Reaches tokens last
          (item >>= fun first => take (.terminal .comma) >>= fun more => if more then
            commaSeparated excess item fuel (count + 1) >>= fun rest => return first :: rest
            else return [first])
          cursor
          ((item' >>= fun first => Parse.take .comma >>= fun more => if more then
            Parse.commaSeparated excess item' bound (count + 1) >>= fun rest => return first :: rest
            else return [first]) state) := by
      refine (items mirrors small).bind fun {first} _ _ _ between forward => ?_
      refine (take_reaches between .comma).bind fun {more} _ _ taken after _ => ?_
      cases more with
      | true =>
        have short := mirrors.shorter between forward
        have passed := (Parse.take_shorter taken).1
        refine Reaches.bind ?_ fun _ mirrors _ => .pure mirrors _
        exact ih after (by omega) (by omega) (by omega) (count + 1)
      | false => exact .pure after _
    simp only [commaSeparated, Parse.commaSeparated]
    split
    · refine (peek_reaches mirrors).and_then fun mirrors _ => ?_
      rw [next_error mirrors]
      refine (report_reaches mirrors _).and_then fun mirrors _ => ?_
      exact others mirrors small bounded fueled
    · exact others mirrors small bounded fueled

theorem listed_reaches {item : Cursor α} {item' : Parse α} (excess : SyntaxFault)
    (items : ∀ {cursor state}, Mirrors tokens last cursor state → state.rest.length ≤ limit →
      Reaches tokens last item cursor (item' state))
    (mirrors : Mirrors tokens last cursor state) (small : state.rest.length ≤ limit)
    (fueled : state.rest.length < fuel) :
    Reaches tokens last (listed excess item fuel) cursor (Parse.listed excess item' state) := by
  refine (checkWord_reaches mirrors .rightParen).bind fun {closed} _ _ checked mirrors _ => ?_
  cases checked
  split
  · exact .pure mirrors _
  · exact commaSeparated_reaches excess items mirrors small (by omega) fueled 0

/-- Past `token`, the boundary is the next one after it. -/
theorem seekBoundary_reaches (mirrors : Mirrors tokens last cursor state)
    (passed : cursor.Passed tokens token) (fueled : state.rest.length < fuel) :
    Reaches tokens last (seekBoundary fuel) cursor
      (.ok () { state with rest := Parse.nextBoundary (token :: state.rest) }) := by
  induction fuel generalizing cursor state token with
  | zero => omega
  | succ fuel ih =>
    refine .step (atEnd_runs mirrors) (Nat.le_refl _) ?_
    have mirrors := mirrors.look
    have passed : State.Passed tokens { cursor with looks := cursor.current :: cursor.looks } token :=
      passed
    obtain ⟨rest, endLine, nextId, errors⟩ := state
    cases rest with
    | nil =>
      have boundary : Parse.nextBoundary [token] = [] := by simp [Parse.nextBoundary]
      rw [boundary]
      exact .pure mirrors _
    | cons coming others =>
      refine .step (previous_runs passed) (Nat.le_refl _) ?_
      by_cases semicolon : token.kind = .terminal .semicolon
      · rw [if_pos semicolon, Parse.nextBoundary, if_pos (.inl semicolon)]
        exact .pure mirrors _
      rw [if_neg semicolon]
      refine (peek_reaches mirrors).and_then fun mirrors _ => ?_
      change Reaches tokens last (if Parse.startsStatement (coming :: others) then _ else _) _ _
      by_cases starts : Parse.startsStatement (coming :: others)
      · rw [if_pos starts, Parse.nextBoundary, if_pos (.inr starts)]
        exact .pure mirrors _
      rw [if_neg starts, Parse.nextBoundary, if_neg (by simp [semicolon, starts])]
      obtain ⟨moved, ran, mirrors, passed, forward⟩ := advance_runs mirrors rfl
      exact .step (discard_ok ran) forward (ih mirrors passed (Nat.lt_of_succ_lt_succ fueled))

/-- Where the parser has begun, going on to the next boundary never looks before the first token. -/
theorem synchronize_reaches (mirrors : Mirrors tokens last cursor state)
    (begun : state.rest = [] → 0 < cursor.current) (fueled : state.rest.length < fuel) :
    Reaches tokens last (synchronize fuel) cursor
      (.ok () { state with rest := Parse.nextBoundary state.rest }) := by
  obtain ⟨fuel, rfl⟩ := Nat.exists_eq_add_one_of_ne_zero (Nat.ne_zero_of_lt fueled)
  obtain ⟨rest, endLine, nextId, errors⟩ := state
  cases rest with
  | nil =>
    obtain ⟨_, stays⟩ := advance_end mirrors rfl (begun rfl)
    refine stays.discarded.and_then fun mirrors _ => ?_
    exact .step (atEnd_runs mirrors) (Nat.le_refl _) (.pure mirrors.look _)
  | cons token others =>
    obtain ⟨moved, ran, mirrors, passed, forward⟩ := advance_runs mirrors rfl
    refine .step (discard_ok ran) forward (seekBoundary_reaches mirrors passed ?_)
    exact Nat.lt_of_succ_lt fueled

end Lox.Cursor
