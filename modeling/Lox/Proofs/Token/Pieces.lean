import Lox.Proofs.Token.Longest

/-! The first piece of a text is the only one. The forms of pieces exclude one another, so what has the
form of a first piece is what scanning cuts off. -/

namespace Lox.Scan

theorem Shape.not_gapless (shape : Shape first) (passed : first.piece = .blank) :
    ¬ Gapless (first.text ++ first.rest) := by
  intro gapless
  cases shape with
  | blank blank => exact gapless.not_blank blank
  | comment => exact gapless.not_comment
  | _ => cases passed

section Unique

variable {first other : Cut}

/-- A text in which something is passed over starts with that. -/
theorem Shape.unique_blank (shape : Shape first) (shape' : Shape other)
    (same : first.text ++ first.rest = other.text ++ other.rest) (passed : first.piece = .blank) :
    first = other := by
  have passed' : other.piece = .blank := by
    by_cases kept : other.piece = .blank
    · exact kept
    · exact absurd (same ▸ shape'.gapless kept) (shape.not_gapless passed)
  cases shape with
  | blank blank =>
    cases shape' with
    | blank =>
      cases same
      rfl
    | comment =>
      cases same
      exact absurd blank (by decide)
    | _ => cases passed'
  | comment inside ends =>
    cases shape' with
    | blank blank =>
      obtain ⟨rfl, -⟩ := List.cons.inj same
      exact absurd blank (by decide)
    | comment inside' ends' =>
      have later := (List.cons.inj (List.cons.inj same).2).2
      obtain ⟨rfl, rfl⟩ := append_unique (plain_of_not_mem inside) (plain_of_not_mem inside') ends ends' later
      rfl
    | _ => cases passed'
  | _ => cases passed

theorem Shape.unique_fault (shape : Shape first) (shape' : Shape other)
    (same : first.text ++ first.rest = other.text ++ other.rest) (fails : first.piece = .fault fault)
    (fails' : other.piece = .fault fault') : first = other := by
  cases shape with
  | unterminated inside =>
    cases shape' with
    | unterminated =>
      obtain ⟨-, contents⟩ := List.cons.inj same
      rw [List.append_cancel_right contents]
    | unexpected char =>
      cases same
      exact absurd rfl char.quote
    | _ => cases fails'
  | unexpected char =>
    cases shape' with
    | unterminated =>
      cases same
      exact absurd rfl char.quote
    | unexpected =>
      cases same
      rfl
    | _ => cases fails'
  | _ => cases fails

theorem Shape.unique_token (shape : Shape first) (shape' : Shape other)
    (same : first.text ++ first.rest = other.text ++ other.rest) (kept : first.piece = .token kind)
    (kept' : other.piece = .token kind') : first = other := by
  have longest := longest_of_shape shape kept
  have longest' := longest_of_shape shape' kept'
  rw [← same] at longest'
  have length := Nat.le_antisymm (longest'.longest _ _ longest.lexeme longest.start)
    (longest.longest _ _ longest'.lexeme longest'.start)
  have texts : first.text = other.text :=
    (List.prefix_of_prefix_length_le longest.start longest'.start (Nat.le_of_eq length)).eq_of_length length
  obtain rfl := longest.only kind' (texts ▸ longest'.lexeme)
  rw [texts] at same
  have rests := List.append_cancel_left same
  cases first
  cases other
  cases kept
  cases kept'
  cases texts
  cases rests
  rfl

/-- Where a piece is a fault there is no token. -/
theorem Shape.not_token (shape : Shape first) (shape' : Shape other)
    (same : first.text ++ first.rest = other.text ++ other.rest) (fails : first.piece = .fault fault) :
    other.piece ≠ .token kind := by
  intro kept
  have longest := longest_of_shape shape' kept
  rw [← same] at longest
  exact unlexed_of_shape shape fails _ _ longest.lexeme longest.start

/-- A text has one first piece. -/
theorem Shape.unique (shape : Shape first) (shape' : Shape other)
    (same : first.text ++ first.rest = other.text ++ other.rest) : first = other := by
  cases found : first.piece with
  | blank => exact shape.unique_blank shape' same found
  | token kind =>
    cases found' : other.piece with
    | blank => exact (shape'.unique_blank shape same.symm found').symm
    | token => exact shape.unique_token shape' same found found'
    | fault => exact absurd found (shape'.not_token shape same.symm found')
  | fault =>
    cases found' : other.piece with
    | blank => exact (shape'.unique_blank shape same.symm found').symm
    | token => exact absurd found' (shape.not_token shape' same found)
    | fault => exact shape.unique_fault shape' same found found'

end Unique

/-- What has the form of a first piece is the first piece. -/
theorem cut_of_shape {first : Cut} (shape : Shape first) (same : first.text ++ first.rest = head :: tail) :
    cut head tail = first :=
  (cut_shape head tail).unique shape ((cut_text_append_rest head tail).trans same.symm)

/-- The items of a text of which the first piece is known. -/
theorem itemsFrom_shape (shape : Shape ⟨piece, text, later⟩) (nonempty : text ≠ []) (line : Nat) :
    itemsFrom line (text ++ later) =
      Cut.items ⟨piece, text, later⟩ (line + text.count '\n') ++
        itemsFrom (line + text.count '\n') later := by
  obtain ⟨head, tail, rfl⟩ := List.exists_cons_of_ne_nil nonempty
  rw [List.cons_append, itemsFrom_cons, cut_of_shape shape List.cons_append]

/-- Nothing is an item of a gap. -/
theorem itemsFrom_gap (gap : Gap after text) (line : Nat) :
    itemsFrom line (text ++ after) = itemsFrom (line + text.count '\n') after := by
  induction gap generalizing line with
  | none => rfl
  | @blank char rest blank _ ih =>
    have shape : Shape ⟨.blank, [char], rest ++ after⟩ := .blank blank
    calc
      _ = itemsFrom (line + [char].count '\n') (rest ++ after) :=
        itemsFrom_shape shape (List.cons_ne_nil _ _) line
      _ = itemsFrom (line + ([char] ++ rest).count '\n') after := by
        rw [ih, List.count_append, Nat.add_assoc]
  | @comment words rest inside ends _ ih =>
    have shape : Shape ⟨.blank, '/' :: '/' :: words, rest ++ after⟩ := .comment inside ends
    calc
      _ = itemsFrom line ('/' :: '/' :: words ++ (rest ++ after)) := by simp
      _ = itemsFrom (line + ('/' :: '/' :: words).count '\n') (rest ++ after) :=
        itemsFrom_shape shape (List.cons_ne_nil _ _) line
      _ = itemsFrom (line + ('/' :: '/' :: words ++ rest).count '\n') after := by
        rw [ih, List.count_append, Nat.add_assoc]

end Lox.Scan
