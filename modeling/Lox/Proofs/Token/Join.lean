import Lox.Proofs.Token.Tokens

/-! Sources joined by line breaks. A line break ends every piece of text but a string, so the items of
joined sources are those of the first, without its end mark, and then those of the second on later
lines. -/

namespace Lox

def Token.later (lines : Nat) (token : Token) : Token :=
  { token with line := token.line + lines }

def Item.later (lines : Nat) : Item → Item
  | .token found => .token (found.later lines)
  | .error ⟨fault, line⟩ => .error ⟨fault, line + lines⟩

namespace Scan

section Cut

variable {holds : Char → Bool} {char : Char}

theorem takeWhile_break (stops : holds char = false) (before after : List Char) :
    (before ++ char :: after).takeWhile holds = before.takeWhile holds := by
  induction before with
  | nil => simp [stops]
  | cons head rest ih => by_cases goes : holds head <;> simp [goes, ih]

theorem dropWhile_break (stops : holds char = false) (before after : List Char) :
    (before ++ char :: after).dropWhile holds = before.dropWhile holds ++ char :: after := by
  induction before with
  | nil => simp [stops]
  | cons head rest ih => by_cases goes : holds head <;> simp [goes, ih]

def Cut.extend (cut : Cut) (more : List Char) : Cut :=
  { cut with rest := cut.rest ++ more }

variable (tail after : List Char)

theorem cutSymbol_break (head : Char) :
    cutSymbol head (tail ++ '\n' :: after) = (cutSymbol head tail).extend ('\n' :: after) := by
  cases tail with
  | nil =>
    unfold cutSymbol
    cases single? head <;> cases paired? head <;> rfl
  | cons next rest =>
    unfold cutSymbol
    cases single? head with
    | some word => rfl
    | none =>
      cases paired? head with
      | none => rfl
      | some words =>
        by_cases equal : next = '='
        · subst equal
          rfl
        · simp [equal, Cut.extend]

theorem cutSlash_break :
    cutSlash (tail ++ '\n' :: after) = (cutSlash tail).extend ('\n' :: after) := by
  have stops : ('\n' != '\n') = false := rfl
  cases tail with
  | nil => rfl
  | cons next rest =>
    by_cases slash : next = '/'
    · subst slash
      have taken := @takeWhile_break (· != '\n') _ stops ('/' :: rest) after
      have dropped := @dropWhile_break (· != '\n') _ stops ('/' :: rest) after
      simp only [List.cons_append] at taken dropped
      simp [cutSlash, Cut.extend, taken, dropped]
    · simp [cutSlash, slash, Cut.extend]

theorem cutString_break (closed : (cutString tail).piece ≠ .fault .unterminatedString) :
    cutString (tail ++ '\n' :: after) = (cutString tail).extend ('\n' :: after) := by
  unfold cutString at closed ⊢
  have taken := @List.takeWhile_append _ (· != '"') tail ('\n' :: after)
  have dropped := @List.dropWhile_append _ (· != '"') tail ('\n' :: after)
  have whole : tail.takeWhile (· != '"') ++ tail.dropWhile (· != '"') = tail :=
    List.takeWhile_append_dropWhile
  cases found : tail.dropWhile (· != '"') with
  | nil => simp [found] at closed
  | cons quote rest =>
    have short : (tail.takeWhile (· != '"')).length ≠ tail.length := by
      intro same
      have length := congrArg List.length whole
      rw [List.length_append, found, List.length_cons] at length
      omega
    rw [if_neg short] at taken
    rw [found] at dropped
    simp [taken, dropped, Cut.extend]

theorem cutNumber_break (head : Char) :
    cutNumber head (tail ++ '\n' :: after) = (cutNumber head tail).extend ('\n' :: after) := by
  have stops : Char.isDigit '\n' = false := rfl
  unfold cutNumber
  rw [takeWhile_break stops, dropWhile_break stops]
  cases tail.dropWhile Char.isDigit with
  | nil => rfl
  | cons point rest =>
    by_cases same : point = '.'
    · subst same
      cases rest with
      | nil => simp [Cut.extend, stops]
      | cons digit rest =>
        simp only [List.cons_append, takeWhile_break stops, dropWhile_break stops]
        split <;> rfl
    · simp [same, Cut.extend]

theorem cutWord_break (head : Char) :
    cutWord head (tail ++ '\n' :: after) = (cutWord head tail).extend ('\n' :: after) := by
  have stops : isWordChar '\n' = false := rfl
  unfold cutWord
  rw [takeWhile_break stops, dropWhile_break stops]
  rfl

theorem cut_break (head : Char) (closed : (cut head tail).piece ≠ .fault .unterminatedString) :
    cut head (tail ++ '\n' :: after) = (cut head tail).extend ('\n' :: after) := by
  unfold cut at closed ⊢
  split
  · rfl
  split
  · exact cutSlash_break tail after
  split
  · rename_i quote
    simp only [*] at closed
    exact cutString_break tail after closed
  split
  · exact cutNumber_break tail after head
  split
  · exact cutWord_break tail after head
  · exact cutSymbol_break tail after head

end Cut

/-- Induction along the pieces of a text. -/
@[elab_as_elim]
theorem pieces {motive : List Char → Prop} (nil : motive [])
    (cons : ∀ head tail, motive (cut head tail).rest → motive (head :: tail)) :
    (text : List Char) → motive text
  | [] => nil
  | head :: tail => cons head tail (pieces nil cons (cut head tail).rest)
termination_by text => text.length
decreasing_by simpa using Nat.lt_succ_of_le (cut_rest_length head tail)

/-- What the first piece of a text gives, if it ends on a line. -/
def Cut.items (cut : Cut) (last : Nat) : List Item :=
  match cut.piece with
  | .blank => []
  | .token kind => [.token ⟨kind, String.ofList cut.text, last⟩]
  | .fault fault => [.error ⟨fault, last⟩]

theorem itemsFrom_cons (line : Nat) (head : Char) (tail : List Char) :
    itemsFrom line (head :: tail) =
      (cut head tail).items (line + (cut head tail).text.count '\n') ++
        itemsFrom (line + (cut head tail).text.count '\n') (cut head tail).rest := by
  rw [itemsFrom, Cut.items]
  cases (cut head tail).piece <;> rfl

theorem Cut.items_later (cut : Cut) (lines last : Nat) :
    cut.items (last + lines) = (cut.items last).map (Item.later lines) := by
  unfold items
  cases cut.piece <;> rfl

theorem itemsFrom_later (lines line : Nat) (text : List Char) :
    itemsFrom (line + lines) text = (itemsFrom line text).map (Item.later lines) := by
  induction text using pieces generalizing line with
  | nil => simp [itemsFrom, Item.later, Token.later, Token.eof]
  | cons head tail ih =>
    rw [itemsFrom_cons, itemsFrom_cons, Nat.add_right_comm, Cut.items_later, ih, List.map_append]

/-- The items of a text that ends no string too late, before a line break and more text. -/
theorem itemsFrom_break (line : Nat) (text after : List Char)
    (closed : ∀ last, Item.error ⟨.unterminatedString, last⟩ ∉ itemsFrom line text) :
    ∃ own, itemsFrom line text = own ++ [.token (.eof (line + text.count '\n'))] ∧
      itemsFrom line (text ++ '\n' :: after) =
        own ++ itemsFrom (line + text.count '\n' + 1) after := by
  induction text using pieces generalizing line with
  | nil =>
    refine ⟨[], by simp [itemsFrom], ?_⟩
    rw [List.nil_append, itemsFrom_cons]
    simp [cut, isBlank, Cut.items]
  | cons head tail ih =>
    rw [itemsFrom_cons] at closed
    have ended : (cut head tail).piece ≠ .fault .unterminatedString := by
      intro opened
      refine closed (line + (cut head tail).text.count '\n') (List.mem_append_left _ ?_)
      simp [Cut.items, opened]
    obtain ⟨own, items, joined⟩ := ih _ fun last member =>
      closed last (List.mem_append_right _ member)
    refine ⟨(cut head tail).items (line + (cut head tail).text.count '\n') ++ own, ?_, ?_⟩
    · rw [itemsFrom_cons, items, ← count_cut, Nat.add_assoc, List.append_assoc]
    · rw [List.cons_append, itemsFrom_cons, cut_break _ _ _ ended, ← count_cut]
      simp only [Cut.extend, List.append_assoc, ← Nat.add_assoc, ← joined]
      rfl

end Scan

/-- Scanning goes on after a line break as at the start of a source. If no string is open at the end of the
first of two sources, the items of both with a line break between them are those of the first, without the
end mark, and then those of the second on later lines. -/
theorem items_joined (first second : String)
    (closed : ∀ error ∈ (Scan.ofSource first).errors, error.fault ≠ .unterminatedString) :
    ∃ own, Scan.items first = own ++ [.token (.eof (1 + first.toList.count '\n'))] ∧
      Scan.items (first ++ "\n" ++ second) =
        own ++ (Scan.items second).map (Item.later (first.toList.count '\n' + 1)) := by
  have closed' (last : Nat) : Item.error ⟨.unterminatedString, last⟩ ∉ Scan.itemsFrom 1 first.toList := by
    intro member
    exact closed ⟨.unterminatedString, last⟩ (List.mem_filterMap.mpr ⟨_, member, rfl⟩) rfl
  obtain ⟨own, items, joined⟩ := Scan.itemsFrom_break 1 first.toList second.toList closed'
  refine ⟨own, items, ?_⟩
  have source : (first ++ "\n" ++ second).toList = first.toList ++ '\n' :: second.toList := by simp
  rw [Scan.items, source, joined, Nat.add_assoc, Scan.itemsFrom_later, Scan.items]

/-- A string over two lines, a stray character and a number with a point after it, before a digit. -/
theorem danglingPoint_joined :
    (∀ error ∈ (Scan.ofSource "\"a\nb\" @ 1.").errors, error.fault ≠ .unterminatedString) ∧
      ∃ own, Scan.items "\"a\nb\" @ 1." = own ++ [.token (.eof 2)] ∧
        Scan.items ("\"a\nb\" @ 1." ++ "\n" ++ "5 \"") =
          own ++ (Scan.items "5 \"").map (Item.later 2) := by
  have closed : ∀ error ∈ (Scan.ofSource "\"a\nb\" @ 1.").errors,
      error.fault ≠ .unterminatedString := by decide +kernel
  exact ⟨closed, items_joined "\"a\nb\" @ 1." "5 \"" closed⟩

end Lox
