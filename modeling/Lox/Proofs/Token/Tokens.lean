import Lox.Proofs.Tree.Regular
import Lox.Token.Scan

/-! The tokens of a source. The end mark is the last of them and occurs nowhere else, and no
identifier is spelled like a keyword. -/

namespace Lox.Scan

/-- A piece of text is no end mark, and an identifier only if it is no keyword. -/
def Cut.Spelled (cut : Cut) : Prop :=
  ∀ kind, cut.piece = .token kind → kind ≠ .eof ∧
    (kind = .identifier → Terminal.keyword? (String.ofList cut.text) = none)

theorem cutSymbol_spelled (head : Char) (tail : List Char) : (cutSymbol head tail).Spelled := by
  intro kind found
  unfold cutSymbol at found ⊢
  split at found <;> cases found <;> exact ⟨nofun, nofun⟩

theorem cutSlash_spelled (tail : List Char) : (cutSlash tail).Spelled := by
  intro kind found
  unfold cutSlash at found
  split at found <;> cases found
  exact ⟨nofun, nofun⟩

theorem cutString_spelled (tail : List Char) : (cutString tail).Spelled := by
  intro kind found
  unfold cutString at found
  split at found <;> cases found
  exact ⟨by simp, by simp⟩

theorem cutNumber_spelled (head : Char) (tail : List Char) : (cutNumber head tail).Spelled := by
  intro kind found
  unfold cutNumber at found
  split at found
  · split at found <;> cases found <;> exact ⟨nofun, nofun⟩
  · cases found
    exact ⟨nofun, nofun⟩

theorem cutWord_spelled (head : Char) (tail : List Char) : (cutWord head tail).Spelled := by
  intro kind found
  unfold cutWord at found ⊢
  simp only [Piece.token.injEq] at found
  split at found
  · subst found
    exact ⟨nofun, nofun⟩
  · rename_i none
    subst found
    exact ⟨nofun, fun _ => none⟩

theorem cut_spelled (head : Char) (tail : List Char) : (cut head tail).Spelled := by
  unfold cut
  split
  · exact nofun
  split
  · exact cutSlash_spelled tail
  split
  · exact cutString_spelled tail
  split
  · exact cutNumber_spelled head tail
  split
  · exact cutWord_spelled head tail
  · exact cutSymbol_spelled head tail

/-- Tokens before the end mark, among them no keyword as an identifier. -/
def Body (tokens : List Token) : Prop :=
  ∀ token ∈ tokens, token.kind ≠ .eof ∧
    (token.IsName → Terminal.keyword? token.lexeme = none)

theorem Body.cons (body : Body others) (ne_eof : token.kind ≠ .eof)
    (keyword? : token.IsName → Terminal.keyword? token.lexeme = none) : Body (token :: others) := by
  intro other member
  rcases List.mem_cons.mp member with rfl | member
  · exact ⟨ne_eof, keyword?⟩
  · exact body other member

theorem count_cut (head : Char) (tail : List Char) :
    (cut head tail).text.count '\n' + (cut head tail).rest.count '\n' =
      (head :: tail).count '\n' := by
  rw [← List.count_append, cut_text_append_rest]

theorem itemsFrom_tokens (line : Nat) (text : List Char) :
    ∃ body, (ofItems (itemsFrom line text)).tokens =
      body ++ [.eof (line + text.count '\n')] ∧ Body body := by
  fun_induction itemsFrom line text with
  | case1 line => exact ⟨[], rfl, nofun⟩
  | case2 line head tail first last later blank ih =>
    obtain ⟨body, tokens, spelled⟩ := ih
    refine ⟨body, ?_, spelled⟩
    rw [tokens, ← count_cut]
    simp [last, first, Nat.add_assoc]
  | case3 line head tail first last later kind found ih =>
    obtain ⟨body, tokens, spelled⟩ := ih
    obtain ⟨ne_eof, keyword?⟩ := cut_spelled head tail kind found
    refine ⟨⟨kind, String.ofList first.text, last⟩ :: body, ?_, spelled.cons ne_eof keyword?⟩
    rw [← count_cut]
    simp only [ofItems, List.filterMap_cons] at tokens ⊢
    rw [tokens]
    simp [last, first, Nat.add_assoc]
  | case4 line head tail first last later fault found ih =>
    obtain ⟨body, tokens, spelled⟩ := ih
    refine ⟨body, ?_, spelled⟩
    rw [← count_cut]
    simp only [ofItems, List.filterMap_cons] at tokens ⊢
    rw [tokens]
    simp [last, first, Nat.add_assoc]

/-- The tokens of a source end in their only end mark, and its identifiers are no keywords. -/
theorem ofSource_tokens (source : String) :
    ∃ body, (ofSource source).tokens = body ++ [.eof (1 + source.toList.count '\n')] ∧ Body body :=
  itemsFrom_tokens 1 source.toList

theorem Body.only (body : Body list) : ∀ token ∈ list, token.kind ≠ .eof :=
  fun token member => (body token member).1

theorem Body.plain (body : Body list) : Grammar.PlainTokens list := by
  intro token member names
  have spelled := (body token member).2 names
  constructor
  · intro same
    rw [show token.lexeme = Terminal.kwThis.spelling from same,
      Terminal.keyword?_spelling _ (by decide)] at spelled
    cases spelled
  · intro same
    rw [show token.lexeme = Terminal.kwSuper.spelling from same,
      Terminal.keyword?_spelling _ (by decide)] at spelled
    cases spelled

end Lox.Scan
