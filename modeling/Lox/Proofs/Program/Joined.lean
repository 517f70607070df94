import Lox.Proofs.Grammar.Relocate
import Lox.Proofs.Program.Accepted
import Lox.Proofs.Program.Moved
import Lox.Proofs.Scope.Joined
import Lox.Proofs.Scope.Walks
import Lox.Proofs.Token.Join

/-! Sources joined by line breaks. If each of them is free of errors, the joined source is so too, and its
statements are theirs one after the other, on later lines. -/

namespace Lox

/-- Whether one of the tokens of a source stands on a line. -/
def Scan.OnLine (source : String) (line : Nat) : Prop :=
  ∃ token ∈ (ofSource source).tokens, token.kind ≠ .eof ∧ token.line = line

/-- How far the lines of a source are moved, with the same identifiers. -/
def Pairing.below (source : String) (lines : Nat) : Pairing where
  ids := Eq
  lines here there := Scan.OnLine source here ∧ there = here + lines

namespace Scan

theorem ofItems_token (tokens : List Token) : ofItems (tokens.map .token) = ⟨tokens, []⟩ := by
  induction tokens with
  | nil => rfl
  | cons first rest ih =>
    simp only [ofItems, mk.injEq] at ih
    simp [ofItems, ih.1, ih.2]

theorem eq_tokens {found : List Item} (clean : (ofItems found).errors = []) :
    found = (ofItems found).tokens.map .token := by
  induction found with
  | nil => rfl
  | cons first rest ih =>
    cases first with
    | token found => exact congrArg (Item.token found :: ·) (ih clean)
    | error reason => cases clean

/-- The statements that a text derives which starts on a line. -/
def Derives (line : Nat) (text : List Char) (first : NodeId) (body : List Stmt) (next : NodeId) :
    Prop :=
  ∃ tokens, itemsFrom line text = (tokens ++ [.eof (line + text.count '\n')]).map .token ∧
    Grammar.Program first tokens body next

end Scan

open Scan

theorem parses_iff : Parses source first body next ↔ Derives 1 source.toList first body next := by
  constructor
  · rintro ⟨lexical, tokens, _, ends, form⟩
    have items := eq_tokens lexical
    exact ⟨tokens, items.trans (congrArg (·.map Item.token) ends), form⟩
  · rintro ⟨tokens, items, form⟩
    have scan : ofSource source = ⟨_, []⟩ :=
      (congrArg ofItems items).trans (ofItems_token _)
    obtain ⟨others, ends, spelled⟩ := ofSource_tokens source
    have same : others = tokens := by
      rw [scan] at ends
      exact (List.append_cancel_right ends).symm
    subst same
    exact ⟨congrArg Scan.errors scan, others, spelled, ends, form⟩

theorem below_shifts (source : String) (lines : Nat) :
    Grammar.Shifts (Pairing.below source lines) 0 :=
  fun _ => rfl

namespace Parses

/-- The tokens of a source on later lines. -/
theorem tokens_below (parses : Parses source first body next) (lines : Nat) : ∃ tokens tokens',
    List.Forall₂ (Token.Alike (Pairing.below source lines)) tokens tokens' ∧
      itemsFrom (1 + lines) source.toList =
        tokens'.map .token ++ [.token (.eof (1 + lines + source.toList.count '\n'))] ∧
      Grammar.Program first tokens body next := by
  obtain ⟨lexical, tokens, spelled, ends, form⟩ := parses
  have items : itemsFrom 1 source.toList =
      (tokens ++ [Token.eof (1 + source.toList.count '\n')]).map .token :=
    (eq_tokens lexical).trans (congrArg (·.map Item.token) ends)
  refine ⟨tokens, tokens.map (·.later lines), ?_, ?_, form⟩
  · rw [List.forall₂_map_right_iff, List.forall₂_same]
    intro token member
    refine ⟨rfl, rfl, ⟨token, ?_, (spelled token member).1, rfl⟩, rfl⟩
    rw [ends]
    exact List.mem_append_left _ member
  · rw [itemsFrom_later, items, Nat.add_right_comm]
    simp [Item.later, Token.later, Token.eof, Function.comp_def]

theorem below (parses : Parses source first body next) (lines : Nat) : ∃ body',
    Stmt.AllAlike (Pairing.below source lines) body body' ∧
      Derives (1 + lines) source.toList first body' next := by
  obtain ⟨tokens, tokens', alike, items, form⟩ := parses.tokens_below lines
  obtain ⟨body', same, moved⟩ := form.join (below_shifts source lines) alike (.nil _)
  simp only [List.append_nil] at moved
  exact ⟨body', same, tokens', by simpa using items, moved⟩

/-- A source before a line break and another text. -/
theorem join (parses : Parses source first body middle) (lines : Nat)
    (later : Derives (1 + lines + source.toList.count '\n' + 1) after middle rest next) : ∃ body',
    Stmt.AllAlike (Pairing.below source lines) body body' ∧
      Derives (1 + lines) (source.toList ++ '\n' :: after) first (body' ++ rest) next := by
  obtain ⟨tokens, tokens', alike, items, form⟩ := parses.tokens_below lines
  obtain ⟨others, items', form'⟩ := later
  obtain ⟨body', same, moved⟩ := form.join (below_shifts source lines) alike form'
  refine ⟨body', same, tokens' ++ others, ?_, moved⟩
  have closed : ∀ last, Item.error ⟨.unterminatedString, last⟩ ∉
      itemsFrom (1 + lines) source.toList := by
    intro last
    simp [items]
  obtain ⟨own, before, joined⟩ := itemsFrom_break (1 + lines) source.toList after closed
  have same : own = tokens'.map .token := List.append_cancel_right (before.symm.trans items)
  have last : 1 + lines + (source.toList ++ '\n' :: after).count '\n' =
      1 + lines + source.toList.count '\n' + 1 + after.count '\n' := by
    simp only [List.count_append, List.count_cons_self]
    omega
  rw [joined, same, items', last]
  simp only [List.map_append, List.append_assoc]

end Parses

/-- The line breaks before a source, if one ends each of the sources before it. -/
def lineBreaks : List String → Nat
  | [] => 0
  | source :: rest => source.toList.count '\n' + 1 + lineBreaks rest

/-- Sources of which each is accepted with the identifiers after those of the one before, and the
statements that stand for theirs in the joined source. -/
inductive Joined : List String → NodeId → List String → List Program → List (List Stmt) → NodeId →
    Prop where
  | nil : Joined before first [] [] [] first
  | cons (accepted : checkSource source first = ⟨.ok program, middle⟩)
      (same : Stmt.AllAlike (Pairing.below source (lineBreaks before)) program.body body)
      (rest : Joined (before ++ [source]) middle sources programs bodies next) :
      Joined before first (source :: sources) (program :: programs) (body :: bodies) next

namespace Joined

/-- The statements of the joined source differ in their lines only. -/
theorem alike (joined : Joined before first sources programs bodies next) :
    Stmt.AllAlike ⟨Eq, fun _ _ => True⟩ (programs.map (·.body)).flatten bodies.flatten := by
  induction joined with
  | nil => exact .nil
  | cons _ same _ ih =>
    refine Stmt.AllAlike.append (same.mono ⟨fun _ _ _ same => same, fun _ _ _ => ?_⟩) ih
    exact trivial

/-- The tables of the sources are put together into that of all their statements. -/
theorem resolved (joined : Joined before first sources programs bodies next) : ∃ table,
    resolve (programs.map (·.body)).flatten = .ok table ∧
    Grammar.Numbered first (Stmt.allIds (programs.map (·.body)).flatten) next ∧
    ∀ program ∈ programs, ∀ id ∈ Stmt.allIds program.body,
      first ≤ id ∧ table[id]? = program.distances[id]? := by
  induction joined with
  | nil => exact ⟨∅, rfl, .nil, nofun⟩
  | cons accepted _ _ ih =>
    obtain ⟨table, resolved, numbered, entries⟩ := ih
    obtain ⟨parses, own⟩ := checkSource_ok (congrArg Checked.outcome accepted)
    rw [accepted] at parses
    obtain ⟨whole, found, lookup⟩ := resolve_append own resolved
    refine ⟨whole, found, ?_, ?_⟩
    · rw [List.map_cons, List.flatten_cons, Stmt.allIds_append]
      exact parses.numbered.append numbered
    intro program member id inside
    rcases List.mem_cons.mp member with rfl | member
    · have bounds := parses.numbered.within id inside
      have foreign : table[id]? = none := resolve_own resolved fun later =>
        Nat.not_le.mpr bounds.2 (numbered.within id later).1
      rw [lookup, foreign, Option.none_or]
      exact ⟨bounds.1, rfl⟩
    · obtain ⟨bound, known⟩ := entries program member id inside
      have foreign := resolve_own own fun earlier =>
        Nat.not_le.mpr (parses.numbered.within id earlier).2 bound
      rw [lookup, known, foreign, Option.or_none]
      exact ⟨Nat.le_trans parses.numbered.forward bound, rfl⟩

/-- The joined source is accepted, with the same distances. -/
theorem checked (joined : Joined [] 0 sources programs bodies next)
    (derives : Derives 1 ("\n".intercalate sources).toList 0 bodies.flatten next) : ∃ table,
    (checkSource ("\n".intercalate sources) 0).outcome = .ok ⟨bodies.flatten, table⟩ ∧
    ∀ program ∈ programs, ∀ id ∈ Stmt.allIds program.body,
      program.distances[id]? = table[id]? := by
  obtain ⟨own, resolved, _, entries⟩ := joined.resolved
  have one : Pairing.OneToOne ⟨Eq, fun _ _ => True⟩ := ⟨by rintro _ _ _ _ rfl rfl; rfl⟩
  obtain ⟨table, accepted, same⟩ := resolve_alike one joined.alike resolved
  refine ⟨table, ?_, fun program member id inside => ?_⟩
  · have parsed := parseSource_eq_ok_iff.mpr (parses_iff.mpr derives)
    simp only [checkSource, parsed, Except.bind, Program.ofStatements, accepted]
  · exact (entries program member id inside).2.symm.trans (same id id rfl)

end Joined

end Lox
