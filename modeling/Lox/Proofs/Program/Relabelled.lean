import Lox.Proofs.Parse.Statement
import Lox.Proofs.Scope.Alike
import Lox.Program

/-! Sources checked with other labels. Where the tokens of two sources are alike both are accepted, with
statements and tables that are alike, or both are rejected for the same reasons, with reports that differ
in their lines only. -/

namespace Lox

variable (pairing : Pairing)

structure LexError.Alike (error other : LexError) : Prop where
  fault : error.fault = other.fault
  line : pairing.lines error.line other.line

structure Scan.Alike (scan other : Scan) : Prop where
  tokens : List.Forall₂ (Token.Alike pairing) scan.tokens other.tokens
  errors : List.Forall₂ (LexError.Alike pairing) scan.errors other.errors

/-- Reports of a check that differ in their lines only. -/
inductive Report.Alike : Report → Report → Prop where
  | lexical (same : LexError.Alike pairing error other) :
      Report.Alike (.lexical error) (.lexical other)
  | syntactic (same : SyntaxError.Alike pairing error other) :
      Report.Alike (.syntactic error) (.syntactic other)
  | scope (same : ScopeError.Alike pairing error other) : Report.Alike (.scope error) (.scope other)

/-- Programs that differ in their labels only. -/
structure Program.Alike (program other : Program) : Prop where
  body : Stmt.AllAlike pairing program.body other.body
  distances : ∀ id id', pairing.ids id id' → program.distances[id]? = other.distances[id']?

/-- Checks that come out alike and after which the next identifiers stand for each other. -/
structure Checked.Alike {α : Type} (related : α → α → Prop) (checked other : Checked α) : Prop where
  outcome : Judged (Report.Alike pairing) related checked.outcome other.outcome
  ids : ∀ count, pairing.ids (checked.nextId + count) (other.nextId + count)

variable {pairing}

theorem Parse.State.Alike.start (same : List.Forall₂ (Token.Alike pairing) tokens tokens')
    (first : pairing.lines 1 1) (ids : ∀ count, pairing.ids (next + count) (next' + count)) :
    State.Alike pairing (.start tokens next) (.start tokens' next') := by
  refine ⟨?_, ?_, ids, .nil⟩
  · simp only [State.start]
    induction same with
    | nil => exact .nil
    | cons first rest ih =>
      simp only [List.takeWhile_cons, ← first.kind]
      split
      · exact .cons first ih
      · exact .nil
  · simp only [State.start]
    induction same with
    | nil => exact first
    | cons first rest ih =>
      simp only [List.find?_cons, ← first.kind]
      split
      · exact first.line
      · exact ih

theorem Parsed.ofTokens_alike
    (start : Parse.State.Alike pairing (.start tokens next) (.start tokens' next')) :
    Judged (SyntaxError.Alike pairing) (Stmt.AllAlike pairing) (ofTokens tokens next).program
        (ofTokens tokens' next').program ∧
      ∀ count, pairing.ids ((ofTokens tokens next).nextId + count)
        ((ofTokens tokens' next').nextId + count) := by
  have ends := Parse.program_relabels _ _ start
  unfold ofTokens
  generalize Parse.program (.start tokens next) = result at ends ⊢
  generalize Parse.program (.start tokens' next') = result' at ends ⊢
  cases ends with
  | error reason after => exact ⟨.rejected (after.report reason after.rest).errors, after.ids⟩
  | @ok _ _ state state' same after =>
    have clean : state.errors.isEmpty = state'.errors.isEmpty := by
      simp only [Array.isEmpty, ← Array.length_toList, after.errors.length_eq]
    refine ⟨?_, after.ids⟩
    dsimp only
    rw [← clean]
    split
    · exact .accepted same
    · exact .rejected after.errors

theorem parseSource_alike (scans : Scan.Alike pairing (.ofSource source) (.ofSource other))
    (first : pairing.lines 1 1) (ids : ∀ count, pairing.ids (next + count) (next' + count)) :
    (parseSource source next).Alike pairing (Stmt.AllAlike pairing) (parseSource other next') := by
  obtain ⟨parsed, ids⟩ := Parsed.ofTokens_alike (.start scans.tokens first ids)
  have lexical : List.Forall₂ (Report.Alike pairing) ((Scan.ofSource source).errors.map .lexical)
      ((Scan.ofSource other).errors.map .lexical) :=
    List.rel_map (fun _ _ same => .lexical same) scans.errors
  refine ⟨?_, ids⟩
  unfold parseSource
  dsimp only
  generalize (Parsed.ofTokens (Scan.ofSource source).tokens next).program = result at parsed ⊢
  generalize (Parsed.ofTokens (Scan.ofSource other).tokens next').program = result' at parsed ⊢
  cases parsed with
  | rejected errors =>
    exact .rejected (List.rel_append lexical (List.rel_map (fun _ _ same => .syntactic same) errors))
  | accepted same =>
    have clean := lexical.length_eq
    simp only [List.isEmpty_iff_length_eq_zero, ← clean]
    split
    · exact .accepted same
    · exact .rejected lexical

theorem Program.ofStatements_alike (one : pairing.OneToOne)
    (same : Stmt.AllAlike pairing statements statements') :
    Judged (Report.Alike pairing) (Program.Alike pairing) (ofStatements statements)
      (ofStatements statements') := by
  have judged := resolve_judged one same
  unfold ofStatements
  generalize resolve statements = result at judged ⊢
  generalize resolve statements' = result' at judged ⊢
  cases judged with
  | accepted distances => exact .accepted ⟨same, distances⟩
  | rejected errors => exact .rejected (List.rel_map (fun _ _ same => .scope same) errors)

theorem checkSource_alike (one : pairing.OneToOne)
    (scans : Scan.Alike pairing (.ofSource source) (.ofSource other)) (first : pairing.lines 1 1)
    (ids : ∀ count, pairing.ids (next + count) (next' + count)) :
    (checkSource source next).Alike pairing (Program.Alike pairing) (checkSource other next') := by
  obtain ⟨parsed, ids⟩ := parseSource_alike scans first ids
  refine ⟨?_, ids⟩
  unfold checkSource
  dsimp only
  generalize (parseSource source next).outcome = result at parsed ⊢
  generalize (parseSource other next').outcome = result' at parsed ⊢
  cases parsed with
  | rejected reports => exact .rejected reports
  | accepted same => exact Program.ofStatements_alike one same

end Lox
