import Lox.Proofs.Scope.Balanced

/-! The analysis of statements at the top level, which starts and ends without scopes. Hence it carries
nothing from one statement to the next, and the verdicts on programs can be joined. -/

namespace Lox

namespace Analysis

theorem stmts_append (around : Surroundings) (body others : List Stmt) (analysis : Analysis) :
    stmts around (body ++ others) analysis = stmts around others (stmts around body analysis) := by
  induction body generalizing analysis with
  | nil => rfl
  | cons first rest ih => exact ih (stmt around first analysis)

end Analysis

/-- What the analysis says of a program. -/
abbrev Verdict := Except (List ScopeError) Distances

/-- The verdict on programs one after the other, from the verdicts on each. Where both have an entry for a
node the second one counts. -/
inductive Verdict.Joins : Verdict → Verdict → Verdict → Prop where
  | accepted (union : ∀ id : NodeId, joined[id]? = table'[id]?.or table[id]?) :
      Joins (.ok table) (.ok table') (.ok joined)
  | first : Joins (.error errors) (.ok table') (.error errors)
  | second : Joins (.ok table) (.error errors') (.error errors')
  | both : Joins (.error errors) (.error errors') (.error (errors ++ errors'))

namespace Notes

def append (notes notes' : Notes) : Notes :=
  ⟨notes.entries ++ notes'.entries, notes.errors ++ notes'.errors⟩

/-- The verdict on a program of which these are all notes. -/
def verdict (notes : Notes) : Verdict :=
  if notes.errors.isEmpty then .ok (record ∅ notes.entries) else .error notes.errors

theorem verdict_joins (notes notes' : Notes) :
    Verdict.Joins notes.verdict notes'.verdict (notes.append notes').verdict := by
  obtain ⟨entries, errors⟩ := notes
  obtain ⟨entries', errors'⟩ := notes'
  cases errors with
  | nil =>
    cases errors' with
    | nil =>
      refine .accepted fun id => ?_
      simp only [getElem?_record, append, noted?_append]
      simp
    | cons error' others' => exact .second
  | cons error others =>
    cases errors' with
    | nil =>
      have same : (append ⟨entries, error :: others⟩ ⟨entries', []⟩).verdict = .error (error :: others) := by
        simp [append, verdict]
      rw [same]
      exact .first
    | cons error' others' => exact .both

end Notes

theorem resolve_verdict {notes : Notes}
    (walked : Analysis.stmts .topLevel body .start = Analysis.start.noting [] notes) :
    resolve body = notes.verdict := by
  unfold resolve
  rw [walked]
  simp [Analysis.noting, Analysis.start, Notes.verdict]

/-- What the analysis of a program notes, whatever has been noted before it. -/
theorem resolve_notes (body : List Stmt) : ∃ notes : Notes,
    (∀ analysis, analysis.scopes = [] →
      Analysis.stmts .topLevel body analysis = analysis.noting [] notes) ∧
    resolve body = notes.verdict := by
  obtain ⟨notes, runs⟩ := Analysis.stmts_noted .topLevel [] body
  rw [Scoping.bindAll_global] at runs
  exact ⟨notes, runs, resolve_verdict (runs .start rfl)⟩

theorem resolve_joins (body others : List Stmt) :
    Verdict.Joins (resolve body) (resolve others) (resolve (body ++ others)) := by
  obtain ⟨notes, runs, verdict⟩ := resolve_notes body
  obtain ⟨notes', runs', verdict'⟩ := resolve_notes others
  have walked : Analysis.stmts .topLevel (body ++ others) .start =
      Analysis.start.noting [] (notes.append notes') := by
    rw [Analysis.stmts_append, runs .start rfl, runs' _ rfl]
    simp [Analysis.noting, Notes.append, Notes.record]
  rw [verdict, verdict', resolve_verdict walked]
  exact notes.verdict_joins notes'

/-- Programs accepted on their own are accepted one after the other, and their tables are put
together. -/
theorem resolve_append (resolved : resolve body = .ok table) (resolved' : resolve others = .ok table') :
    ∃ joined, resolve (body ++ others) = .ok joined ∧
      ∀ id : NodeId, joined[id]? = table'[id]?.or table[id]? := by
  have joins := resolve_joins body others
  rw [resolved, resolved'] at joins
  cases found : resolve (body ++ others) with
  | ok joined =>
    rw [found] at joins
    cases joins with
    | accepted union => exact ⟨joined, rfl, union⟩
  | error errors =>
    rw [found] at joins
    cases joins

end Lox
