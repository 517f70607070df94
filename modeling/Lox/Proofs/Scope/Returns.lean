import Lox.Proofs.Scope.Walks
import Lox.Proofs.Tree.Inner

/-! Where a `return` may stand. The analysis takes back no report, so in an accepted program it made none
on the way, and outside of all routines there is no `return`. -/

namespace Lox

namespace Analysis

/-- A check that takes back no report. -/
def Reports (check : Analysis → Analysis) : Prop :=
  ∀ analysis, analysis.errors.size ≤ (check analysis).errors.size

theorem Walks.reports (walks : Walks ids check) : Reports check := by
  intro analysis
  induction walks generalizing analysis with
  | stay | openScope | closeScope => exact Nat.le_refl _
  | report => simp [Analysis.report]
  | bind name ready =>
    dsimp only [Analysis.bind]
    split <;> exact Nat.le_refl _
  | record id name =>
    dsimp only [Analysis.recordDistance]
    split <;> exact Nat.le_refl _
  | comp _ _ ih ih' => exact Nat.le_trans (ih analysis) (ih' _)
  | either decides _ _ ih ih' =>
    dsimp only
    split
    · exact ih analysis
    · exact ih' analysis
  | within _ _ ih => exact ih analysis

/-- Where nothing is reported in the end nothing was reported before. -/
theorem Walks.clean (walks : Walks ids check) {analysis : Analysis} (empty : (check analysis).errors = #[]) :
    analysis.errors = #[] := by
  have fewer := walks.reports analysis
  rw [empty] at fewer
  exact Array.eq_empty_of_size_eq_zero (Nat.le_zero.mp fewer)

open Stmt (Returnless)

variable {around : Surroundings} {analysis : Analysis}

mutual

/-- Outside of all routines a statement on which nothing is reported contains no `return`. -/
theorem stmt_returnless (outside : around.routine = .none) :
    (tree : Stmt) → (analysis : Analysis) → (stmt around tree analysis).errors = #[] →
    Returnless tree.inner
  | .expression _, _, _ => .cons nofun Stmt.returnless_nil
  | .print _, _, _ => .cons nofun Stmt.returnless_nil
  | .declareVar _ _, _, _ => .cons nofun Stmt.returnless_nil
  | .block body, analysis, clean =>
    .cons nofun (stmts_returnless outside body analysis.openScope (Walks.closeScope.clean clean))
  | .ifThen condition consequent, analysis, clean =>
    .cons nofun (stmt_returnless outside consequent (expr around condition analysis) clean)
  | .ifElse condition consequent alternative, analysis, clean =>
    have before := (Walks.stmt around alternative).clean clean
    .cons nofun ((stmt_returnless outside consequent (expr around condition analysis) before).append
      (stmt_returnless outside alternative _ clean))
  | .while condition body, analysis, clean =>
    .cons nofun (stmt_returnless outside body (expr around condition analysis) clean)
  | .declareFunction _, _, _ => .cons nofun Stmt.returnless_nil
  | .return line value, analysis, clean => by
    have reported := (Walks.expr? around value).clean clean
    simp [returnRules, outside, report] at reported
  | .declareClass _ _ _, _, _ => .cons nofun Stmt.returnless_nil

theorem stmts_returnless (outside : around.routine = .none) :
    (trees : List Stmt) → (analysis : Analysis) → (stmts around trees analysis).errors = #[] →
    Returnless (Stmt.allInner trees)
  | [], _, _ => Stmt.returnless_nil
  | first :: rest, analysis, clean =>
    have before := (Walks.stmts around rest).clean clean
    (stmt_returnless outside first analysis before).append
      (stmts_returnless outside rest (stmt around first analysis) clean)

end

end Analysis

/-- In an accepted program there is no `return` outside of all routines. -/
theorem resolve_returnless (resolved : resolve body = .ok table) :
    Stmt.Returnless (Stmt.allInner body) := by
  unfold resolve at resolved
  dsimp only at resolved
  split at resolved
  · rename_i clean
    exact Analysis.stmts_returnless rfl body .start (by simpa using clean)
  · cases resolved

end Lox
