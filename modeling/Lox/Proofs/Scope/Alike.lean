import Lox.Proofs.Tree.Alike
import Lox.Scope.Resolve

/-! The analysis of alike trees. Labels play no part in it but as keys of the table and as places of
errors, so identifiers that stand for each other get the same distances. -/

namespace Lox

/-- Identifiers stand for each other one by one. -/
structure Pairing.OneToOne (pairing : Pairing) : Prop where
  same : pairing.ids one one' → pairing.ids two two' → (one = two ↔ one' = two')

variable (pairing : Pairing)

structure ScopeError.Alike (error other : ScopeError) : Prop where
  fault : error.fault = other.fault
  name : Name.Alike pairing error.name other.name

structure Analysis.Alike (analysis other : Analysis) : Prop where
  scopes : analysis.scopes = other.scopes
  distances : ∀ id id', pairing.ids id id' → analysis.distances[id]? = other.distances[id']?
  errors : List.Forall₂ (ScopeError.Alike pairing) analysis.errors.toList other.errors.toList

variable {pairing}

namespace Analysis

namespace Alike

variable {analysis other : Analysis} (alike : Analysis.Alike pairing analysis other)

theorem start : Analysis.Alike pairing Analysis.start Analysis.start :=
  ⟨rfl, fun _ _ _ => by simp [Analysis.start], .nil⟩

include alike

theorem report (fault : ScopeFault) (name : Name.Alike pairing word word') :
    Analysis.Alike pairing (analysis.report fault word) (other.report fault word') := by
  refine { alike with errors := ?_ }
  simp only [Analysis.report, Array.toList_push]
  exact List.rel_append alike.errors (.cons ⟨rfl, name⟩ .nil)

theorem openScope : Analysis.Alike pairing analysis.openScope other.openScope :=
  { alike with scopes := congrArg (Bindings.empty :: ·) alike.scopes }

theorem closeScope : Analysis.Alike pairing analysis.closeScope other.closeScope :=
  { alike with scopes := congrArg List.tail alike.scopes }

theorem bind (name : String) (ready : Bool) :
    Analysis.Alike pairing (analysis.bind name ready) (other.bind name ready) := by
  unfold Analysis.bind
  rw [← alike.scopes]
  split
  · exact alike
  · exact { alike with scopes := rfl }

theorem declare (name : Name.Alike pairing word word') :
    Analysis.Alike pairing (analysis.declare word) (other.declare word') := by
  have bound := alike.bind word.text false
  unfold Analysis.declare
  rw [← alike.scopes, ← name.text]
  split
  · exact bound
  · split
    · exact bound.report .alreadyDeclared name
    · exact bound

theorem define (name : Name.Alike pairing word word') :
    Analysis.Alike pairing (analysis.define word) (other.define word') := by
  unfold Analysis.define
  rw [← name.text]
  exact alike.bind word.text true

theorem name (name : Name.Alike pairing word word') :
    Analysis.Alike pairing ((analysis.declare word).define word)
      ((other.declare word').define word') :=
  (alike.declare name).define name

theorem recordDistance (one : pairing.OneToOne) (id : pairing.ids key key') (name : String) :
    Analysis.Alike pairing (analysis.recordDistance key name) (other.recordDistance key' name) := by
  unfold Analysis.recordDistance
  rw [← alike.scopes]
  split
  · rename_i distance _
    refine ⟨rfl, fun two two' paired => ?_, alike.errors⟩
    have same := one.same id paired
    simp only [Std.TreeMap.getElem?_insert, Std.LawfulEqCmp.compare_eq_iff_eq]
    by_cases here : key = two
    · rw [if_pos here, if_pos (same.mp here)]
    · rw [if_neg here, if_neg fun there => here (same.mpr there)]
      exact alike.distances two two' paired
  · exact alike

theorem isPending (name : String) : analysis.isPending name = other.isPending name := by
  unfold Analysis.isPending
  rw [alike.scopes]

theorem returnRules (around : Surroundings) (line : pairing.lines here there) {value : Option Expr}
    {value' : Option Expr} (same : value.isSome = value'.isSome) :
    Analysis.Alike pairing (Analysis.returnRules around here value analysis)
      (Analysis.returnRules around there value' other) := by
  have word : Name.Alike pairing ⟨"return", here⟩ ⟨"return", there⟩ := ⟨rfl, line⟩
  unfold Analysis.returnRules
  cases around.routine with
  | none => exact alike.report .returnAtTopLevel word
  | initializer =>
    cases value with
    | none =>
      cases value' with
      | none => exact alike
      | some value' => cases same
    | some value =>
      cases value' with
      | none => cases same
      | some value' => exact alike.report .valueFromInitializer word
  | _ => exact alike

theorem parameters (names : List.Forall₂ (Name.Alike pairing) words words') :
    Analysis.Alike pairing (Analysis.parameters words analysis)
      (Analysis.parameters words' other) := by
  induction names generalizing analysis other with
  | nil => exact alike
  | cons first _ ih => exact ih (alike.name first)

end Alike

theorem read_alike (one : pairing.OneToOne) (around : Surroundings) (id : pairing.ids key key')
    (name : Name.Alike pairing word word') (alike : Analysis.Alike pairing analysis other) :
    Analysis.Alike pairing (expr around (.read key word) analysis)
      (expr around (.read key' word') other) := by
  simp only [expr]
  rw [← alike.isPending, ← name.text]
  split
  · exact (alike.report .readInOwnInitializer name).recordDistance one id word.text
  · exact alike.recordDistance one id word.text

theorem this_alike (one : pairing.OneToOne) (around : Surroundings) (id : pairing.ids key key')
    (line : pairing.lines here there) (alike : Analysis.Alike pairing analysis other) :
    Analysis.Alike pairing (expr around (.this key here) analysis)
      (expr around (.this key' there) other) := by
  simp only [expr]
  split
  · exact alike.report .thisOutsideClass ⟨rfl, line⟩
  · exact alike.recordDistance one id "this"

theorem super_alike (one : pairing.OneToOne) (around : Surroundings) (id : pairing.ids key key')
    (line : pairing.lines here there) (alike : Analysis.Alike pairing analysis other) :
    Analysis.Alike pairing (expr around (.super key here word) analysis)
      (expr around (.super key' there word') other) := by
  simp only [expr]
  split
  · exact alike.report .superOutsideClass ⟨rfl, line⟩
  · exact alike.report .superWithoutSuperclass ⟨rfl, line⟩
  · exact alike.recordDistance one id "super"

mutual

theorem expr_alike (one : pairing.OneToOne) (around : Surroundings) :
    Expr.Alike pairing tree tree' →
    Analysis.Alike pairing analysis other →
    Analysis.Alike pairing (expr around tree analysis) (expr around tree' other)
  | .literal _, alike => alike
  | .grouping inner, alike => (expr_alike one around inner alike :)
  | .unary _ _ operand, alike => (expr_alike one around operand alike :)
  | .binary _ _ left right, alike =>
    (expr_alike one around right (expr_alike one around left alike) :)
  | .logical _ _ left right, alike =>
    (expr_alike one around right (expr_alike one around left alike) :)
  | .read id name, alike => read_alike one around id name alike
  | .assign id name value, alike => by
    simp only [expr, ← name.text]
    exact (expr_alike one around value alike).recordDistance one id _
  | .call callee _ arguments, alike =>
    (exprs_alike one around arguments (expr_alike one around callee alike) :)
  | .get object _, alike => (expr_alike one around object alike :)
  | .set object _ value, alike =>
    (expr_alike one around object (expr_alike one around value alike) :)
  | .this id line, alike => this_alike one around id line alike
  | .super id line _, alike => super_alike one around id line alike

theorem exprs_alike (one : pairing.OneToOne) (around : Surroundings) :
    Expr.AllAlike pairing trees trees' →
    Analysis.Alike pairing analysis other →
    Analysis.Alike pairing (exprs around trees analysis) (exprs around trees' other)
  | .nil, alike => alike
  | .cons first rest, alike => (exprs_alike one around rest (expr_alike one around first alike) :)

end

theorem isSome_eq {given given' : Option Expr}
    (value : Option.Rel (Expr.Alike pairing) given given') : given.isSome = given'.isSome := by
  cases value with
  | none => rfl
  | some _ => rfl

theorem expr?_alike (one : pairing.OneToOne) (around : Surroundings) {given given' : Option Expr}
    (value : Option.Rel (Expr.Alike pairing) given given')
    (alike : Analysis.Alike pairing analysis other) :
    Analysis.Alike pairing (expr? around given analysis) (expr? around given' other) := by
  cases value with
  | none => exact alike
  | some value => exact expr_alike one around value alike

theorem openSuper_alike (one : pairing.OneToOne) (around : Surroundings)
    (name : Name.Alike pairing word word')
    (superclass : Superclass.Alike pairing parent parent')
    (alike : Analysis.Alike pairing analysis other) :
    Analysis.Alike pairing (openSuper around word parent analysis)
      (openSuper around word' parent' other) := by
  have read {checked checked' : Analysis} (checks : Analysis.Alike pairing checked checked') :=
    (expr_alike one around superclass.toExpr checks).openScope.bind "super" true
  simp only [openSuper, ← name.text, ← superclass.name.text]
  split
  · exact read (alike.report .selfInheritance superclass.name)
  · exact read alike

mutual

theorem stmt_alike (one : pairing.OneToOne) (around : Surroundings) :
    Stmt.Alike pairing tree tree' →
    Analysis.Alike pairing analysis other →
    Analysis.Alike pairing (stmt around tree analysis) (stmt around tree' other)
  | .expression value, alike | .print value, alike => expr_alike one around value alike
  | .declareVar name initializer, alike =>
    (expr?_alike one around initializer (alike.declare name)).define name
  | .block body, alike => (stmts_alike one around body alike.openScope).closeScope
  | .ifThen condition consequent, alike =>
    (stmt_alike one around consequent (expr_alike one around condition alike) :)
  | .ifElse condition consequent alternative, alike =>
    (stmt_alike one around alternative
      (stmt_alike one around consequent (expr_alike one around condition alike)) :)
  | .while condition body, alike =>
    (stmt_alike one around body (expr_alike one around condition alike) :)
  | .declareFunction (.routine name parameters body), alike =>
    routine_alike one { around with routine := .function } (.routine name parameters body)
      (alike.name name)
  | .return line value, alike => by
    have same : Option.isSome _ = Option.isSome _ := isSome_eq value
    exact expr?_alike one around value (alike.returnRules around line same)
  | .declareClass name .none methods, alike =>
    (routines_alike one { around with owner := .base } methods
      ((alike.name name).openScope.bind "this" true)).closeScope
  | .declareClass name (.some superclass) methods, alike =>
    (routines_alike one { around with owner := .derived } methods
      ((openSuper_alike one around name superclass (alike.name name)).openScope.bind "this"
        true)).closeScope.closeScope

theorem stmts_alike (one : pairing.OneToOne) (around : Surroundings) :
    Stmt.AllAlike pairing trees trees' →
    Analysis.Alike pairing analysis other →
    Analysis.Alike pairing (stmts around trees analysis) (stmts around trees' other)
  | .nil, alike => alike
  | .cons first rest, alike => (stmts_alike one around rest (stmt_alike one around first alike) :)

theorem routine_alike (one : pairing.OneToOne) (around : Surroundings) :
    Routine.Alike pairing declared declared' →
    Analysis.Alike pairing analysis other →
    Analysis.Alike pairing (routine around declared analysis) (routine around declared' other)
  | .routine _ parameters body, alike =>
    (stmts_alike one around body (alike.openScope.parameters parameters)).closeScope

theorem routines_alike (one : pairing.OneToOne) (around : Surroundings) :
    Routine.AllAlike pairing owned owned' →
    Analysis.Alike pairing analysis other →
    Analysis.Alike pairing (routines around owned analysis) (routines around owned' other)
  | .nil, alike => alike
  | .cons first rest, alike => by
    simp only [routines, methodKind, ← first.text]
    exact routines_alike one around rest (routine_alike one _ first alike)

end

end Analysis

/-- Checks that have related results or else errors that are alike. -/
inductive Judged (alike : ε → ε → Prop) (related : α → α → Prop) :
    Except (List ε) α → Except (List ε) α → Prop where
  | accepted (same : related result result') : Judged alike related (.ok result) (.ok result')
  | rejected (same : List.Forall₂ alike errors errors') :
      Judged alike related (.error errors) (.error errors')

/-- Statements that are alike keep the same scope rules, with the same distances. -/
theorem resolve_judged (one : pairing.OneToOne) (same : Stmt.AllAlike pairing body body') :
    Judged (ScopeError.Alike pairing)
      (fun table table' => ∀ id id', pairing.ids id id' → table[id]? = table'[id']?)
      (resolve body) (resolve body') := by
  have walked := Analysis.stmts_alike one .topLevel same .start
  have clean : (Analysis.stmts .topLevel body .start).errors.isEmpty =
      (Analysis.stmts .topLevel body' .start).errors.isEmpty := by
    simp only [Array.isEmpty, ← Array.length_toList, walked.errors.length_eq]
  unfold resolve
  dsimp only
  rw [← clean]
  split
  · exact .accepted walked.distances
  · exact .rejected walked.errors

theorem resolve_alike (one : pairing.OneToOne) (same : Stmt.AllAlike pairing body body')
    (resolved : resolve body = .ok table) : ∃ table', resolve body' = .ok table' ∧
      ∀ id id', pairing.ids id id' → table[id]? = table'[id']? := by
  have judged := resolve_judged one same
  rw [resolved] at judged
  generalize resolve body' = result at judged
  cases judged with
  | accepted same => exact ⟨_, rfl, same⟩

end Lox
