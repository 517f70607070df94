import Lox.Proofs.Tree.Ids
import Lox.Scope.Resolve

/-! The analysis as a walk of single steps. Statements are checked by such walks, so what holds of single
steps and of compositions holds of the check of a program. -/

namespace Lox

namespace Analysis

/-- The compositions of single steps that record distances for the given identifiers at most. -/
inductive Walks : List NodeId → (Analysis → Analysis) → Prop where
  | stay : Walks [] fun analysis => analysis
  | report (fault : ScopeFault) (name : Name) : Walks [] (·.report fault name)
  | bind (name : String) (ready : Bool) : Walks [] (·.bind name ready)
  | openScope : Walks [] Analysis.openScope
  | closeScope : Walks [] Analysis.closeScope
  | record (id : NodeId) (name : String) : Walks [id] (·.recordDistance id name)
  | comp (first : Walks ids check) (second : Walks ids' check') :
      Walks (ids ++ ids') fun analysis => check' (check analysis)
  | either (decides : Analysis → Bool) (one : Walks ids check) (other : Walks ids check') :
      Walks ids fun analysis => if decides analysis then check analysis else check' analysis
  | within (walks : Walks ids check) (inside : ids ⊆ ids') : Walks ids' check

namespace Walks

theorem before (first : Walks ids check) (second : Walks [] check') :
    Walks ids fun analysis => check' (check analysis) :=
  List.append_nil ids ▸ first.comp second

theorem after (first : Walks [] check) (second : Walks ids check') :
    Walks ids fun analysis => check' (check analysis) :=
  first.comp second

theorem silent {check : Analysis → Analysis} (walks : Walks [] check) : Walks ids check :=
  walks.within (List.nil_subset _)

theorem define (name : Name) : Walks [] (·.define name) :=
  bind name.text true

theorem declare (name : Name) : Walks [] (·.declare name) := by
  have same : (·.declare name) = fun analysis : Analysis =>
      if analysis.scopes.head?.any (·.contains name.text) then
        (analysis.bind name.text false).report .alreadyDeclared name
      else analysis.bind name.text false := by
    funext analysis
    unfold Analysis.declare
    cases analysis.scopes with
    | nil => rfl
    | cons inner outer =>
      simp only [List.head?_cons, Option.any_some]
      rfl
  rw [same]
  exact .either _ ((bind name.text false).after (report .alreadyDeclared name)) (bind name.text false)

theorem named (name : Name) : Walks [] fun analysis => (analysis.declare name).define name :=
  (declare name).after (define name)

theorem parameters (names : List Name) : Walks [] (parameters names) := by
  induction names with
  | nil => exact .stay
  | cons name rest ih => exact (named name).after ih

theorem returnRules (around : Surroundings) (line : Nat) (value : Option Expr) :
    Walks [] (returnRules around line value) := by
  unfold Analysis.returnRules
  split
  · exact .report _ _
  · exact .report _ _
  · exact .stay

theorem read (around : Surroundings) (id : NodeId) (name : Name) :
    Walks [id] (Analysis.expr around (.read id name)) := by
  have pending : Walks [] fun analysis =>
      if analysis.isPending name.text then analysis.report .readInOwnInitializer name else analysis :=
    .either _ (.report _ _) .stay
  exact pending.after (.record id name.text)

theorem this (around : Surroundings) (id : NodeId) (line : Nat) :
    Walks [id] (Analysis.expr around (.this id line)) := by
  obtain ⟨routine, owner⟩ := around
  cases owner with
  | none => exact (Walks.report _ _).silent
  | base | derived => exact .record _ _

theorem super (around : Surroundings) (id : NodeId) (line : Nat) (method : Name) :
    Walks [id] (Analysis.expr around (.super id line method)) := by
  obtain ⟨routine, owner⟩ := around
  cases owner with
  | none | base => exact (Walks.report _ _).silent
  | derived => exact .record _ _

mutual

theorem expr (around : Surroundings) : (tree : Expr) → Walks tree.ids (Analysis.expr around tree)
  | .literal _ => .stay
  | .grouping inner => expr around inner
  | .unary _ _ operand => expr around operand
  | .binary _ _ left right => (expr around left).comp (expr around right)
  | .logical _ _ left right => (expr around left).comp (expr around right)
  | .read id name => read around id name
  | .assign id name value => (expr around value).comp (.record id name.text)
  | .call callee _ arguments => (expr around callee).comp (exprs around arguments)
  | .get object _ => expr around object
  | .set object _ value =>
    ((expr around value).comp (expr around object)).within List.perm_append_comm.subset
  | .this id line => this around id line
  | .super id line method => super around id line method

theorem exprs (around : Surroundings) :
    (trees : List Expr) → Walks (Expr.allIds trees) (Analysis.exprs around trees)
  | [] => .stay
  | first :: rest => (expr around first).comp (exprs around rest)

end

theorem expr? (around : Surroundings) (value : Option Expr) :
    Walks (Expr.ids? value) (Analysis.expr? around value) := by
  cases value with
  | none => exact .stay
  | some value => exact expr around value

theorem openThis : Walks [] fun analysis => analysis.openScope.bind "this" true :=
  openScope.after (bind "this" true)

theorem openSuper (around : Surroundings) (name : Name) (superclass : Superclass) :
    Walks [superclass.id] (openSuper around name superclass) := by
  have checked : Walks [] fun analysis => if superclass.name.text = name.text then
      analysis.report .selfInheritance superclass.name else analysis := by
    split
    · exact .report _ _
    · exact .stay
  exact ((checked.after (expr around superclass.toExpr)).before openScope).before (bind "super" true)

mutual

theorem stmt (around : Surroundings) : (tree : Stmt) → Walks tree.ids (Analysis.stmt around tree)
  | .expression value => expr around value
  | .print value => expr around value
  | .declareVar name initializer =>
    ((declare name).after (expr? around initializer)).before (define name)
  | .block body => (openScope.after (stmts around body)).before closeScope
  | .ifThen condition consequent => (expr around condition).comp (stmt around consequent)
  | .ifElse condition consequent alternative =>
    (expr around condition).comp ((stmt around consequent).comp (stmt around alternative))
  | .while condition body => (expr around condition).comp (stmt around body)
  | .declareFunction decl =>
    (named decl.name).after (routine { around with routine := .function } decl)
  | .return line value => (returnRules around line value).after (expr? around value)
  | .declareClass name none methods =>
    (((named name).after openThis).after (routines { around with owner := .base } methods)).before
      closeScope
  | .declareClass name (some superclass) methods =>
    (((((named name).after (openSuper around name superclass)).before openThis).comp
      (routines { around with owner := .derived } methods)).before closeScope).before closeScope

theorem stmts (around : Surroundings) :
    (trees : List Stmt) → Walks (Stmt.allIds trees) (Analysis.stmts around trees)
  | [] => .stay
  | first :: rest => (stmt around first).comp (stmts around rest)

theorem routine (around : Surroundings) :
    (tree : Routine) → Walks tree.ids (Analysis.routine around tree)
  | ⟨_, names, body⟩ =>
    ((openScope.after (parameters names)).after (stmts around body)).before closeScope

theorem routines (around : Surroundings) :
    (trees : List Routine) → Walks (Routine.allIds trees) (Analysis.routines around trees)
  | [] => .stay
  | method :: rest =>
    (routine { around with routine := methodKind method.name } method).comp (routines around rest)

end

/-- Other identifiers keep the distances that they have. -/
theorem distances {id : NodeId} (walks : Walks ids check) (foreign : id ∉ ids) (analysis : Analysis) :
    (check analysis).distances[id]? = analysis.distances[id]? := by
  induction walks generalizing analysis with
  | stay | report | openScope | closeScope => rfl
  | bind name ready =>
    dsimp only [Analysis.bind]
    split <;> rfl
  | record own name =>
    dsimp only [Analysis.recordDistance]
    split
    · rw [List.mem_singleton] at foreign
      rw [Std.TreeMap.getElem?_insert, if_neg]
      simpa [Std.LawfulEqCmp.compare_eq_iff_eq] using Ne.symm foreign
    · rfl
  | comp _ _ ih ih' =>
    rw [List.mem_append, not_or] at foreign
    exact (ih' foreign.2 _).trans (ih foreign.1 _)
  | either decides _ _ ih ih' =>
    dsimp only
    split
    · exact ih foreign _
    · exact ih' foreign _
  | within _ inside ih => exact ih (fun member => foreign (inside member)) _

end Walks

end Analysis

/-- The table of a program has entries for its own identifiers only. -/
theorem resolve_own {id : NodeId} (resolved : resolve body = .ok table)
    (foreign : id ∉ Stmt.allIds body) :
    table[id]? = none := by
  unfold resolve at resolved
  dsimp only at resolved
  split at resolved
  · cases resolved
    exact ((Analysis.Walks.stmts .topLevel body).distances foreign .start).trans (by simp [Analysis.start])
  · cases resolved

end Lox
