import Lox.Proofs.Scope.Accepted
import Lox.Proofs.Scope.Sites

/-! The analysis is balanced. Whatever it reports on the way, it leaves the scopes around a statement as they
were, but for the names that the statement declares in the innermost one. What it adds to the table and to
the errors depends on these scopes only. -/

namespace Lox

namespace Scoping

/-- Makes names ready in the innermost scope, the last of them first. -/
def bindAll (names : List String) (scoping : Scoping) : Scoping :=
  names.foldr (bind · true) scoping

@[simp] theorem bindAll_append (names others : List String) (scoping : Scoping) :
    bindAll (names ++ others) scoping = bindAll names (bindAll others scoping) :=
  List.foldr_append

@[simp] theorem bindAll_tail (names : List String) (scoping : Scoping) :
    (bindAll names scoping).tail = scoping.tail := by
  induction names with
  | nil => rfl
  | cons name rest ih => exact (bind_tail _).trans ih

@[simp] theorem bindAll_global (names : List String) : bindAll names [] = [] := by
  induction names with
  | nil => rfl
  | cons name rest ih => exact congrArg (bind name true) ih

theorem bindAll_cons (names : List String) (inner : Bindings Bool) (outer : Scoping) :
    ∃ inner', bindAll names (inner :: outer) = inner' :: outer ∧
      ∀ name, inner'.find? name = if name ∈ names then some true else inner.find? name := by
  induction names with
  | nil => exact ⟨inner, rfl, fun name => by simp⟩
  | cons first rest ih =>
    obtain ⟨inner', scopes, found⟩ := ih
    refine ⟨inner'.insert first true, congrArg (bind first true) scopes, fun name => ?_⟩
    rw [Bindings.find?_insert, found]
    by_cases same : name = first <;> simp [same]

end Scoping

namespace Analysis

/-- A walk from some scopes to others that adds to the table and to the errors what depends on the former. -/
def Noted (walk : Analysis → Analysis) (before after : Scoping) : Prop :=
  ∃ notes : Notes, ∀ analysis, analysis.scopes = before → walk analysis = analysis.noting after notes

theorem Checks.noted (checks : Checks walk before after ids right) : Noted walk before after := by
  obtain ⟨notes, runs, _⟩ := checks
  exact ⟨notes, runs⟩

namespace Noted

theorem pass : Noted id before before :=
  Checks.pass.noted

theorem comp {first second : Analysis → Analysis} (one : Noted first before middle)
    (other : Noted second middle after) : Noted (fun analysis => second (first analysis)) before after := by
  obtain ⟨notes, runs⟩ := one
  obtain ⟨notes', runs'⟩ := other
  refine ⟨⟨notes.entries ++ notes'.entries, notes.errors ++ notes'.errors⟩, fun analysis same => ?_⟩
  change second (first analysis) = _
  rw [runs analysis same, runs' _ rfl]
  simp [noting, Notes.record]

theorem congr (noted : Noted walk before after)
    (same : ∀ analysis, analysis.scopes = before → other analysis = walk analysis) :
    Noted other before after := by
  obtain ⟨notes, runs⟩ := noted
  exact ⟨notes, fun analysis start => (same analysis start).trans (runs analysis start)⟩

theorem report (fault : ScopeFault) (name : Name) : Noted (·.report fault name) before before := by
  have checks : Checks (·.report fault name) before before [] fun _ => True := .report fault name
  exact checks.noted

theorem recordDistance (id : NodeId) (name : String) : Noted (·.recordDistance id name) before before :=
  (Checks.recordDistance id name).noted

theorem openScope : Noted Analysis.openScope before (.empty :: before) :=
  Checks.openScope.noted

theorem closeScope : Noted Analysis.closeScope before before.tail :=
  Checks.closeScope.noted

theorem bind (name : String) (ready : Bool) : Noted (·.bind name ready) before (before.bind name ready) :=
  (Checks.bind name ready).noted

/-- A walk inside a scope of its own. -/
theorem inside (noted : Noted walk (.empty :: scoping) after) (outer : after.tail = scoping) :
    Noted (fun analysis => (walk analysis.openScope).closeScope) scoping scoping :=
  outer ▸ (openScope.comp noted).comp closeScope

end Noted

theorem isPending_eq (analysis : Analysis) (name : String) :
    analysis.isPending name = analysis.scopes.head?.any (·.find? name == some false) := by
  unfold isPending
  cases analysis.scopes <;> rfl

section Expressions

variable {scoping : Scoping} (around : Surroundings)

theorem read_noted (id : NodeId) (name : Name) : Noted (expr around (.read id name)) scoping scoping := by
  by_cases pending : scoping.head?.any (·.find? name.text == some false) = true
  · refine ((Noted.report .readInOwnInitializer name).comp (.recordDistance id name.text)).congr
      fun analysis same => ?_
    simp [expr, isPending_eq, same, pending]
  · refine (Noted.recordDistance id name.text).congr fun analysis same => ?_
    simp [expr, isPending_eq, same, pending]

theorem this_noted (id : NodeId) (line : Nat) : Noted (expr around (.this id line)) scoping scoping := by
  cases owner : around.owner with
  | none =>
    refine (Noted.report .thisOutsideClass ⟨"this", line⟩).congr fun analysis _ => ?_
    simp [expr, owner]
  | base | derived =>
    refine (Noted.recordDistance id "this").congr fun analysis _ => ?_
    simp [expr, owner]

theorem super_noted (id : NodeId) (line : Nat) (method : Name) :
    Noted (expr around (.super id line method)) scoping scoping := by
  cases owner : around.owner with
  | none =>
    refine (Noted.report .superOutsideClass ⟨"super", line⟩).congr fun analysis _ => ?_
    simp [expr, owner]
  | base =>
    refine (Noted.report .superWithoutSuperclass ⟨"super", line⟩).congr fun analysis _ => ?_
    simp [expr, owner]
  | derived =>
    refine (Noted.recordDistance id "super").congr fun analysis _ => ?_
    simp [expr, owner]

mutual

theorem expr_noted : (tree : Expr) → Noted (expr around tree) scoping scoping
  | .literal _ => .pass
  | .grouping inner => expr_noted inner
  | .unary _ _ operand => expr_noted operand
  | .binary _ _ left right => (expr_noted left).comp (expr_noted right)
  | .logical _ _ left right => (expr_noted left).comp (expr_noted right)
  | .read id name => read_noted around id name
  | .assign id name value => (expr_noted value).comp (.recordDistance id name.text)
  | .call callee _ arguments => (expr_noted callee).comp (exprs_noted arguments)
  | .get object _ => expr_noted object
  | .set object _ value => (expr_noted value).comp (expr_noted object)
  | .this id line => this_noted around id line
  | .super id line method => super_noted around id line method

theorem exprs_noted : (trees : List Expr) → Noted (exprs around trees) scoping scoping
  | [] => .pass
  | first :: rest => (expr_noted first).comp (exprs_noted rest)

end

theorem expr?_noted (value : Option Expr) : Noted (expr? around value) scoping scoping := by
  cases value with
  | none => exact .pass
  | some value => exact expr_noted around value

theorem openSuper_noted (name : Name) (superclass : Superclass) :
    Noted (openSuper around name superclass) scoping (Scoping.frame ["super"] :: scoping) := by
  have opened : Noted (fun analysis => (openScope (expr around superclass.toExpr analysis)).bind
      "super" true) scoping (Scoping.frame ["super"] :: scoping) :=
    ((expr_noted around superclass.toExpr).comp .openScope).comp (.bind "super" true)
  by_cases same : superclass.name.text = name.text
  · refine ((Noted.report .selfInheritance superclass.name).comp opened).congr fun analysis _ => ?_
    simp [openSuper, same]
  · refine opened.congr fun analysis _ => ?_
    simp [openSuper, same]

end Expressions

theorem name_noted (scoping : Scoping) (name : Name) :
    Noted (fun analysis => (analysis.declare name).define name) scoping (scoping.bindAll [name.text]) :=
  (name_checks scoping name).noted

mutual

theorem stmt_noted (around : Surroundings) (scoping : Scoping) :
    (tree : Stmt) → Noted (stmt around tree) scoping (scoping.bindAll tree.declares)
  | .expression value | .print value => expr_noted around value
  | .declareVar name initializer => by
    have declared := (declare_checks scoping name).noted
    have walked := (declared.comp (expr?_noted around initializer)).comp (.bind name.text true)
    rwa [Scoping.bind_bind] at walked
  | .block body => .inside (stmts_noted around (.empty :: scoping) body) (Scoping.bindAll_tail _ _)
  | .ifThen condition consequent =>
    (expr_noted around condition).comp (stmt_noted around scoping consequent)
  | .ifElse condition consequent alternative => by
    have chosen := stmt_noted around scoping consequent
    have otherwise := stmt_noted around (scoping.bindAll consequent.declares) alternative
    rw [← Scoping.bindAll_append] at otherwise
    exact ((expr_noted around condition).comp chosen).comp otherwise
  | .while condition body => (expr_noted around condition).comp (stmt_noted around scoping body)
  | .declareFunction decl =>
    (name_noted scoping decl.name).comp (routine_noted _ (scoping.bindAll [decl.name.text]) decl)
  | .return line value =>
    (returnRules_checks around line value).noted.comp (expr?_noted around value)
  | .declareClass name none methods => by
    have opened := (name_noted scoping name).comp (openThis_checks (scoping.bindAll [name.text])).noted
    exact (opened.comp (routines_noted { around with owner := .base } _ methods)).comp .closeScope
  | .declareClass name (some superclass) methods => by
    have named := (name_noted scoping name).comp (openSuper_noted around name superclass)
    have opened := named.comp (openThis_checks _).noted
    exact ((opened.comp (routines_noted { around with owner := .derived } _ methods)).comp
      .closeScope).comp .closeScope

theorem stmts_noted (around : Surroundings) (scoping : Scoping) :
    (trees : List Stmt) → Noted (stmts around trees) scoping (scoping.bindAll (Stmt.allDeclares trees))
  | [] => .pass
  | first :: rest => by
    have later := stmts_noted around (scoping.bindAll first.declares) rest
    rw [← Scoping.bindAll_append] at later
    exact (stmt_noted around scoping first).comp later

theorem routine_noted (around : Surroundings) (scoping : Scoping) :
    (tree : Routine) → Noted (routine around tree) scoping scoping
  | ⟨_, names, body⟩ => by
    have named := (parameters_checks names .empty scoping).noted
    exact .inside (named.comp (stmts_noted around _ body)) (Scoping.bindAll_tail _ _)

theorem routines_noted (around : Surroundings) (scoping : Scoping) :
    (trees : List Routine) → Noted (routines around trees) scoping scoping
  | [] => .pass
  | method :: rest =>
    (routine_noted { around with routine := methodKind method.name } scoping method).comp
      (routines_noted around scoping rest)

end

end Analysis

end Lox
