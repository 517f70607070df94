import Lox.Proofs.Scope.Joined

/-! A second analysis, which keeps in its state what the place that it has come to is nested in. Routines and
classes change that for what is inside them and put it back at their end, whatever has been reported. -/

namespace Lox

/-- The state of the analysis, together with the routine and the class that it is in. -/
structure Survey extends Analysis where
  around : Surroundings

namespace Survey

def start : Survey where
  toAnalysis := .start
  around := .topLevel

/-- A step that stays in the same routine and class. -/
def step (survey : Survey) (walk : Analysis → Analysis) : Survey :=
  { survey with toAnalysis := walk survey.toAnalysis }

mutual

def expr : Expr → Survey → Survey
  | .literal _, survey => survey
  | .grouping inner, survey => expr inner survey
  | .unary _ _ operand, survey => expr operand survey
  | .binary _ _ left right, survey => expr right (expr left survey)
  | .logical _ _ left right, survey => expr right (expr left survey)
  | .read id name, survey =>
    let checked :=
      if survey.isPending name.text then survey.step (·.report .readInOwnInitializer name) else survey
    checked.step (·.recordDistance id name.text)
  | .assign id name value, survey => (expr value survey).step (·.recordDistance id name.text)
  | .call callee _ arguments, survey => exprs arguments (expr callee survey)
  | .get object _, survey => expr object survey
  | .set object _ value, survey => expr object (expr value survey)
  | .this id line, survey =>
    match survey.around.owner with
    | .none => survey.step (·.report .thisOutsideClass ⟨"this", line⟩)
    | _ => survey.step (·.recordDistance id "this")
  | .super id line _, survey =>
    match survey.around.owner with
    | .none => survey.step (·.report .superOutsideClass ⟨"super", line⟩)
    | .base => survey.step (·.report .superWithoutSuperclass ⟨"super", line⟩)
    | .derived => survey.step (·.recordDistance id "super")

def exprs : List Expr → Survey → Survey
  | [], survey => survey
  | first :: rest, survey => exprs rest (expr first survey)

end

def expr? (value : Option Expr) (survey : Survey) : Survey :=
  match value with
  | some value => expr value survey
  | none => survey

/-- Enters a class, or leaves it for the class around it. -/
def inClass (owner : EnclosingClass) (survey : Survey) : Survey :=
  { survey with around := { survey.around with owner := owner } }

/-- Enters a routine, or leaves it for the routine around it. -/
def inRoutine (routine : EnclosingRoutine) (survey : Survey) : Survey :=
  { survey with around := { survey.around with routine := routine } }

/-- The superclass is read in the class that extends it, and the scope of `super` is opened. -/
def openSuper (name : Name) (superclass : Superclass) (survey : Survey) : Survey :=
  let checked :=
    if superclass.name.text = name.text then survey.step (·.report .selfInheritance superclass.name)
    else survey
  let read := expr superclass.toExpr (checked.inClass .derived)
  (read.step Analysis.openScope).step (·.bind "super" true)

mutual

def stmt : Stmt → Survey → Survey
  | .expression value, survey => expr value survey
  | .print value, survey => expr value survey
  | .declareVar name initializer, survey =>
    (expr? initializer (survey.step (·.declare name))).step (·.define name)
  | .block body, survey => (stmts body (survey.step Analysis.openScope)).step Analysis.closeScope
  | .ifThen condition consequent, survey => stmt consequent (expr condition survey)
  | .ifElse condition consequent alternative, survey =>
    stmt alternative (stmt consequent (expr condition survey))
  | .while condition body, survey => stmt body (expr condition survey)
  | .declareFunction decl, survey =>
    routine .function decl ((survey.step (·.declare decl.name)).step (·.define decl.name))
  | .return line value, survey =>
    expr? value (survey.step (Analysis.returnRules survey.around line value))
  | .declareClass name superclass methods, survey =>
    let enclosing := survey.around.owner
    let named := ((survey.inClass .base).step (·.declare name)).step (·.define name)
    match superclass with
    | none =>
      let opened := (named.step Analysis.openScope).step (·.bind "this" true)
      ((routines methods opened).step Analysis.closeScope).inClass enclosing
    | some superclass =>
      let opened := ((openSuper name superclass named).step Analysis.openScope).step (·.bind "this" true)
      (((routines methods opened).step Analysis.closeScope).step Analysis.closeScope).inClass enclosing

def stmts : List Stmt → Survey → Survey
  | [], survey => survey
  | first :: rest, survey => stmts rest (stmt first survey)

/-- A routine of a kind, in a scope that its parameters and its body share. -/
def routine (kind : EnclosingRoutine) : Routine → Survey → Survey
  | ⟨_, names, body⟩, survey =>
    let enclosing := survey.around.routine
    let opened := ((survey.inRoutine kind).step Analysis.openScope).step (Analysis.parameters names)
    ((stmts body opened).step Analysis.closeScope).inRoutine enclosing

def routines : List Routine → Survey → Survey
  | [], survey => survey
  | method :: rest, survey => routines rest (routine (Analysis.methodKind method.name) method survey)

end

/-- The verdict on a program, as the analysis gives it that keeps its surroundings in its state. -/
def resolve (program : List Stmt) : Verdict :=
  let survey := stmts program start
  if survey.errors.isEmpty then .ok survey.distances else .error survey.errors.toList

mutual

theorem expr_eq : (tree : Expr) → (survey : Survey) →
    expr tree survey = survey.step (Analysis.expr survey.around tree)
  | .literal _, _ => rfl
  | .grouping inner, survey => expr_eq inner survey
  | .unary _ _ operand, survey => expr_eq operand survey
  | .binary _ _ left right, survey | .logical _ _ left right, survey => by
    rw [expr, expr_eq left, expr_eq right]
    rfl
  | .read id name, survey => by
    rw [expr]
    cases pending : survey.isPending name.text <;> simp [step, Analysis.expr, pending]
  | .assign id name value, survey => by
    rw [expr, expr_eq value]
    rfl
  | .call callee _ arguments, survey => by
    rw [expr, expr_eq callee, exprs_eq arguments]
    rfl
  | .get object _, survey => expr_eq object survey
  | .set object _ value, survey => by
    rw [expr, expr_eq value, expr_eq object]
    rfl
  | .this id line, survey => by
    rw [expr]
    cases owner : survey.around.owner <;> simp [step, Analysis.expr, owner]
  | .super id line _, survey => by
    rw [expr]
    cases owner : survey.around.owner <;> simp [step, Analysis.expr, owner]

theorem exprs_eq : (trees : List Expr) → (survey : Survey) →
    exprs trees survey = survey.step (Analysis.exprs survey.around trees)
  | [], _ => rfl
  | first :: rest, survey => by
    rw [exprs, expr_eq first, exprs_eq rest]
    rfl

end

theorem expr?_eq (value : Option Expr) (survey : Survey) :
    expr? value survey = survey.step (Analysis.expr? survey.around value) := by
  cases value with
  | none => rfl
  | some value => exact expr_eq value survey

theorem openSuper_eq (name : Name) (superclass : Superclass) (survey : Survey) :
    openSuper name superclass survey =
      (survey.step (Analysis.openSuper survey.around name superclass)).inClass .derived := by
  rw [openSuper, expr_eq]
  -- The superclass is a name, and to read a name is the same in every class.
  by_cases same : superclass.name.text = name.text <;>
    simp [step, inClass, Analysis.openSuper, Superclass.toExpr, Analysis.expr, same]

mutual

theorem stmt_eq : (tree : Stmt) → (survey : Survey) →
    stmt tree survey = survey.step (Analysis.stmt survey.around tree)
  | .expression value, survey | .print value, survey => expr_eq value survey
  | .declareVar name initializer, survey => by
    rw [stmt, expr?_eq]
    rfl
  | .block body, survey => by
    rw [stmt, stmts_eq body]
    rfl
  | .ifThen condition consequent, survey => by
    rw [stmt, expr_eq, stmt_eq consequent]
    rfl
  | .ifElse condition consequent alternative, survey => by
    rw [stmt, expr_eq, stmt_eq consequent, stmt_eq alternative]
    rfl
  | .while condition body, survey => by
    rw [stmt, expr_eq, stmt_eq body]
    rfl
  | .declareFunction decl, survey => by
    rw [stmt, routine_eq]
    rfl
  | .return line value, survey => by
    rw [stmt, expr?_eq]
    rfl
  -- The class around is put back at the end, so both sides agree in their surroundings as well.
  | .declareClass name none methods, survey => by
    rw [stmt, routines_eq methods]
    rfl
  | .declareClass name (some superclass) methods, survey => by
    rw [stmt, routines_eq methods, openSuper_eq]
    rfl

theorem stmts_eq : (trees : List Stmt) → (survey : Survey) →
    stmts trees survey = survey.step (Analysis.stmts survey.around trees)
  | [], _ => rfl
  | first :: rest, survey => by
    rw [stmts, stmt_eq first, stmts_eq rest]
    rfl

theorem routine_eq (kind : EnclosingRoutine) : (tree : Routine) → (survey : Survey) →
    routine kind tree survey =
      survey.step (Analysis.routine { survey.around with routine := kind } tree)
  | ⟨_, names, body⟩, survey => by
    rw [routine, stmts_eq body]
    rfl

theorem routines_eq : (trees : List Routine) → (survey : Survey) →
    routines trees survey = survey.step (Analysis.routines survey.around trees)
  | [], _ => rfl
  | method :: rest, survey => by
    rw [routines, routine_eq, routines_eq rest]
    rfl

end

theorem resolve_eq (program : List Stmt) : resolve program = Lox.resolve program := by
  rw [resolve, stmts_eq]
  rfl

/-- What may become of the state: names become ready in the innermost scope, if there is one, and all else
around the place stays as it is. -/
structure Settles (names : List String) (before after : Survey) : Prop where
  depth : after.scopes.length = before.scopes.length
  outer : after.scopes.tail = before.scopes.tail
  inner : ∀ scope ∈ before.scopes.head?, ∃ scope' ∈ after.scopes.head?,
    ∀ name, scope'.find? name = if name ∈ names then some true else scope.find? name
  around : after.around = before.around

theorem stmt_settles (tree : Stmt) (survey : Survey) : Settles tree.declares survey (stmt tree survey) := by
  obtain ⟨notes, runs⟩ := Analysis.stmt_noted survey.around survey.scopes tree
  have scopes : (stmt tree survey).scopes = Scoping.bindAll tree.declares survey.scopes := by
    rw [stmt_eq]
    exact congrArg Analysis.scopes (runs survey.toAnalysis rfl)
  have around : (stmt tree survey).around = survey.around := by
    rw [stmt_eq]
    rfl
  cases start : survey.scopes with
  | nil =>
    rw [start, Scoping.bindAll_global] at scopes
    exact ⟨by rw [scopes, start], by rw [scopes, start], by simp [start], around⟩
  | cons inner outer =>
    obtain ⟨inner', bound, found⟩ := Scoping.bindAll_cons tree.declares inner outer
    rw [start, bound] at scopes
    refine ⟨by simp [scopes, start], by simp [scopes, start], ?_, around⟩
    rw [start, scopes]
    rintro _ ⟨⟩
    exact ⟨inner', rfl, found⟩

end Survey

/-- The analysis is balanced and can be made part by part. Whatever the state and whatever is reported, a
statement leaves the scopes, the routine and the class around it as they were, but for the names that it
declares, which are ready in the innermost scope. Hence the verdict on a program is the verdicts on its parts
put together. -/
theorem resolve_balanced :
    (∀ tree survey, Survey.Settles (Stmt.declares tree) survey (Survey.stmt tree survey)) ∧
    (∀ program, Survey.resolve program = resolve program) ∧
    ∀ body others, Verdict.Joins (resolve body) (resolve others) (resolve (body ++ others)) :=
  ⟨Survey.stmt_settles, Survey.resolve_eq, resolve_joins⟩

end Lox
