import Lox.Scope.Basic

/-!
The walk that finds the binding of every name. It follows the program in the order in which
names come into scope and goes on after an error.
-/

namespace Lox.Analysis

mutual

def expr (around : Surroundings) : Expr → Analysis → Analysis
  | .literal _, analysis => analysis
  | .grouping inner, analysis => expr around inner analysis
  | .unary _ _ operand, analysis => expr around operand analysis
  | .binary _ _ left right, analysis => expr around right (expr around left analysis)
  | .logical _ _ left right, analysis => expr around right (expr around left analysis)
  | .read id name, analysis =>
    let checked :=
      if analysis.isPending name.text then analysis.report .readInOwnInitializer name else analysis
    checked.recordDistance id name.text
  | .assign id name value, analysis => (expr around value analysis).recordDistance id name.text
  | .call callee _ arguments, analysis => exprs around arguments (expr around callee analysis)
  | .get object _, analysis => expr around object analysis
  | .set object _ value, analysis => expr around object (expr around value analysis)
  | .this id line, analysis =>
    match around.owner with
    | .none => analysis.report .thisOutsideClass ⟨"this", line⟩
    | _ => analysis.recordDistance id "this"
  | .super id line _, analysis =>
    match around.owner with
    | .none => analysis.report .superOutsideClass ⟨"super", line⟩
    | .base => analysis.report .superWithoutSuperclass ⟨"super", line⟩
    | .derived => analysis.recordDistance id "super"

def exprs (around : Surroundings) : List Expr → Analysis → Analysis
  | [], analysis => analysis
  | first :: rest, analysis => exprs around rest (expr around first analysis)

end

def expr? (around : Surroundings) (value : Option Expr) (analysis : Analysis) : Analysis :=
  match value with
  | some value => expr around value analysis
  | none => analysis

/-- Parameters are ready as soon as they are declared. -/
def parameters (names : List Name) (analysis : Analysis) : Analysis :=
  names.foldl (fun analysis name => (analysis.declare name).define name) analysis

/-- The kind of routine that a method is. -/
def methodKind (method : Name) : EnclosingRoutine :=
  if method.text = initializerName then .initializer else .method

/-- A `return` needs a routine around it, and one with a value no initializer. -/
def returnRules (around : Surroundings) (line : Nat) (value : Option Expr) (analysis : Analysis) :
    Analysis :=
  match around.routine, value with
  | .none, _ => analysis.report .returnAtTopLevel ⟨"return", line⟩
  | .initializer, some _ => analysis.report .valueFromInitializer ⟨"return", line⟩
  | _, _ => analysis

/-- The name of the superclass, which may not be that of the class, and the scope of `super`. -/
def openSuper (around : Surroundings) (name : Name) (superclass : Superclass)
    (analysis : Analysis) : Analysis :=
  let checked :=
    if superclass.name.text = name.text then analysis.report .selfInheritance superclass.name
    else analysis
  ((expr around superclass.toExpr checked).openScope).bind "super" true

mutual

def stmt (around : Surroundings) : Stmt → Analysis → Analysis
  | .expression value, analysis => expr around value analysis
  | .print value, analysis => expr around value analysis
  | .declareVar name initializer, analysis =>
    (expr? around initializer (analysis.declare name)).define name
  | .block body, analysis => (stmts around body analysis.openScope).closeScope
  | .ifThen condition consequent, analysis =>
    stmt around consequent (expr around condition analysis)
  | .ifElse condition consequent alternative, analysis =>
    stmt around alternative (stmt around consequent (expr around condition analysis))
  | .while condition body, analysis => stmt around body (expr around condition analysis)
  | .declareFunction decl, analysis =>
    routine { around with routine := .function } decl
      ((analysis.declare decl.name).define decl.name)
  | .return line value, analysis => expr? around value (returnRules around line value analysis)
  | .declareClass name superclass methods, analysis =>
    let named := (analysis.declare name).define name
    match superclass with
    | none =>
      (routines { around with owner := .base } methods
        (named.openScope.bind "this" true)).closeScope
    | some superclass =>
      (routines { around with owner := .derived } methods
        ((openSuper around name superclass named).openScope.bind "this" true)).closeScope.closeScope

def stmts (around : Surroundings) : List Stmt → Analysis → Analysis
  | [], analysis => analysis
  | first :: rest, analysis => stmts around rest (stmt around first analysis)

/-- The parameters and the body share one scope. -/
def routine (around : Surroundings) : Routine → Analysis → Analysis
  | ⟨_, names, body⟩, analysis =>
    (stmts around body (parameters names analysis.openScope)).closeScope

/-- The methods of a class, each with its own kind. -/
def routines (around : Surroundings) : List Routine → Analysis → Analysis
  | [], analysis => analysis
  | method :: rest, analysis =>
    routines around rest
      (routine { around with routine := methodKind method.name } method analysis)

end

end Analysis

/-- The distances of a program's names, or else every breach of the scope rules in it. -/
def resolve (program : List Stmt) : Except (List ScopeError) Distances :=
  let analysis := Analysis.stmts .topLevel program .start
  if analysis.errors.isEmpty then .ok analysis.distances else .error analysis.errors.toList

end Lox
