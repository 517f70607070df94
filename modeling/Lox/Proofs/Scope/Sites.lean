import Lox.Scope.Resolve

/-! The rules of scopes. They are about the places where names and keywords are written and about what
these are nested in, in whatever order and with whatever state one goes through a program. -/

namespace Lox

/-- What a place is nested in: the names declared before it in the innermost scope, unless that is the
global one, the local variable to whose initializer it belongs, and the routine and class around it. -/
structure Context where
  scope : Option (List String)
  initializing : Option String
  around : Surroundings

namespace Context

def topLevel : Context := ⟨none, none, .topLevel⟩

/-- At the start of a new scope. -/
def inside (around : Surroundings) : Context := ⟨some [], none, around⟩

/-- After declarations, which the global scope does not keep. -/
def declare (context : Context) (names : List String) : Context :=
  { context with scope := context.scope.map (names ++ ·) }

@[simp] theorem declare_nil (context : Context) : context.declare [] = context := by
  simp [declare]

@[simp] theorem declare_declare (context : Context) (names others : List String) :
    (context.declare names).declare others = context.declare (others ++ names) := by
  simp [declare, Function.comp_def]

/-- In the initializer of a variable, which matters if the variable is a local one. -/
def inInitializer (context : Context) (name : Name) : Context :=
  { context.declare [name.text] with initializing := context.scope.map fun _ => name.text }

end Context

/-- The names that a statement declares in the scope in which it stands. What is declared in a block or
in a body is not declared around it. -/
def Stmt.declares : Stmt → List String
  | .declareVar name _ | .declareClass name _ _ => [name.text]
  | .declareFunction routine => [routine.name.text]
  | .ifThen _ consequent => consequent.declares
  | .ifElse _ consequent alternative => alternative.declares ++ consequent.declares
  | .while _ body => body.declares
  | .expression _ | .print _ | .block _ | .return _ _ => []

def Stmt.allDeclares : List Stmt → List String
  | [] => []
  | first :: rest => Stmt.allDeclares rest ++ first.declares

/-- A name or keyword to which a rule of scopes applies. -/
inductive Mention where
  | declaration (name : Name)
  | read (name : Name)
  | return (line : Nat) (valued : Bool)
  | this (line : Nat)
  | super (line : Nat)
  | inheritance (heir superclass : Name)

/-- The name or keyword itself. -/
def Mention.token : Mention → Name
  | declaration name | read name => name
  | .return line _ => ⟨"return", line⟩
  | this line => ⟨"this", line⟩
  | super line => ⟨"super", line⟩
  | inheritance _ superclass => superclass

structure Site where
  place : Context
  mention : Mention

namespace Site

/-- The breaches of the rules of scopes. -/
inductive Breaks : Site → ScopeFault → Prop where
  | redeclaration (inner : context.scope = some names) (known : name.text ∈ names) :
      Breaks ⟨context, .declaration name⟩ .alreadyDeclared
  | ownInitializer (own : context.initializing = some name.text) :
      Breaks ⟨context, .read name⟩ .readInOwnInitializer
  | strayReturn (outside : context.around.routine = .none) :
      Breaks ⟨context, .return line valued⟩ .returnAtTopLevel
  | valuedReturn (inside : context.around.routine = .initializer) :
      Breaks ⟨context, .return line true⟩ .valueFromInitializer
  | strayThis (outside : context.around.owner = .none) :
      Breaks ⟨context, .this line⟩ .thisOutsideClass
  | straySuper (outside : context.around.owner = .none) :
      Breaks ⟨context, .super line⟩ .superOutsideClass
  | baseSuper (inside : context.around.owner = .base) :
      Breaks ⟨context, .super line⟩ .superWithoutSuperclass
  | selfInheritance (same : superclass.text = heir.text) :
      Breaks ⟨context, .inheritance heir superclass⟩ .selfInheritance

/-- The rule that a site breaks, of which there is one at most. -/
def fault? (site : Site) : Option ScopeFault :=
  match site.mention with
  | .declaration name =>
    if ∃ names ∈ site.place.scope, name.text ∈ names then some .alreadyDeclared else none
  | .read name =>
    if site.place.initializing = some name.text then some .readInOwnInitializer else none
  | .return _ valued =>
    match site.place.around.routine, valued with
    | .none, _ => some .returnAtTopLevel
    | .initializer, true => some .valueFromInitializer
    | _, _ => none
  | .this _ => if site.place.around.owner = .none then some .thisOutsideClass else none
  | .super _ =>
    match site.place.around.owner with
    | .none => some .superOutsideClass
    | .base => some .superWithoutSuperclass
    | .derived => none
  | .inheritance heir superclass =>
    if superclass.text = heir.text then some .selfInheritance else none

theorem breaks_of_fault? {site : Site} (found : site.fault? = some fault) : site.Breaks fault := by
  obtain ⟨place, mention⟩ := site
  unfold fault? at found
  cases mention with
  | declaration name =>
    obtain ⟨⟨names, inner, known⟩, ⟨⟩⟩ := Option.ite_none_right_eq_some.mp found
    exact .redeclaration inner known
  | read name =>
    obtain ⟨own, ⟨⟩⟩ := Option.ite_none_right_eq_some.mp found
    exact .ownInitializer own
  | «return» line valued =>
    dsimp only at found
    split at found
    · rename_i outside
      cases found
      exact .strayReturn outside
    · rename_i inside
      cases found
      exact .valuedReturn inside
    · cases found
  | this line =>
    obtain ⟨outside, ⟨⟩⟩ := Option.ite_none_right_eq_some.mp found
    exact .strayThis outside
  | super line =>
    dsimp only at found
    split at found
    · rename_i outside
      cases found
      exact .straySuper outside
    · rename_i inside
      cases found
      exact .baseSuper inside
    · cases found
  | inheritance heir superclass =>
    obtain ⟨same, ⟨⟩⟩ := Option.ite_none_right_eq_some.mp found
    exact .selfInheritance same

theorem fault?_eq_some_iff {site : Site} : site.fault? = some fault ↔ site.Breaks fault := by
  refine ⟨breaks_of_fault?, fun breaks => ?_⟩
  cases breaks with
  | redeclaration inner known => exact if_pos ⟨_, inner, known⟩
  | ownInitializer own => exact if_pos own
  | strayReturn outside => simp [fault?, outside]
  | valuedReturn inside => simp [fault?, inside]
  | strayThis outside => exact if_pos outside
  | straySuper outside => simp [fault?, outside]
  | baseSuper inside => simp [fault?, inside]
  | selfInheritance same => exact if_pos same

/-- The error at a site that breaks a rule. -/
def error? (site : Site) : Option ScopeError :=
  site.fault?.map fun fault => ⟨fault, site.mention.token⟩

end Site

namespace Context

/-- Sites in the same context. -/
def sites (context : Context) (mentions : List Mention) : List Site :=
  mentions.map (⟨context, ·⟩)

/-- The names of parameters, each of which is declared after those before it. -/
def parameterSites (context : Context) : List Name → List Site
  | [] => []
  | name :: rest => ⟨context, .declaration name⟩ :: (context.declare [name.text]).parameterSites rest

end Context

mutual

/-- What an expression mentions. Of an assignment to a property the value comes first. -/
def Expr.mentions : Expr → List Mention
  | .literal _ => []
  | .grouping inner => inner.mentions
  | .unary _ _ operand => operand.mentions
  | .binary _ _ left right | .logical _ _ left right => left.mentions ++ right.mentions
  | .read _ name => [.read name]
  | .assign _ _ value => value.mentions
  | .call callee _ arguments => callee.mentions ++ Expr.allMentions arguments
  | .get object _ => object.mentions
  | .set object _ value => value.mentions ++ object.mentions
  | .this _ line => [.this line]
  | .super _ line _ => [.super line]

def Expr.allMentions : List Expr → List Mention
  | [] => []
  | first :: rest => first.mentions ++ Expr.allMentions rest

end

def Expr.mentions? (value : Option Expr) : List Mention :=
  value.elim [] Expr.mentions

/-- What the clause of a class for its superclass mentions. -/
def Superclass.mentions (heir : Name) (superclass : Superclass) : List Mention :=
  [.inheritance heir superclass.name, .read superclass.name]

mutual

/-- The sites in a statement, in the order in which one goes through it. -/
def Stmt.sites (context : Context) : Stmt → List Site
  | .expression value | .print value => context.sites value.mentions
  | .declareVar name initializer =>
    ⟨context, .declaration name⟩ :: (context.inInitializer name).sites (Expr.mentions? initializer)
  | .block body => Stmt.allSites (.inside context.around) body
  | .ifThen condition consequent => context.sites condition.mentions ++ consequent.sites context
  | .ifElse condition consequent alternative =>
    context.sites condition.mentions ++ consequent.sites context ++
      alternative.sites (context.declare consequent.declares)
  | .while condition body => context.sites condition.mentions ++ body.sites context
  | .declareFunction routine =>
    ⟨context, .declaration routine.name⟩ :: routine.sites { context.around with routine := .function }
  | .return line value =>
    ⟨context, .return line value.isSome⟩ :: context.sites (Expr.mentions? value)
  | .declareClass name none methods =>
    ⟨context, .declaration name⟩ :: Routine.allSites { context.around with owner := .base } methods
  | .declareClass name (some superclass) methods =>
    ⟨context, .declaration name⟩ ::
      (context.declare [name.text]).sites (superclass.mentions name) ++
      Routine.allSites { context.around with owner := .derived } methods

def Stmt.allSites (context : Context) : List Stmt → List Site
  | [] => []
  | first :: rest => first.sites context ++ Stmt.allSites (context.declare first.declares) rest

/-- The sites in a routine, of which the surroundings tell its kind. Its parameters and its body share
one scope. -/
def Routine.sites (around : Surroundings) : Routine → List Site
  | ⟨_, parameters, body⟩ =>
    (Context.inside around).parameterSites parameters ++
      Stmt.allSites ((Context.inside around).declare (parameters.map (·.text)).reverse) body

/-- The sites in the methods of a class, of which those named `init` are initializers. -/
def Routine.allSites (around : Surroundings) : List Routine → List Site
  | [] => []
  | method :: rest =>
    let kind := if method.name.text = "init" then .initializer else .method
    method.sites { around with routine := kind } ++ Routine.allSites around rest

end

/-- The sites in a program. -/
def programSites (body : List Stmt) : List Site :=
  Stmt.allSites .topLevel body

end Lox
