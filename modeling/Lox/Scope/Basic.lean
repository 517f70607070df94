import Lox.Bindings
import Lox.Tree.Basic
import Std.Data.TreeMap

/-!
What the analysis of scopes works on: the scopes around a place in the program, the table of
distances, and the errors it reports. Global names belong to no scope.
-/

namespace Lox

/-- The number of scopes between an expression and the binding it refers to. An expression without
an entry refers to a global. -/
abbrev Distances := Std.TreeMap NodeId Nat

inductive ScopeFault where
  | readInOwnInitializer
  | alreadyDeclared
  | returnAtTopLevel
  | valueFromInitializer
  | thisOutsideClass
  | superOutsideClass
  | superWithoutSuperclass
  | selfInheritance
deriving DecidableEq

/-- A breach of the scope rules at a name or keyword. -/
structure ScopeError where
  fault : ScopeFault
  name : Name
deriving DecidableEq

def ScopeFault.message : ScopeFault → String
  | readInOwnInitializer => "Can't read local variable in its own initializer."
  | alreadyDeclared => "Already a variable with this name in this scope."
  | returnAtTopLevel => "Can't return from top-level code."
  | valueFromInitializer => "Can't return a value from an initializer."
  | thisOutsideClass => "Can't use 'this' outside of a class."
  | superOutsideClass => "Can't use 'super' outside of a class."
  | superWithoutSuperclass => "Can't use 'super' in a class with no superclass."
  | selfInheritance => "A class can't inherit from itself."

/-- The routine whose body is nearest around a place. -/
inductive EnclosingRoutine where
  | none
  | function
  | method
  | initializer
deriving DecidableEq

/-- The class whose body is nearest around a place. -/
inductive EnclosingClass where
  | none
  | base
  | derived
deriving DecidableEq

/-- What a place is nested in. -/
structure Surroundings where
  routine : EnclosingRoutine
  owner : EnclosingClass

namespace Surroundings

def topLevel : Surroundings := ⟨.none, .none⟩

end Surroundings

/-- The state of the analysis. A scope tells for each name it declares whether the name is ready to
be read, and the innermost scope comes first. -/
structure Analysis where
  scopes : List (Bindings Bool)
  distances : Distances
  errors : Array ScopeError

namespace Analysis

def start : Analysis := ⟨[], ∅, #[]⟩

def report (analysis : Analysis) (fault : ScopeFault) (name : Name) : Analysis :=
  { analysis with errors := analysis.errors.push ⟨fault, name⟩ }

def openScope (analysis : Analysis) : Analysis :=
  { analysis with scopes := .empty :: analysis.scopes }

def closeScope (analysis : Analysis) : Analysis :=
  { analysis with scopes := analysis.scopes.tail }

/-- Binds a name in the innermost scope, if there is one. -/
def bind (analysis : Analysis) (name : String) (ready : Bool) : Analysis :=
  match analysis.scopes with
  | [] => analysis
  | inner :: outer => { analysis with scopes := inner.insert name ready :: outer }

/-- Introduces a name that cannot be read yet. A scope may introduce a name only once. -/
def declare (analysis : Analysis) (name : Name) : Analysis :=
  let declared := analysis.bind name.text false
  match analysis.scopes with
  | [] => declared
  | inner :: _ =>
    if inner.contains name.text then declared.report .alreadyDeclared name else declared

/-- Makes a declared name ready. -/
def define (analysis : Analysis) (name : Name) : Analysis :=
  analysis.bind name.text true

/-- Records the distance to the nearest scope that declares a name. -/
def recordDistance (analysis : Analysis) (id : NodeId) (name : String) : Analysis :=
  match analysis.scopes.findIdx? (·.contains name) with
  | some distance => { analysis with distances := analysis.distances.insert id distance }
  | none => analysis

/-- Whether the innermost scope declares a name that is not ready yet. -/
def isPending (analysis : Analysis) (name : String) : Bool :=
  match analysis.scopes with
  | [] => false
  | inner :: _ => inner.find? name == some false

end Analysis

end Lox
