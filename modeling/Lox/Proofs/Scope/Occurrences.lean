import Lox.Proofs.Scope.Sites
import Lox.Proofs.Tree.Ids
import Lox.Proofs.Tree.Regular

/-! Where the names in a program occur. The position of a name tells the scopes around it, each of them
with the names that are declared there before it. -/

namespace Lox

/-- The names declared so far in each scope around a place, the innermost scope first. The global
scope is not among them. -/
abbrev Levels := List (List String)

namespace Levels

/-- Declares names in the innermost scope. What is declared in the global scope is not kept. -/
def declare (names : List String) : Levels → Levels
  | [] => []
  | inner :: outer => (names ++ inner) :: outer

@[simp] theorem declare_nil (levels : Levels) : levels.declare [] = levels := by
  cases levels <;> rfl

/-- The nearest scope that declares a name lies outside of so many others. -/
structure Nearest (levels : Levels) (name : String) (distance : Nat) : Prop where
  declares : ∃ names, levels[distance]? = some names ∧ name ∈ names
  nearest : ∀ closer < distance, ∀ names, levels[closer]? = some names → name ∉ names

theorem not_nearest_nil (name : String) (distance : Nat) : ¬ Nearest [] name distance := by
  rintro ⟨⟨names, found, _⟩, _⟩
  cases found

theorem nearest_cons_mem {inner : List String} (known : name ∈ inner) :
    Nearest (inner :: outer) name distance ↔ distance = 0 := by
  constructor
  · rintro ⟨_, nearest⟩
    rcases distance with _ | distance
    · rfl
    · exact absurd known (nearest 0 (Nat.succ_pos _) inner rfl)
  · rintro rfl
    exact ⟨⟨inner, rfl, known⟩, nofun⟩

theorem nearest_cons_not_mem {inner : List String} (unknown : name ∉ inner) :
    Nearest (inner :: outer) name distance ↔
      ∃ closer, distance = closer + 1 ∧ Nearest outer name closer := by
  constructor
  · rintro ⟨⟨names, found, known⟩, nearest⟩
    rcases distance with _ | distance
    · cases found
      exact absurd known unknown
    · exact ⟨distance, rfl, ⟨names, found, known⟩, fun closer less =>
        nearest (closer + 1) (Nat.succ_lt_succ less)⟩
  · rintro ⟨closer, rfl, declares, nearest⟩
    refine ⟨declares, fun other less names found => ?_⟩
    rcases other with _ | other
    · cases found
      exact unknown
    · exact nearest other (Nat.lt_of_succ_lt_succ less) names found

end Levels

/-- A node that refers to a variable, or to one of the two bindings that only classes make. -/
inductive Reference where
  | read (id : NodeId) (name : Name)
  | assign (id : NodeId) (name : Name)
  | this (id : NodeId)
  | super (id : NodeId)

namespace Reference

def id : Reference → NodeId
  | read id _ | assign id _ | .this id | super id => id

def name : Reference → String
  | read _ name | assign _ name => name.text
  | this _ => "this"
  | super _ => "super"

end Reference

/-- Where an expression stands, and the local variable to whose initializer it belongs. -/
structure Position where
  levels : Levels
  initializing : Option String

namespace Position

/-- Outside of the initializers of local variables. -/
def settled (levels : Levels) : Position := ⟨levels, none⟩

/-- In the initializer of a variable, whose name is declared from there on. -/
def inInitializer (levels : Levels) (name : Name) : Position :=
  ⟨levels.declare [name.text], levels.head?.map fun _ => name.text⟩

theorem inInitializer_subset (levels : Levels) (name : Name) :
    (inInitializer levels name).initializing.toList ⊆ [name.text] := by
  cases levels <;> simp [inInitializer]

end Position

/-- A reference in its position. -/
structure Occurrence where
  position : Position
  reference : Reference

namespace Occurrence

def id (occurrence : Occurrence) : NodeId := occurrence.reference.id

/-- The number of scopes within the nearest one that declares the name before it occurs. -/
def Address (occurrence : Occurrence) : Nat → Prop :=
  occurrence.position.levels.Nearest occurrence.reference.name

end Occurrence

mutual

/-- The references in an expression. That of an assignment comes after its value. -/
def Expr.references : Expr → List Reference
  | .literal _ => []
  | .grouping inner => inner.references
  | .unary _ _ operand => operand.references
  | .binary _ _ left right | .logical _ _ left right => left.references ++ right.references
  | .read id name => [.read id name]
  | .assign id name value => value.references ++ [.assign id name]
  | .call callee _ arguments => callee.references ++ Expr.allReferences arguments
  | .get object _ => object.references
  | .set object _ value => object.references ++ value.references
  | .this id _ => [.this id]
  | .super id _ _ => [.super id]

def Expr.allReferences : List Expr → List Reference
  | [] => []
  | first :: rest => first.references ++ Expr.allReferences rest

end

def Expr.occurrences (position : Position) (value : Expr) : List Occurrence :=
  value.references.map (⟨position, ·⟩)

def Expr.occurrences? (position : Position) (value : Option Expr) : List Occurrence :=
  value.elim [] (Expr.occurrences position)

mutual

/-- The occurrences of names in a statement. The name of a routine or a class is declared before all of
its parts. -/
def Stmt.occurrences (levels : Levels) : Stmt → List Occurrence
  | .expression value | .print value => value.occurrences (.settled levels)
  | .declareVar name initializer => Expr.occurrences? (.inInitializer levels name) initializer
  | .block body => Stmt.allOccurrences ([] :: levels) body
  | .ifThen condition consequent =>
    condition.occurrences (.settled levels) ++ consequent.occurrences levels
  | .ifElse condition consequent alternative =>
    condition.occurrences (.settled levels) ++ (consequent.occurrences levels ++
      alternative.occurrences (levels.declare consequent.declares))
  | .while condition body => condition.occurrences (.settled levels) ++ body.occurrences levels
  | .declareFunction routine => routine.occurrences (levels.declare [routine.name.text])
  | .return _ value => Expr.occurrences? (.settled levels) value
  | .declareClass name none methods =>
    Routine.allOccurrences (["this"] :: levels.declare [name.text]) methods
  | .declareClass name (some superclass) methods =>
    superclass.toExpr.occurrences (.settled (levels.declare [name.text])) ++
      Routine.allOccurrences (["this"] :: ["super"] :: levels.declare [name.text]) methods

def Stmt.allOccurrences (levels : Levels) : List Stmt → List Occurrence
  | [] => []
  | first :: rest =>
    first.occurrences levels ++ Stmt.allOccurrences (levels.declare first.declares) rest

/-- The parameters and the body of a routine share one scope. -/
def Routine.occurrences (levels : Levels) : Routine → List Occurrence
  | ⟨_, parameters, body⟩ => Stmt.allOccurrences (parameters.map (·.text) :: levels) body

def Routine.allOccurrences (levels : Levels) : List Routine → List Occurrence
  | [] => []
  | first :: rest => first.occurrences levels ++ Routine.allOccurrences levels rest

end

/-- The occurrences of names in a program, which stands in the global scope. -/
def programOccurrences (body : List Stmt) : List Occurrence :=
  Stmt.allOccurrences [] body

/-- Branches and loop bodies declare nothing. -/
theorem Stmt.declares_eq : (stmt : Stmt) → stmt.Regular →
    stmt.declares = stmt.introduces.elim [] fun name => [name.text]
  | .ifThen _ consequent, ⟨_, regular, plain⟩ => by
    have same := consequent.declares_eq regular
    rwa [plain] at same
  | .ifElse _ consequent alternative, ⟨_, ⟨regular, plain⟩, regular', plain'⟩ => by
    have consequent := consequent.declares_eq regular
    have alternative := alternative.declares_eq regular'
    rw [plain] at consequent
    rw [plain'] at alternative
    simp [declares, introduces, consequent, alternative]
  | .while _ body, ⟨_, regular, plain⟩ => by
    have same := body.declares_eq regular
    rwa [plain] at same
  | .expression _, _ | .print _, _ | .block _, _ | .return _ _, _ | .declareVar _ _, _
  | .declareFunction _, _ | .declareClass _ _ _, _ => rfl

section Ids

mutual

theorem Expr.references_id : (value : Expr) → value.references.map (·.id) = value.ids
  | .literal _ | .read _ _ | .this _ _ | .super _ _ _ => rfl
  | .grouping inner => inner.references_id
  | .unary _ _ operand => operand.references_id
  | .binary _ _ left right | .logical _ _ left right => by
    simp [references, ids, left.references_id, right.references_id]
  | .assign id name value => by
    have own : (Reference.assign id name).id = id := rfl
    simp [references, ids, value.references_id, own]
  | .call callee _ arguments => by
    simp [references, ids, callee.references_id, Expr.allReferences_id arguments]
  | .get object _ => object.references_id
  | .set object _ value => by
    simp [references, ids, object.references_id, value.references_id]

theorem Expr.allReferences_id : (values : List Expr) →
    (Expr.allReferences values).map (·.id) = Expr.allIds values
  | [] => rfl
  | first :: rest => by
    simp [allReferences, allIds, first.references_id, Expr.allReferences_id rest]

end

theorem Expr.occurrences_id (position : Position) (value : Expr) :
    (value.occurrences position).map (·.id) = value.ids := by
  rw [occurrences, List.map_map, ← value.references_id]
  rfl

theorem Expr.occurrences?_id (position : Position) (value : Option Expr) :
    (Expr.occurrences? position value).map (·.id) = Expr.ids? value := by
  cases value with
  | none => rfl
  | some value => exact value.occurrences_id position

mutual

theorem Stmt.occurrences_id (levels : Levels) : (stmt : Stmt) →
    (stmt.occurrences levels).map (·.id) = stmt.ids
  | .expression value | .print value => value.occurrences_id _
  | .declareVar _ initializer => Expr.occurrences?_id _ initializer
  | .block body => Stmt.allOccurrences_id _ body
  | .ifThen condition consequent => by
    simp [Stmt.occurrences, Stmt.ids, condition.occurrences_id, consequent.occurrences_id levels]
  | .ifElse condition consequent alternative => by
    simp [Stmt.occurrences, Stmt.ids, condition.occurrences_id, consequent.occurrences_id levels,
      alternative.occurrences_id (levels.declare consequent.declares)]
  | .while condition body => by
    simp [Stmt.occurrences, Stmt.ids, condition.occurrences_id, body.occurrences_id levels]
  | .declareFunction routine => routine.occurrences_id _
  | .return _ value => Expr.occurrences?_id _ value
  | .declareClass _ none methods => by
    simp [Stmt.occurrences, Stmt.ids, Superclass.ids?, Routine.allOccurrences_id _ methods]
  | .declareClass name (some superclass) methods => by
    simp [Stmt.occurrences, Stmt.ids, Superclass.ids?, Expr.occurrences_id, Superclass.toExpr, Expr.ids,
      Routine.allOccurrences_id _ methods]

theorem Stmt.allOccurrences_id (levels : Levels) : (body : List Stmt) →
    (Stmt.allOccurrences levels body).map (·.id) = Stmt.allIds body
  | [] => rfl
  | first :: rest => by
    simp [Stmt.allOccurrences, Stmt.allIds, first.occurrences_id levels,
      Stmt.allOccurrences_id (levels.declare first.declares) rest]

theorem Routine.occurrences_id (levels : Levels) : (routine : Routine) →
    (routine.occurrences levels).map (·.id) = routine.ids
  | ⟨_, _, body⟩ => Stmt.allOccurrences_id _ body

theorem Routine.allOccurrences_id (levels : Levels) : (routines : List Routine) →
    (Routine.allOccurrences levels routines).map (·.id) = Routine.allIds routines
  | [] => rfl
  | first :: rest => by
    simp [Routine.allOccurrences, Routine.allIds, first.occurrences_id levels,
      Routine.allOccurrences_id levels rest]

end

end Ids

end Lox
