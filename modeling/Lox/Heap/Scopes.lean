import Lox.Bindings
import Lox.Value

/-!
The scopes of a run. A scope is nested in an older one and is never removed, and it is reached from
an inner scope by name, in the nearest scope that binds it, or by the number of links between them.
-/

namespace Lox

structure Scope where
  bindings : Bindings Value
  enclosing : Option ScopeRef
deriving Inhabited

/-- All scopes created so far, in the order of their creation. -/
structure Scopes where
  cells : Array Scope

namespace Scopes

def empty : Scopes := ⟨#[]⟩

/-- The reference that the next new scope gets. -/
def next (scopes : Scopes) : ScopeRef := ⟨scopes.cells.size⟩

/-- Creates a scope under the reference `next`. -/
def push (scopes : Scopes) (bindings : Bindings Value) (enclosing : Option ScopeRef) : Scopes :=
  ⟨scopes.cells.push ⟨bindings, enclosing⟩⟩

def enclosing? (scopes : Scopes) (scope : ScopeRef) : Option ScopeRef :=
  scopes.cells[scope.index]?.bind (·.enclosing)

/-- The value of a name in one scope. -/
def valueIn? (scopes : Scopes) (scope : ScopeRef) (name : String) : Option Value :=
  scopes.cells[scope.index]?.bind (·.bindings.find? name)

/-- Introduces a name in one scope, or gives it a new value there. -/
def define (scopes : Scopes) (scope : ScopeRef) (name : String) (value : Value) : Scopes :=
  ⟨scopes.cells.modify scope.index fun cell =>
    { cell with bindings := cell.bindings.insert name value }⟩

/-- The scope a number of links outward. -/
def ancestor? (scopes : Scopes) (scope : ScopeRef) : (distance : Nat) → Option ScopeRef
  | 0 => some scope
  | distance + 1 => (scopes.enclosing? scope).bind (scopes.ancestor? · distance)

def nearestWithin? (scopes : Scopes) (name : String) :
    (bound : Nat) → ScopeRef → Option ScopeRef
  | 0, _ => none
  | bound + 1, scope =>
    if (scopes.valueIn? scope name).isSome then some scope
    else (scopes.enclosing? scope).bind (scopes.nearestWithin? name bound)

/-- The nearest scope outward that binds a name. The way outward visits no scope twice, so it is no
longer than there are scopes. -/
def nearest? (scopes : Scopes) (scope : ScopeRef) (name : String) : Option ScopeRef :=
  scopes.nearestWithin? name scopes.cells.size scope

/-- The value of a name in the nearest scope that binds it. -/
def lookup? (scopes : Scopes) (scope : ScopeRef) (name : String) : Option Value :=
  (scopes.nearest? scope name).bind (scopes.valueIn? · name)

/-- Gives a name a new value in the nearest scope that binds it. -/
def assign? (scopes : Scopes) (scope : ScopeRef) (name : String) (value : Value) : Option Scopes :=
  (scopes.nearest? scope name).map (scopes.define · name value)

/-- The value of a name in the scope a number of links outward, and in no other. -/
def lookupAt? (scopes : Scopes) (scope : ScopeRef) (distance : Nat) (name : String) :
    Option Value :=
  (scopes.ancestor? scope distance).bind (scopes.valueIn? · name)

/-- Defines a name in the scope a number of links outward. -/
def assignAt? (scopes : Scopes) (scope : ScopeRef) (distance : Nat) (name : String)
    (value : Value) : Option Scopes :=
  (scopes.ancestor? scope distance).map (scopes.define · name value)

theorem cells_define (scopes : Scopes) (scope other : ScopeRef) (name : String) (value : Value) :
    (scopes.define scope name value).cells[other.index]? =
      if scope = other then
        scopes.cells[other.index]?.map fun cell =>
          { cell with bindings := cell.bindings.insert name value }
      else scopes.cells[other.index]? := by
  obtain ⟨index⟩ := scope
  obtain ⟨position⟩ := other
  by_cases same : index = position
  · subst same
    simp [define, Array.getElem?_modify]
  · simp [define, Array.getElem?_modify, same]

/-- Writing a name never changes how scopes are nested. -/
@[simp] theorem enclosing?_define (scopes : Scopes) (scope other : ScopeRef) (name : String)
    (value : Value) :
    (scopes.define scope name value).enclosing? other = scopes.enclosing? other := by
  unfold enclosing?
  rw [cells_define]
  split
  · cases scopes.cells[other.index]? <;> rfl
  · rfl

@[simp] theorem ancestor?_define (scopes : Scopes) (scope other : ScopeRef) (name : String)
    (value : Value) (distance : Nat) :
    (scopes.define scope name value).ancestor? other distance =
      scopes.ancestor? other distance := by
  induction distance generalizing other with
  | zero => rfl
  | succ distance ih =>
    simp only [ancestor?, enclosing?_define]
    exact congrArg _ (funext ih)

/-- Writing a name in an existing scope changes that name in that scope and nothing else. -/
theorem valueIn?_define (scopes : Scopes) (scope other : ScopeRef) (name wanted : String)
    (value : Value) (known : scope.index < scopes.cells.size) :
    (scopes.define scope name value).valueIn? other wanted =
      if scope = other ∧ wanted = name then some value else scopes.valueIn? other wanted := by
  unfold valueIn?
  rw [cells_define]
  by_cases here : scope = other
  · subst here
    simp only [if_pos, true_and, Array.getElem?_eq_getElem known, Option.map_some,
      Option.bind_some]
    exact Bindings.find?_insert ..
  · simp [here]

/-- A new scope is reached by the reference that was next, and older ones stay as they are. -/
theorem cells_push (scopes : Scopes) (bindings : Bindings Value) (enclosing : Option ScopeRef)
    (other : ScopeRef) :
    (scopes.push bindings enclosing).cells[other.index]? =
      if other = scopes.next then some ⟨bindings, enclosing⟩ else scopes.cells[other.index]? := by
  obtain ⟨index⟩ := other
  simp only [push, next, Array.getElem?_push, ScopeRef.mk.injEq]

end Scopes

end Lox
