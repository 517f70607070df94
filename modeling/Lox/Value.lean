import Lox.Tree.Basic

/-!
Values. Scopes and objects live in a heap and values refer to them, so two references are equal
exactly if they refer to the same object. Numbers are equal exactly if they are the same number:
there is one not-a-number, and the two zeros differ.
-/

namespace Lox

structure ScopeRef where
  index : Nat
deriving DecidableEq, Inhabited

structure FunctionRef where
  index : Nat
deriving DecidableEq, Inhabited

structure ClassRef where
  index : Nat
deriving DecidableEq, Inhabited

structure InstanceRef where
  index : Nat
deriving DecidableEq, Inhabited

/-- What can be called: the function that reads the clock, declared functions and classes. -/
inductive Callable where
  | clock
  | ofFunction (ref : FunctionRef)
  | ofClass (ref : ClassRef)
deriving DecidableEq

inductive Value where
  | nil
  | bool (value : Bool)
  | number (value : Float)
  | string (contents : String)
  | callable (callee : Callable)
  | object (ref : InstanceRef)
deriving DecidableEq

namespace Value

/-- Every value but `nil` and `false` counts as true. -/
def isTruthy : Value → Bool
  | .nil | .bool false => false
  | _ => true

def ofLiteral : Literal → Value
  | .number value => .number value
  | .string contents => .string contents
  | .bool value => .bool value
  | .nil => .nil

end Value

end Lox
