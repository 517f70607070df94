import Lox.Tree.Basic

/-! Where code refers to the present instance. Of the classes that are declared inside some code the
methods are not part of it in this regard, since they run on instances of their own. -/

namespace Lox

mutual

/-- The places of `this` and `super` in an expression. -/
def Expr.receivers : Expr → List Expr
  | .literal _ => []
  | .grouping inner => inner.receivers
  | .unary _ _ operand => operand.receivers
  | .binary _ _ left right => left.receivers ++ right.receivers
  | .logical _ _ left right => left.receivers ++ right.receivers
  | .read _ _ => []
  | .assign _ _ value => value.receivers
  | .call callee _ arguments => callee.receivers ++ Expr.allReceivers arguments
  | .get object _ => object.receivers
  | .set object _ value => object.receivers ++ value.receivers
  | .this id line => [.this id line]
  | .super id line method => [.super id line method]

def Expr.allReceivers : List Expr → List Expr
  | [] => []
  | first :: rest => first.receivers ++ Expr.allReceivers rest

end

mutual

def Stmt.receivers : Stmt → List Expr
  | .expression value => value.receivers
  | .print value => value.receivers
  | .declareVar _ none => []
  | .declareVar _ (some initializer) => initializer.receivers
  | .block body => Stmt.allReceivers body
  | .ifThen condition consequent => condition.receivers ++ consequent.receivers
  | .ifElse condition consequent alternative =>
    condition.receivers ++ (consequent.receivers ++ alternative.receivers)
  | .while condition body => condition.receivers ++ body.receivers
  | .declareFunction routine => routine.receivers
  | .return _ none => []
  | .return _ (some value) => value.receivers
  | .declareClass _ _ _ => []

def Stmt.allReceivers : List Stmt → List Expr
  | [] => []
  | first :: rest => first.receivers ++ Stmt.allReceivers rest

def Routine.receivers : Routine → List Expr
  | ⟨_, _, body⟩ => Stmt.allReceivers body

end

end Lox
