import Lox.Tree.Basic

/-! The statements inside a statement. What is inside a routine that is declared there is not among them,
so a `return` that is among them ends the routine around the statement. -/

namespace Lox

mutual

/-- A statement and those that are executed as parts of it. -/
def Stmt.inner : Stmt → List Stmt
  | .block body => .block body :: Stmt.allInner body
  | .ifThen condition consequent => .ifThen condition consequent :: consequent.inner
  | .ifElse condition consequent alternative =>
    .ifElse condition consequent alternative :: (consequent.inner ++ alternative.inner)
  | .while condition body => .while condition body :: body.inner
  | .expression value => [.expression value]
  | .print value => [.print value]
  | .declareVar name initializer => [.declareVar name initializer]
  | .declareFunction routine => [.declareFunction routine]
  | .return line value => [.return line value]
  | .declareClass name superclass methods => [.declareClass name superclass methods]

def Stmt.allInner : List Stmt → List Stmt
  | [] => []
  | first :: rest => first.inner ++ Stmt.allInner rest

end

/-- No statement among them is a `return`. -/
def Stmt.Returnless (trees : List Stmt) : Prop :=
  ∀ line value, .return line value ∉ trees

namespace Stmt

theorem mem_inner (tree : Stmt) : tree ∈ tree.inner := by
  cases tree <;> exact List.mem_cons_self ..

theorem Returnless.append (one : Returnless trees) (other : Returnless others) :
    Returnless (trees ++ others) := by
  intro line value member
  rcases List.mem_append.mp member with member | member
  · exact one line value member
  · exact other line value member

/-- A statement that is no `return` itself adds none. -/
theorem Returnless.cons (other : ∀ line value, tree ≠ .return line value) (rest : Returnless trees) :
    Returnless (tree :: trees) := by
  intro line value member
  rcases List.mem_cons.mp member with same | member
  · exact other line value same.symm
  · exact rest line value member

theorem returnless_nil : Returnless [] := nofun

theorem inner_subset_allInner (member : tree ∈ trees) : tree.inner ⊆ allInner trees := by
  induction trees with
  | nil => cases member
  | cons first rest ih =>
    rcases List.mem_cons.mp member with rfl | member
    · exact List.subset_append_left ..
    · exact List.Subset.trans (ih member) (List.subset_append_right ..)

/-- Each of the statements is without a `return` if they all are. -/
theorem Returnless.part (returnless : Returnless (allInner trees)) (member : tree ∈ trees) :
    Returnless tree.inner :=
  fun line value inside => returnless line value (inner_subset_allInner member inside)

end Stmt

end Lox
