import Lox.Proofs.Grammar.Basic

/-! The identifiers in a tree. The parser hands them out in order, so those of a tree lie between the
first free identifier before it and the first free one after it, and no two of them are equal. -/

namespace Lox

mutual

def Expr.ids : Expr → List NodeId
  | .literal _ => []
  | .grouping inner => inner.ids
  | .unary _ _ operand => operand.ids
  | .binary _ _ left right => left.ids ++ right.ids
  | .logical _ _ left right => left.ids ++ right.ids
  | .read id _ => [id]
  | .assign id _ value => value.ids ++ [id]
  | .call callee _ arguments => callee.ids ++ Expr.allIds arguments
  | .get object _ => object.ids
  | .set object _ value => object.ids ++ value.ids
  | .this id _ => [id]
  | .super id _ _ => [id]

def Expr.allIds : List Expr → List NodeId
  | [] => []
  | first :: rest => first.ids ++ Expr.allIds rest

end

def Expr.ids? (value : Option Expr) : List NodeId :=
  value.elim [] Expr.ids

def Superclass.ids? (superclass : Option Superclass) : List NodeId :=
  superclass.elim [] fun superclass => [superclass.id]

mutual

def Stmt.ids : Stmt → List NodeId
  | .expression value => value.ids
  | .print value => value.ids
  | .declareVar _ initializer => Expr.ids? initializer
  | .block body => Stmt.allIds body
  | .ifThen condition consequent => condition.ids ++ consequent.ids
  | .ifElse condition consequent alternative =>
    condition.ids ++ (consequent.ids ++ alternative.ids)
  | .while condition body => condition.ids ++ body.ids
  | .declareFunction routine => routine.ids
  | .return _ value => Expr.ids? value
  | .declareClass _ superclass methods => Superclass.ids? superclass ++ Routine.allIds methods

def Stmt.allIds : List Stmt → List NodeId
  | [] => []
  | first :: rest => first.ids ++ Stmt.allIds rest

def Routine.ids : Routine → List NodeId
  | ⟨_, _, body⟩ => Stmt.allIds body

def Routine.allIds : List Routine → List NodeId
  | [] => []
  | first :: rest => first.ids ++ Routine.allIds rest

end

theorem Stmt.allIds_append (body others : List Stmt) :
    Stmt.allIds (body ++ others) = Stmt.allIds body ++ Stmt.allIds others := by
  induction body with
  | nil => rfl
  | cons first rest ih => simp [allIds, ih]

theorem Stmt.ids_forLoop (initializer : Option Stmt) (condition increment : Option Expr)
    (body : Stmt) :
    (Stmt.forLoop initializer condition increment body).ids =
      initializer.elim [] Stmt.ids ++
        (Expr.ids? condition ++ (body.ids ++ Expr.ids? increment)) := by
  cases initializer <;> cases condition <;> cases increment <;>
    simp [forLoop, ids, allIds, Expr.ids?, Expr.ids]

namespace Grammar

/-- Different identifiers from `first` on and before `next`. -/
structure Numbered (first : Nat) (ids : List Nat) (next : Nat) : Prop where
  forward : first ≤ next
  different : ids.Nodup
  within : ∀ id ∈ ids, first ≤ id ∧ id < next

namespace Numbered

theorem nil : Numbered first [] first :=
  ⟨Nat.le_refl _, .nil, nofun⟩

theorem single : Numbered first [first] (first + 1) :=
  ⟨Nat.le_succ _, by simp, by simp⟩

theorem later (numbered : Numbered middle ids next) (forward : first ≤ middle) :
    Numbered first ids next :=
  ⟨Nat.le_trans forward numbered.forward, numbered.different, fun id member =>
    ⟨Nat.le_trans forward (numbered.within id member).1, (numbered.within id member).2⟩⟩

theorem append (before : Numbered first left middle) (after : Numbered middle right next) :
    Numbered first (left ++ right) next := by
  refine ⟨Nat.le_trans before.forward after.forward, ?_, fun id member => ?_⟩
  · refine List.nodup_append.mpr ⟨before.different, after.different, ?_⟩
    intro id member other member' same
    have bound := (before.within id member).2
    have bound' := (after.within other member').1
    omega
  · have forward := before.forward
    have forward' := after.forward
    rcases List.mem_append.mp member with member | member
    · have bounds := before.within id member
      omega
    · have bounds := after.within id member
      omega

theorem swap (numbered : Numbered first (left ++ right) next) :
    Numbered first (right ++ left) next :=
  ⟨numbered.forward, (List.perm_append_comm.nodup_iff).mp numbered.different, fun id member =>
    numbered.within id (by simpa [or_comm] using member)⟩

end Numbered

mutual

theorem Expression.numbered : Expression level first input tree next rest →
    Numbered first tree.ids next
  | .assign _ _ assigned => (assigned.numbered.append .single).later (Nat.le_succ _)
  | .set receiver _ _ _ assigned => receiver.numbered.append assigned.numbered
  | .pass _ same => same.numbered
  | .binary _ before _ after | .logical _ before _ after => before.numbered.append after.numbered
  | .unary _ inside => inside.numbered
  | .call applied _ given _ => applied.numbered.append given.numbered
  | .get receiver _ _ => receiver.numbered
  | .literal _ => .nil
  | .read _ | .this _ | .super _ _ _ => .single
  | .grouping _ inside _ => inside.numbered

theorem Listed.numbered : Listed (Expression .assignment) first input trees next rest →
    Numbered first (Expr.allIds trees) next
  | .none => .nil
  | .some items _ => items.numbered

theorem Separated.numbered : Separated (Expression .assignment) first input trees next rest →
    Numbered first (Expr.allIds trees) next
  | .last item => item.numbered.append .nil
  | .comma item _ others => item.numbered.append others.numbered

end

theorem Optional.numbered (optional : Optional (Expression .assignment) first input value next rest) :
    Numbered first (Expr.ids? value) next := by
  cases optional with
  | none => exact .nil
  | some item => exact item.numbered

theorem ExpressionStatement.numbered (form : ExpressionStatement first input tree next rest) :
    Numbered first tree.ids next := by
  cases form with
  | ended evaluated _ => exact evaluated.numbered

theorem VarDeclaration.numbered (form : VarDeclaration first input tree next rest) :
    Numbered first tree.ids next := by
  cases form with
  | bare => exact .nil
  | initialized _ _ assigned _ => exact assigned.numbered

theorem ForInitializer.numbered (form : ForInitializer first input tree next rest) :
    Numbered first (tree.elim [] Stmt.ids) next := by
  cases form with
  | none => exact .nil
  | var _ declaration => exact declaration.numbered
  | expression statement => exact statement.numbered

theorem Inheritance.numbered (optional : Optional Inheritance first input superclass next rest) :
    Numbered first (Superclass.ids? superclass) next := by
  cases optional with
  | none => exact .nil
  | some clause =>
    cases clause with
    | «from» => exact .single

theorem Listed.parameters_next (items : Listed Parameter first input names next rest) :
    next = first := by
  cases items with
  | none => rfl
  | some items few =>
    induction items with
    | last item => cases item; rfl
    | comma item _ _ ih =>
      cases item
      exact ih (Nat.le_of_succ_le few)

mutual

theorem Statement.numbered : Statement dangling first input tree next rest →
    Numbered first tree.ids next
  | .expression statement => statement.numbered
  | .print _ printed _ => printed.numbered
  | .return _ returned _ => returned.numbered
  | .block _ inside _ => inside.numbered
  | .while _ _ tested _ repeated => tested.numbered.append repeated.numbered
  | .for _ _ started tested _ stepped _ repeated => by
    rw [Stmt.ids_forLoop]
    exact started.numbered.append
      (tested.numbered.append (stepped.numbered.append repeated.numbered).swap)
  | .ifThen _ _ tested _ chosen => tested.numbered.append chosen.numbered
  | .ifElse _ _ tested _ chosen _ otherwise =>
    tested.numbered.append (chosen.numbered.append otherwise.numbered)

theorem Definition.numbered : Definition first input routine next rest →
    Numbered first routine.ids next
  | .routine _ _ taken _ _ inside _ =>
    inside.numbered.later (Nat.le_of_eq taken.parameters_next.symm)

theorem Declaration.numbered : Declaration first input tree next rest →
    Numbered first tree.ids next
  | .statement statement => statement.numbered
  | .var _ declaration => declaration.numbered
  | .function _ definition => definition.numbered
  | .class _ _ extended _ owned _ => (Inheritance.numbered extended).append owned.definitions_numbered

/-- The identifiers of a program are different and are handed out from `first` on. -/
theorem Many.numbered : Many Declaration first input trees next rest →
    Numbered first (Stmt.allIds trees) next
  | .nil => .nil
  | .cons item others => item.numbered.append others.numbered

theorem Many.definitions_numbered : Many Definition first input routines next rest →
    Numbered first (Routine.allIds routines) next
  | .nil => .nil
  | .cons item others => item.numbered.append others.definitions_numbered

end

end Grammar

end Lox
