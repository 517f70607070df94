import Lox.Proofs.Grammar.Basic

/-! Which tokens make up an expression does not depend on what follows them: they are the same expression
before any others. -/

namespace Lox.Grammar

/-- The form on the tokens that it has, whatever follows them. -/
def Local (Item : Form α) (first : NodeId) (input : List Token) (tree : α) (next : NodeId)
    (rest : List Token) : Prop :=
  ∃ own, input = own ++ rest ∧ ∀ other, Item first (own ++ other) tree next other

theorem closed_append (own rest : List Token) (closing : Token) :
    own ++ closing :: rest = (own ++ [closing]) ++ rest := by
  simp

mutual

theorem Expression.local : Expression level first input tree next rest →
    Local (Expression level) first input tree next rest
  | .assign target sign assigned => by
    obtain ⟨own, rfl, value⟩ := assigned.local
    exact ⟨_ :: _ :: own, rfl, fun other => .assign target sign (value other)⟩
  | .set receiver access property sign assigned => by
    obtain ⟨own, rfl, object⟩ := receiver.local
    obtain ⟨later, rfl, value⟩ := assigned.local
    refine ⟨_, (List.append_assoc own (_ :: _ :: _ :: later) _).symm, fun other => ?_⟩
    rw [List.append_assoc]
    exact .set (object _) access property sign (value other)
  | .pass step same => by
    obtain ⟨own, rfl, inner⟩ := same.local
    exact ⟨own, rfl, fun other => .pass step (inner other)⟩
  | .binary step before operates after => by
    obtain ⟨own, rfl, left⟩ := before.local
    obtain ⟨later, rfl, right⟩ := after.local
    refine ⟨_, (List.append_assoc own (_ :: later) _).symm, fun other => ?_⟩
    rw [List.append_assoc]
    exact .binary step (left _) operates (right other)
  | .logical step before operates after => by
    obtain ⟨own, rfl, left⟩ := before.local
    obtain ⟨later, rfl, right⟩ := after.local
    refine ⟨_, (List.append_assoc own (_ :: later) _).symm, fun other => ?_⟩
    rw [List.append_assoc]
    exact .logical step (left _) operates (right other)
  | .unary operates inside => by
    obtain ⟨own, rfl, operand⟩ := inside.local
    exact ⟨_ :: own, rfl, fun other => .unary operates (operand other)⟩
  | .call applied opens given closes => by
    obtain ⟨own, rfl, callee⟩ := applied.local
    obtain ⟨later, rfl, arguments⟩ := given.local
    rw [closed_append later]
    refine ⟨_, (List.append_assoc own (_ :: (later ++ [_])) _).symm, fun other => ?_⟩
    rw [List.append_assoc, List.cons_append, ← closed_append]
    exact .call (callee _) opens (arguments _) closes
  | .get receiver access property => by
    obtain ⟨own, rfl, object⟩ := receiver.local
    refine ⟨_, (List.append_assoc own [_, _] _).symm, fun other => ?_⟩
    rw [List.append_assoc]
    exact .get (object _) access property
  | .literal denotes => ⟨[_], rfl, fun _ => .literal denotes⟩
  | .read refers => ⟨[_], rfl, fun _ => .read refers⟩
  | .this refers => ⟨[_], rfl, fun _ => .this refers⟩
  | .super refers access method => ⟨[_, _, _], rfl, fun _ => .super refers access method⟩
  | .grouping opens inside closes => by
    obtain ⟨own, rfl, inner⟩ := inside.local
    rw [closed_append own]
    refine ⟨_ :: (own ++ [_]), rfl, fun other => ?_⟩
    rw [List.cons_append, ← closed_append]
    exact .grouping opens (inner _) closes

theorem Listed.local : Listed (Expression .assignment) first input trees next rest →
    Local (Listed (Expression .assignment)) first input trees next rest
  | .none => ⟨[], rfl, fun _ => .none⟩
  | .some items few => by
    obtain ⟨own, rfl, others⟩ := items.local
    exact ⟨own, rfl, fun other => .some (others other) few⟩

theorem Separated.local : Separated (Expression .assignment) first input trees next rest →
    Local (Separated (Expression .assignment)) first input trees next rest
  | .last item => by
    obtain ⟨own, rfl, tree⟩ := item.local
    exact ⟨own, rfl, fun other => .last (tree other)⟩
  | .comma item divides others => by
    obtain ⟨own, rfl, tree⟩ := item.local
    obtain ⟨later, rfl, trees⟩ := others.local
    refine ⟨_, (List.append_assoc own (_ :: later) _).symm, fun other => ?_⟩
    rw [List.append_assoc]
    exact .comma (tree _) divides (trees other)

end

/-- Before a token that is the last one, the tokens of an expression are all the others. -/
theorem Expression.before_last {last sign : Token}
    (form : Expression level first (own ++ [last]) tree next [sign]) (other : List Token) :
    Expression level first (own ++ other) tree next other := by
  obtain ⟨tokens, same, moved⟩ := form.local
  obtain ⟨rfl, _⟩ := List.append_inj' same rfl
  exact moved other

end Lox.Grammar
