import Lox.Proofs.Parse.Basic

/-! Expressions with other labels. -/

namespace Lox.Parse

variable {α : Type} {pairing : Pairing}

theorem allAlike_of_forall {trees trees' : List Expr}
    (same : List.Forall₂ (Expr.Alike pairing) trees trees') :
    Expr.AllAlike pairing trees trees' := by
  induction same with
  | nil => exact .nil
  | cons first _ ih => exact .cons first ih

section Forms

variable {expression expression' : Parse Expr}
  (inner : Relabels pairing (Expr.Alike pairing) expression expression')

include inner

theorem callArguments_relabels (callee : Expr.Alike pairing tree tree') :
    Relabels pairing (Expr.Alike pairing) (callArguments expression tree) (callArguments expression' tree') := by
  apply (listed_relabels .tooManyArguments inner).bind
  intro arguments arguments' same
  apply (expect_relabels _).bind
  intro paren paren' closed
  exact .pure (.call callee closed.line (allAlike_of_forall same))

theorem primary_relabels : Relabels pairing (Expr.Alike pairing) (primary expression) (primary expression') := by
  apply peek_relabels
  intro kind lexeme here there line
  dsimp only
  split
  · exact skip_relabels.bind_eq fun _ => .pure (.literal _)
  · exact skip_relabels.bind_eq fun _ => .pure (.literal _)
  · exact skip_relabels.bind_eq fun _ => .pure (.literal _)
  · exact skip_relabels.bind_eq fun _ => .pure (.literal _)
  · exact skip_relabels.bind_eq fun _ => .pure (.literal _)
  · apply skip_relabels.bind_eq
    intro _
    apply (expect_relabels .dotAfterSuper).discard.bind_eq
    intro _
    apply (expectName_relabels .superMethodName).bind
    intro method method' same
    exact freshId_relabels.bind fun _ _ id => .pure (.super id line same)
  · exact skip_relabels.bind_eq fun _ => freshId_relabels.bind fun _ _ id => .pure (.this id line)
  · exact skip_relabels.bind_eq fun _ => freshId_relabels.bind fun _ _ id => .pure (.read id ⟨rfl, line⟩)
  · apply skip_relabels.bind_eq
    intro _
    apply inner.bind
    intro tree tree' same
    exact (expect_relabels .parenAfterGrouping).discard.bind_eq fun _ => .pure (.grouping same)
  · exact fail_relabels _

theorem callsFrom_relabels (bound : Nat) (callee : Expr.Alike pairing tree tree') :
    Relabels pairing (Expr.Alike pairing) (callsFrom expression bound tree)
      (callsFrom expression' bound tree') := by
  induction bound generalizing tree tree' with
  | zero => exact .pure callee
  | succ bound ih =>
    apply (take_relabels .leftParen).bind_eq
    intro called
    split
    · exact (callArguments_relabels inner callee).bind fun _ _ same => ih same
    · apply (take_relabels .dot).bind_eq
      intro read
      split
      · exact (expectName_relabels .propertyName).bind fun _ _ name => ih (.get callee name)
      · exact .pure callee

theorem call_relabels : Relabels pairing (Expr.Alike pairing) (call expression) (call expression') := by
  apply (primary_relabels inner).bind
  intro callee callee' same
  exact remaining_relabels.bind_eq fun bound => callsFrom_relabels inner bound same

omit inner in
theorem leadingUnary_alike (same : List.Forall₂ (Token.Alike pairing) tokens tokens') :
    List.Forall₂ (SameOperator pairing) (leadingUnary tokens).1 (leadingUnary tokens').1 ∧
      List.Forall₂ (Token.Alike pairing) (leadingUnary tokens).2 (leadingUnary tokens').2 := by
  induction same with
  | nil => exact ⟨.nil, .nil⟩
  | cons first rest ih =>
    simp only [leadingUnary, ← first.kind]
    split
    · exact ⟨.cons ⟨rfl, first.line⟩ ih.1, ih.2⟩
    · exact ⟨.nil, .cons first rest⟩

omit inner in
theorem unaryOperators_relabels :
    Relabels pairing (List.Forall₂ (SameOperator pairing)) unaryOperators unaryOperators := by
  intro state state' alike
  obtain ⟨operators, rest⟩ := leadingUnary_alike alike.rest
  exact .ok operators { alike with rest }

theorem unary_relabels :
    Relabels pairing (Expr.Alike pairing) (unary expression) (unary expression') := by
  apply unaryOperators_relabels.bind
  intro operators operators' signs
  apply (call_relabels inner).bind
  intro operand operand' same
  refine .pure ?_
  induction signs with
  | nil => exact same
  | cons sign _ ih =>
    simp only [List.foldr_cons, ← sign.1]
    exact .unary _ sign.2 ih

/-- Operators that join trees that are alike into trees that are alike. -/
def Joins (pairing : Pairing) (join : α → Nat → Expr → Expr → Expr) : Prop :=
  ∀ op {here there left left' right right'}, pairing.lines here there →
    Expr.Alike pairing left left' → Expr.Alike pairing right right' →
    Expr.Alike pairing (join op here left right) (join op there left' right')

omit inner in
theorem chainFrom_relabels {operator? : Kind → Option α} {join : α → Nat → Expr → Expr → Expr}
    (joins : Joins pairing join)
    {operand operand' : Parse Expr} (operands : Relabels pairing (Expr.Alike pairing) operand operand')
    (bound : Nat) (left : Expr.Alike pairing tree tree') :
    Relabels pairing (Expr.Alike pairing) (chainFrom operator? join operand bound tree)
      (chainFrom operator? join operand' bound tree') := by
  induction bound generalizing tree tree' with
  | zero => exact .pure left
  | succ bound ih =>
    apply (takeOperator?_relabels operator?).bind
    intro operator operator' same
    cases same with
    | none => exact .pure left
    | some same =>
      obtain ⟨op, line⟩ := same
      simp only [← op]
      exact operands.bind fun _ _ right => ih (joins _ line left right)

omit inner in
theorem chain_relabels {operator? : Kind → Option α} {join : α → Nat → Expr → Expr → Expr}
    (joins : Joins pairing join)
    {operand operand' : Parse Expr} (operands : Relabels pairing (Expr.Alike pairing) operand operand') :
    Relabels pairing (Expr.Alike pairing) (chain operator? join operand) (chain operator? join operand') := by
  apply operands.bind
  intro left left' same
  exact remaining_relabels.bind_eq fun bound => chainFrom_relabels joins operands bound same

theorem disjunction_relabels :
    Relabels pairing (Expr.Alike pairing) (disjunction expression) (disjunction expression') := by
  have binary : Joins pairing Expr.binary := fun op _ _ _ _ _ _ line first second =>
    .binary op line first second
  have logical : Joins pairing Expr.logical := fun op _ _ _ _ _ _ line first second =>
    .logical op line first second
  have factors : Relabels pairing (Expr.Alike pairing) (factor expression) (factor expression') :=
    chain_relabels binary (unary_relabels inner)
  have comparisons : Relabels pairing (Expr.Alike pairing) (comparison expression) (comparison expression') :=
    chain_relabels binary (chain_relabels binary factors)
  exact chain_relabels logical (chain_relabels logical (chain_relabels binary comparisons))

theorem assignment_relabels :
    Relabels pairing (Expr.Alike pairing) (assignment expression) (assignment expression') := by
  apply (disjunction_relabels inner).bind
  intro target target' same
  apply peek_relabels
  intro kind lexeme here there line
  apply (take_relabels .equal).bind_eq
  intro assigned
  split
  · apply inner.bind
    intro value value' given
    have reason : SyntaxError.Alike pairing ⟨.invalidAssignmentTarget, kind, lexeme, here⟩
      ⟨.invalidAssignmentTarget, kind, lexeme, there⟩ := ⟨rfl, rfl, rfl, line⟩
    have reported := (report_relabels reason).bind_eq fun _ => .pure same
    cases same with
    | read id name => exact freshId_relabels.bind fun _ _ id => .pure (.assign id name given)
    | get object name => exact .pure (.set object name given)
    | _ => exact reported
  · exact .pure same

end Forms

theorem expressionWithin_relabels (depth : Nat) :
    Relabels pairing (Expr.Alike pairing) (expressionWithin depth) (expressionWithin depth) := by
  induction depth with
  | zero => exact fail_relabels _
  | succ depth ih => exact assignment_relabels ih

theorem expression_relabels : Relabels pairing (Expr.Alike pairing) expression expression :=
  remaining_relabels.bind_eq fun depth => expressionWithin_relabels (depth + 1)

end Lox.Parse
