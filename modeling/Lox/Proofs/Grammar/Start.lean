import Lox.Proofs.Grammar.Basic

/-! How forms begin. Every form but a list takes a token at least, and the kind of its first token
tells it from the words that may stand in its place: a closing parenthesis or brace, an `else`, and
the keywords of the other statements. -/

namespace Lox.Grammar

def startsPrimary (kind : Kind) : Bool :=
  (literal? kind).isSome || kind == .identifier || kind == .terminal .kwThis ||
    kind == .terminal .kwSuper || kind == .terminal .leftParen

def startsExpression (kind : Kind) : Bool :=
  startsPrimary kind || (UnaryOp.ofKind? kind).isSome

/-- Whether an expression of a level may begin with a token of a kind. -/
def Level.starts : Level → Kind → Bool
  | call, kind | primary, kind => startsPrimary kind
  | _, kind => startsExpression kind

theorem Level.starts_expression (level : Level) (starts : level.starts kind = true) :
    startsExpression kind = true := by
  cases level <;> simp_all [Level.starts, startsExpression]

theorem Level.starts_outer {inner : Level} (step : Level.tighter? level = some inner)
    (starts : inner.starts kind = true) : level.starts kind = true := by
  cases level <;> cases step <;> simp_all [Level.starts, startsExpression]

theorem suffix_of_cons {token : Token} {rest input : List Token} (suffix : token :: rest <:+ input) :
    rest <:+ input :=
  (List.suffix_cons token rest).trans suffix

/-- A nonempty stretch of tokens whose first one is of a certain sort. -/
def Opens (starts : Kind → Bool) (input rest : List Token) : Prop :=
  ∃ token later, input = token :: later ∧ starts token.kind = true ∧ rest <:+ later

theorem Opens.suffix (opens : Opens starts input rest) : rest <:+ input := by
  obtain ⟨token, later, rfl, _, suffix⟩ := opens
  exact suffix.trans (List.suffix_cons ..)

theorem Opens.shorter (opens : Opens starts input rest) : rest.length < input.length := by
  obtain ⟨token, later, rfl, _, suffix⟩ := opens
  exact Nat.lt_succ_of_le suffix.length_le

theorem Opens.further (opens : Opens starts input rest) (suffix : later <:+ rest) :
    Opens starts input later := by
  obtain ⟨token, others, rfl, begins, inside⟩ := opens
  exact ⟨token, others, rfl, begins, suffix.trans inside⟩

theorem Opens.weaken (opens : Opens starts input rest)
    (implies : ∀ kind, starts kind = true → others kind = true) : Opens others input rest := by
  obtain ⟨token, later, same, begins, suffix⟩ := opens
  exact ⟨token, later, same, implies _ begins, suffix⟩

mutual

theorem Expression.opens : Expression level first input tree next rest →
    Opens level.starts input rest
  | .assign target _ assigned => by
    refine ⟨_, _, rfl, ?_, assigned.opens.suffix.trans (List.suffix_cons ..)⟩
    simp [Level.starts, startsExpression, startsPrimary, show _ = _ from target]
  | .set receiver _ _ _ assigned =>
    (receiver.opens.further (assigned.opens.suffix.trans (List.suffix_append [_, _, _] _))).weaken
      fun _ => Level.starts_expression .call
  | .pass step same => same.opens.weaken fun _ => Level.starts_outer step
  | .binary _ before _ after | .logical _ before _ after =>
    before.opens.further (after.opens.suffix.trans (List.suffix_cons ..))
  | .unary operates inside =>
    ⟨_, _, rfl, by simp [Level.starts, startsExpression, operates], inside.opens.suffix⟩
  | .call applied _ given _ =>
    applied.opens.further ((suffix_of_cons given.suffix).trans (List.suffix_cons ..))
  | .get receiver _ _ => receiver.opens.further (List.suffix_append [_, _] _)
  | .literal denotes =>
    ⟨_, _, rfl, by simp [Level.starts, startsPrimary, denotes], List.suffix_rfl⟩
  | .read refers =>
    ⟨_, _, rfl, by simp [Level.starts, startsPrimary, show _ = _ from refers], List.suffix_rfl⟩
  | .this refers =>
    ⟨_, _, rfl, by simp [Level.starts, startsPrimary, show _ = _ from refers], List.suffix_rfl⟩
  | .super refers _ _ => by
    refine ⟨_, _, rfl, ?_, List.suffix_append [_, _] _⟩
    simp [Level.starts, startsPrimary, show _ = _ from refers]
  | .grouping opening inside _ => by
    refine ⟨_, _, rfl, ?_, suffix_of_cons inside.opens.suffix⟩
    simp [Level.starts, startsPrimary, show _ = _ from opening]

theorem Listed.suffix : Listed (Expression .assignment) first input trees next rest →
    rest <:+ input
  | .none => List.suffix_rfl
  | .some items _ => items.suffix

theorem Separated.suffix : Separated (Expression .assignment) first input trees next rest →
    rest <:+ input
  | .last item => item.opens.suffix
  | .comma item _ others => others.suffix.trans (suffix_of_cons item.opens.suffix)

end

theorem Optional.suffix (optional : Optional (Expression .assignment) first input tree next rest) :
    rest <:+ input := by
  cases optional with
  | none => exact List.suffix_rfl
  | some item => exact item.opens.suffix

theorem Parameter.suffix (parameter : Parameter first input name next rest) : rest <:+ input := by
  cases parameter with
  | named => exact List.suffix_cons ..

theorem Listed.parameters_suffix (items : Listed Parameter first input names next rest) :
    rest <:+ input := by
  cases items with
  | none => exact List.suffix_rfl
  | some items =>
    induction items with
    | last item => exact item.suffix
    | comma item _ _ ih =>
      have few := Nat.le_of_succ_le ‹_›
      exact (ih few).trans (suffix_of_cons item.suffix)

theorem ExpressionStatement.opens (form : ExpressionStatement first input tree next rest) :
    Opens startsExpression input rest := by
  cases form with
  | ended evaluated _ =>
    exact (evaluated.opens.weaken fun _ => Level.starts_expression _).further (List.suffix_cons ..)

theorem VarDeclaration.suffix (form : VarDeclaration first input tree next rest) :
    rest <:+ input := by
  cases form with
  | bare => exact List.suffix_append [_, _] _
  | initialized _ _ assigned _ =>
    exact (suffix_of_cons assigned.opens.suffix).trans (List.suffix_append [_, _] _)

theorem ForInitializer.suffix (form : ForInitializer first input tree next rest) :
    rest <:+ input := by
  cases form with
  | none => exact List.suffix_cons ..
  | var _ declaration => exact declaration.suffix.trans (List.suffix_cons ..)
  | expression statement => exact statement.opens.suffix

theorem Inheritance.suffix (optional : Optional Inheritance first input superclass next rest) :
    rest <:+ input := by
  cases optional with
  | none => exact List.suffix_rfl
  | some clause =>
    cases clause with
    | «from» => exact List.suffix_append [_, _] _

/-- Whether a statement may begin with a token of a kind. -/
def startsStatement (kind : Kind) : Bool :=
  startsExpression kind || kind == .terminal .kwPrint || kind == .terminal .kwReturn ||
    kind == .terminal .leftBrace || kind == .terminal .kwWhile || kind == .terminal .kwFor ||
    kind == .terminal .kwIf

/-- Whether a declaration may begin with a token of a kind. -/
def startsDeclaration (kind : Kind) : Bool :=
  startsStatement kind || kind == .terminal .kwVar || kind == .terminal .kwFun ||
    kind == .terminal .kwClass

mutual

theorem Statement.opens : Statement dangling first input tree next rest →
    Opens startsStatement input rest
  | .expression statement =>
    statement.opens.weaken fun kind starts => by simp [startsStatement, starts]
  | .print begins printed _ =>
    ⟨_, _, rfl, by simp [startsStatement, show _ = _ from begins],
      suffix_of_cons printed.opens.suffix⟩
  | .return begins returned _ =>
    ⟨_, _, rfl, by simp [startsStatement, show _ = _ from begins], suffix_of_cons returned.suffix⟩
  | .block opens inside _ =>
    ⟨_, _, rfl, by simp [startsStatement, show _ = _ from opens], suffix_of_cons inside.suffix⟩
  | .while begins _ tested _ repeated =>
    ⟨_, _, rfl, by simp [startsStatement, show _ = _ from begins],
      (repeated.opens.suffix.trans (suffix_of_cons tested.opens.suffix)).trans
        (List.suffix_cons ..)⟩
  | .for begins _ started tested _ stepped _ repeated => by
    have third := (suffix_of_cons tested.suffix).trans started.suffix
    have fourth := (suffix_of_cons stepped.suffix).trans third
    exact ⟨_, _, rfl, by simp [startsStatement, show _ = _ from begins],
      (repeated.opens.suffix.trans fourth).trans (List.suffix_cons ..)⟩
  | .ifThen begins _ tested _ chosen =>
    ⟨_, _, rfl, by simp [startsStatement, show _ = _ from begins],
      (chosen.opens.suffix.trans (suffix_of_cons tested.opens.suffix)).trans (List.suffix_cons ..)⟩
  | .ifElse begins _ tested _ chosen _ otherwise => by
    have second := (suffix_of_cons chosen.opens.suffix).trans (suffix_of_cons tested.opens.suffix)
    exact ⟨_, _, rfl, by simp [startsStatement, show _ = _ from begins],
      (otherwise.opens.suffix.trans second).trans (List.suffix_cons ..)⟩

theorem Definition.opens : Definition first input routine next rest →
    Opens (· == .identifier) input rest
  | .routine names _ taken _ _ inside _ => by
    have body := suffix_of_cons (suffix_of_cons taken.parameters_suffix)
    exact ⟨_, _, rfl, by simp [show _ = _ from names],
      ((suffix_of_cons inside.suffix).trans body).trans (List.suffix_cons ..)⟩

theorem Declaration.opens : Declaration first input tree next rest →
    Opens startsDeclaration input rest
  | .statement statement =>
    statement.opens.weaken fun kind starts => by simp [startsDeclaration, starts]
  | .var begins declaration =>
    ⟨_, _, rfl, by simp [startsDeclaration, show _ = _ from begins], declaration.suffix⟩
  | .function begins definition =>
    ⟨_, _, rfl, by simp [startsDeclaration, show _ = _ from begins], definition.opens.suffix⟩
  | .class begins _ extended _ owned _ => by
    have methods := (suffix_of_cons owned.definitions_suffix).trans
      (suffix_of_cons (Inheritance.suffix extended))
    exact ⟨_, _, rfl, by simp [startsDeclaration, show _ = _ from begins],
      methods.trans (List.suffix_cons ..)⟩

theorem Many.suffix : Many Declaration first input trees next rest → rest <:+ input
  | .nil => List.suffix_rfl
  | .cons item others => others.suffix.trans item.opens.suffix

theorem Many.definitions_suffix : Many Definition first input routines next rest →
    rest <:+ input
  | .nil => List.suffix_rfl
  | .cons item others => others.definitions_suffix.trans item.opens.suffix

end

end Lox.Grammar
