import Lox.Proofs.Parse.Composed
import Lox.Proofs.Steps

/-! What parsing does to its state. Whatever is parsed, tokens are passed over, identifiers are handed
out and errors are put on record, one at a time, and that is all, also where a parser fails. -/

namespace Lox.Parse

variable {α β : Type}

/-- The states that parsing can lead to. -/
inductive Later (state : State) : State → Prop where
  | here : Later state state
  | pass (before : Later state after) : Later state { after with rest := after.rest.tail }
  | draw (before : Later state after) : Later state { after with nextId := after.nextId + 1 }
  | report (before : Later state after) (error : SyntaxError) :
      Later state { after with errors := after.errors.push error }

namespace Later

theorem trans (first : Later state middle) (second : Later middle after) :
    Later state after := by
  induction second with
  | here => exact first
  | pass _ ih => exact ih.pass
  | draw _ ih => exact ih.draw
  | report _ error ih => exact ih.report error

/-- Errors stay on record. -/
theorem errors (later : Later state after) : state.errors.toList <+: after.errors.toList := by
  induction later with
  | here => exact List.prefix_rfl
  | pass _ ih => exact ih
  | draw _ ih => exact ih
  | report _ error ih =>
    rw [Array.toList_push]
    exact ih.trans (List.prefix_append _ _)

/-- The tokens to come were to come before. -/
theorem tokens (later : Later state after) : after.rest <:+ state.rest := by
  induction later with
  | here => exact List.suffix_rfl
  | pass _ ih => exact (List.tail_suffix _).trans ih
  | draw _ ih => exact ih
  | report _ _ ih => exact ih

theorem suffix (later : rest <:+ state.rest) : Later state { state with rest } := by
  obtain ⟨passed, tokens⟩ := later
  induction passed generalizing state with
  | nil =>
    cases tokens
    exact .here
  | cons token passed ih =>
    have next : Later state { state with rest := passed ++ rest } := by
      have moved := (here : Later state state).pass
      rwa [← tokens] at moved
    exact next.trans (ih rfl)

end Later

/-- The state in which a parser ends, also where it fails. -/
def final (parse : Parse α) (state : State) : State :=
  match parse state with
  | .ok _ after | .error _ after => after

/-- A parser that leads from any state to one that parsing can lead to. -/
def Leads (parse : Parse α) : Prop :=
  ∀ state, Later state (final parse state)

theorem leadingUnary_suffix (tokens : List Token) : (leadingUnary tokens).2 <:+ tokens := by
  induction tokens with
  | nil => exact List.suffix_rfl
  | cons token rest ih =>
    unfold leadingUnary
    split
    · exact ih.trans (List.suffix_cons token rest)
    · exact List.suffix_rfl

theorem nextBoundary_suffix (tokens : List Token) : nextBoundary tokens <:+ tokens := by
  induction tokens with
  | nil => exact List.suffix_rfl
  | cons token rest ih =>
    unfold nextBoundary
    split
    · exact List.suffix_cons token rest
    · exact ih.trans (List.suffix_cons token rest)

namespace Leads

theorem bind {parse : Parse α} {later : α → Parse β} (first : Leads parse)
    (rest : ∀ value, Leads (later value)) : Leads (parse >>= later) := by
  intro state
  have before := first state
  unfold final at before ⊢
  cases ran : parse state with
  | ok value middle =>
    rw [ran] at before
    rw [bind_ok ran]
    exact before.trans (rest value middle)
  | error reason middle =>
    rw [ran] at before
    rw [bind_error ran]
    exact before

theorem recovering {parse : Parse Stmt} (leads : Leads parse) : Leads (Parse.recovering parse) := by
  intro state
  have before := leads state
  unfold final Parse.recovering at *
  cases ran : parse state with
  | ok tree after =>
    rw [ran] at before
    exact before
  | error error after =>
    rw [ran] at before
    exact (before.report error).trans (.suffix (nextBoundary_suffix after.rest))

end Leads

theorem Composed.leads {parse : Parse α} (composed : Composed parse) : Leads parse := by
  induction composed with
  | pure | peek | atEnd | remaining | check | fail => exact fun _ => .here
  | skip => exact fun _ => .pass .here
  | report error => exact fun _ => .report .here error
  | freshId => exact fun _ => .draw .here
  | unaryOperators => exact fun state => .suffix (leadingUnary_suffix state.rest)
  | bind _ _ first rest => exact first.bind rest
  | recovering _ inside => exact inside.recovering

theorem expressionWithin_leads (depth : Nat) : Leads (expressionWithin depth) :=
  (expressionWithin_composed depth).leads

theorem within_leads (depth : Nat) :
    Leads (statementWithin depth) ∧ Leads (declarationWithin depth) :=
  ⟨(within_composed depth).1.leads, (within_composed depth).2.leads⟩

/-- A parser after which all errors are still on record, also where it fails. -/
def Keeps (parse : Parse α) : Prop :=
  ∀ state, state.errors.toList <+: (final parse state).errors.toList

theorem Leads.keeps {parse : Parse α} (leads : Leads parse) : Keeps parse :=
  fun state => (leads state).errors

end Lox.Parse
