import Lox.Proofs.Chronicle.Basic
import Lox.Proofs.Tree.Inner

/-! Orderly events. Calls end in the opposite order in which they began, a value that is returned is passed
on by nothing but the statements around the `return`, and with it the innermost call ends. -/

namespace Lox

/-- The value that is on its way to the end of a call. -/
def Flow.value? : Flow → Option Value
  | .normal => none
  | .returned value => some value

/-- What a call gives whose body has ended. -/
def Closure.result (closure : Closure) (heap : Heap) (flow : Flow) : Value :=
  if closure.isInitializer then (heap.scopes.valueIn? closure.scope "this").getD .nil
  else flow.value?.getD .nil

/-- A task of executing statements in the body of a routine. -/
def Course.Task.PartOf (closure : Closure) : Task → Prop
  | .execute tree => tree ∈ Stmt.allInner closure.routine.body
  | .executeAll trees => Stmt.allInner trees ⊆ Stmt.allInner closure.routine.body
  | _ => False

theorem Course.Task.PartOf.apart {closure : Closure} {task : Task} (inside : task.PartOf closure) :
    ∀ other arguments, task ≠ .invoke other arguments := by
  rintro other arguments rfl
  exact inside

namespace Chronicle

open Course (Task)

/-- The calls in progress after events, the innermost first. -/
def inProgress : List Event → List Closure
  | [] => []
  | .began (.invoke closure _) _ :: before => closure :: inProgress before
  | .ended (.invoke _ _) _ _ :: before => (inProgress before).tail
  | _ :: before => inProgress before

section Apart

variable {task : Task} (apart : ∀ closure arguments, task ≠ .invoke closure arguments)

include apart

/-- Only calls change what is in progress. -/
theorem inProgress_began : inProgress (.began task machine :: before) = inProgress before := by
  cases task with
  | invoke closure arguments => exact absurd rfl (apart closure arguments)
  | _ => rfl

theorem inProgress_ended : inProgress (.ended task result machine :: before) = inProgress before := by
  cases task with
  | invoke closure arguments => exact absurd rfl (apart closure arguments)
  | _ => rfl

end Apart

/-- The value that a `return` gives: that of its expression, which was evaluated just before. -/
def Gives (value : Value) (before : List Event) : Option Expr → Prop
  | none => value = .nil
  | some tree => ∃ machine, before.head? = some (.ended (.evaluate tree) (.value value) machine)

/-- Events in order, the latest first, with the value that is on its way to the end of the innermost call. -/
inductive Orderly : Option Value → List Event → Prop where
  | start : Orderly none []
  | began (before : Orderly none events) : Orderly none (.began task machine :: events)
  | ended (before : Orderly none events) (apart : ∀ closure arguments, task ≠ .invoke closure arguments)
      (stays : ∀ value, result ≠ .flow (.returned value)) :
      Orderly none (.ended task result machine :: events)
  | abandoned {closure : Closure} (before : Orderly none events)
      (innermost : inProgress events = closure :: callers) :
      Orderly none (.ended (.invoke closure arguments) (.halted reason) machine :: events)
  | returned {closure : Closure} (before : Orderly none events)
      (innermost : inProgress events = closure :: callers)
      (inside : .return line tree ∈ Stmt.allInner closure.routine.body)
      (gives : Gives value events tree) :
      Orderly (some value) (.ended (.execute (.return line tree)) (.flow (.returned value)) machine :: events)
  | passed {closure : Closure} (before : Orderly (some value) events)
      (innermost : inProgress events = closure :: callers)
      (inside : task.PartOf closure) (around : ∀ line tree, task ≠ .execute (.return line tree)) :
      Orderly (some value) (.ended task (.flow (.returned value)) machine :: events)
  | finished {closure : Closure} {flow : Flow} {machine : Machine} (before : Orderly flow.value? events)
      (innermost : inProgress events = closure :: callers)
      (body : events.head? = some (.ended (.executeAll closure.routine.body) (.flow flow) last))
      (gives : result = closure.result machine.heap flow) :
      Orderly none (.ended (.invoke closure arguments) (.value result) machine :: events)

/-- Ends of statements in the body of a routine, all with the value that one of them returned. -/
def PassOn (value : Value) (closure : Closure) (ends : List Event) : Prop :=
  ∀ event ∈ ends, ∃ task machine,
    event = .ended task (.flow (.returned value)) machine ∧ task.PartOf closure

/-- A returned value ends a call: nothing comes before the end of the call but ends of its statements. -/
def EndsCall (value : Value) (closure : Closure) (later : List Event) : Prop :=
  ∃ rest arguments machine ends,
    later = rest ++ .ended (.invoke closure arguments)
      (.value (closure.result machine.heap (.returned value))) machine :: ends ∧
    PassOn value closure ends

namespace Orderly

variable {pending : Option Value} {value : Value} {closure : Closure} {before later : List Event}
  {machine : Machine}

/-- A value is on its way only in a call. -/
theorem innermost (orderly : Orderly (some value) events) :
    ∃ closure callers, inProgress events = closure :: callers := by
  cases orderly with
  | returned _ innermost => exact ⟨_, _, innermost⟩
  | passed _ innermost inside => exact ⟨_, _, (inProgress_ended inside.apart).trans innermost⟩

/-- What was written before is in order, too. -/
theorem earlier (orderly : Orderly pending (later ++ before)) : ∃ pending, Orderly pending before := by
  induction later generalizing pending with
  | nil => exact ⟨pending, orderly⟩
  | cons event rest ih =>
    cases orderly with
    | began before | ended before | abandoned before | returned before | passed before
    | finished before => exact ih before

/-- A statement that returns is in the body of the innermost call. -/
theorem contained (orderly : Orderly pending
      (.ended (.execute tree) (.flow (.returned value)) machine :: before)) :
    pending = some value ∧ ∃ closure callers, inProgress before = closure :: callers ∧
      tree ∈ Stmt.allInner closure.routine.body := by
  cases orderly with
  | ended _ _ stays => exact absurd rfl (stays value)
  | returned _ innermost inside => exact ⟨rfl, _, _, innermost, inside⟩
  | passed _ innermost inside => exact ⟨rfl, _, _, innermost, inside⟩

/-- A value that is on its way stays so until the innermost call ends with it. -/
theorem onItsWay (orderly : Orderly pending (later ++ before)) (returned : ∀ {pending},
      Orderly pending before → pending = some value)
    (innermost : inProgress before = closure :: callers) :
    (pending = some value ∧ inProgress (later ++ before) = closure :: callers ∧
      PassOn value closure later) ∨ EndsCall value closure later := by
  -- By induction on what was written later: while the value is on its way, only ends can follow.
  induction later generalizing pending with
  | nil => exact .inl ⟨returned orderly, innermost, List.forall_mem_nil _⟩
  | cons event rest ih =>
    have further (ends : EndsCall value closure rest) : EndsCall value closure (event :: rest) := by
      obtain ⟨later, arguments, machine, ends, rfl, passed⟩ := ends
      exact ⟨event :: later, arguments, machine, ends, rfl, passed⟩
    cases orderly with
    | began earlier | ended earlier | abandoned earlier | returned earlier =>
      rcases ih earlier with ⟨same, _⟩ | ends
      · cases same
      · exact .inr (further ends)
    | passed earlier innermost' inside =>
      rcases ih earlier with ⟨same, calls, passed⟩ | ends
      · cases same
        cases innermost'.symm.trans calls
        refine .inl ⟨rfl, (inProgress_ended inside.apart).trans calls, ?_⟩
        intro event member
        rcases List.mem_cons.mp member with rfl | member
        · exact ⟨_, _, rfl, inside⟩
        · exact passed event member
      · exact .inr (further ends)
    | @finished _ _ _ _ _ _ flow machine earlier innermost' _ gives =>
      rcases ih earlier with ⟨same, calls, passed⟩ | ends
      · cases innermost'.symm.trans calls
        cases flow with
        | normal => cases same
        | returned value =>
          cases same
          exact .inr ⟨[], _, machine, rest, by rw [gives, List.nil_append], passed⟩
      · exact .inr (further ends)

/-- A value that a statement returns ends the innermost call, in the body of which the statement is. -/
theorem consumed (orderly : Orderly none
      (later ++ .ended (.execute tree) (.flow (.returned value)) machine :: before)) :
    ∃ closure callers, inProgress before = closure :: callers ∧
      tree ∈ Stmt.allInner closure.routine.body ∧ EndsCall value closure later := by
  obtain ⟨_, here⟩ := orderly.earlier
  obtain ⟨_, closure, callers, innermost, inside⟩ := here.contained
  rcases orderly.onItsWay (fun here => here.contained.1) innermost with ⟨same, _⟩ | ends
  · cases same
  · exact ⟨closure, callers, innermost, inside, ends⟩

/-- The value that a `return` gives is that of its expression. -/
theorem given (orderly : Orderly none
      (later ++ .ended (.execute (.return line tree)) (.flow (.returned value)) machine :: before)) :
    Gives value before tree := by
  obtain ⟨_, here⟩ := orderly.earlier
  cases here with
  | ended _ _ stays => exact absurd rfl (stays value)
  | returned _ _ _ gives => exact gives
  | passed _ _ _ around => exact absurd rfl (around line tree)

/-- A call ends right after its body, with what the body's end gives. -/
theorem result {result : Value} (orderly : Orderly none
      (later ++ .ended (.invoke closure arguments) (.value result) machine :: before)) :
    ∃ flow last callers, inProgress before = closure :: callers ∧
      before.head? = some (.ended (.executeAll closure.routine.body) (.flow flow) last) ∧
      result = closure.result machine.heap flow := by
  obtain ⟨_, here⟩ := orderly.earlier
  cases here with
  | ended _ apart => exact absurd rfl (apart closure arguments)
  | finished _ innermost body gives => exact ⟨_, _, _, innermost, body, gives⟩

end Orderly

end Chronicle

end Lox
