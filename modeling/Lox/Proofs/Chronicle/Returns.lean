import Lox.Proofs.Chronicle.Continues
import Lox.Proofs.Chronicle.Program
import Lox.Proofs.Scope.Returns

/-! Returned values do not escape. In every run and in every session of accepted sources a value that is
returned ends the innermost call, and a call gives what is returned in it, unless it is an initializer. -/

namespace Lox

namespace Heap

variable {heap : Heap} {closure : Closure} {receiver : InstanceRef}

/-- The closure is a method named `init` that is bound to an instance. -/
def Initializes (heap : Heap) (closure : Closure) (receiver : InstanceRef) : Prop :=
  heap.MethodOf closure receiver ∧ closure.routine.name.text = initializerName

/-- What a call gives whose body has ended. If nothing is returned this is nil, and a method named `init`
always gives its instance. -/
structure Yields (heap : Heap) (closure : Closure) (flow : Flow) (result : Value) : Prop where
  initializer : ∀ receiver, heap.Initializes closure receiver → result = .object receiver
  other : (∀ receiver, ¬ heap.Initializes closure receiver) → result = flow.value?.getD .nil

theorem Founded.isInitializer (founded : heap.Founded) (method : heap.MethodOf closure receiver) :
    closure.isInitializer = decide (closure.routine.name.text = initializerName) := by
  obtain ⟨owner, method, _, own, bound⟩ := method
  rw [bound.isInitializer, (founded.methods own).isInitializer]

theorem Founded.yields (founded : heap.Founded) (ready : heap.Ready closure) (flow : Flow) :
    heap.Yields closure flow (closure.result heap flow) where
  initializer receiver initializes := by
    obtain ⟨method, named⟩ := initializes
    have initializer : closure.isInitializer = true := by
      rw [founded.isInitializer method]
      exact decide_eq_true named
    obtain ⟨_, _, _, _, bound⟩ := method
    rw [Closure.result, if_pos initializer, bound.this]
    rfl
  other none := by
    have plain : closure.isInitializer ≠ true := by
      intro initializer
      obtain ⟨receiver, method⟩ := ready.bound initializer
      have named := (founded.isInitializer method).symm.trans initializer
      exact none receiver ⟨method, of_decide_eq_true named⟩
    rw [Closure.result, if_neg plain]

end Heap

namespace Chronicle

/-- Each value that a statement returns ends the innermost call, of the body of which the statement is part,
and each call gives what its body ends with. -/
structure Record.ReturnsEndCalls (record : Record) : Prop where
  consumed : ∀ {later before tree value machine},
    record.events = later ++ .ended (.execute tree) (.flow (.returned value)) machine :: before →
    ∃ closure callers, inProgress before = closure :: callers ∧
      tree ∈ Stmt.allInner closure.routine.body ∧
      ∃ rest arguments result last ends,
        later = rest ++ .ended (.invoke closure arguments) (.value result) last :: ends ∧
        PassOn value closure ends ∧ last.heap.Yields closure (.returned value) result
  given : ∀ {later before line tree value machine}, record.events =
      later ++ .ended (.execute (.return line tree)) (.flow (.returned value)) machine :: before →
    Gives value before tree
  result : ∀ {later before closure arguments result machine},
    record.events = later ++ .ended (.invoke closure arguments) (.value result) machine :: before →
    ∃ flow last callers, inProgress before = closure :: callers ∧
      before.head? = some (.ended (.executeAll closure.routine.body) (.flow flow) last) ∧
      machine.heap.Yields closure flow result

/-- Outside of runs events are in order and no call is in progress. -/
theorem orderly_invariant :
    Record.Invariant fun record => Orderly none record.events ∧ inProgress record.events = [] where
  start _ := ⟨.start, rfl⟩
  proceed {record} setting fuel {_ _ program} good accepted := by
    have returnless := resolve_returnless (checkSource_ok accepted).2
    have lands := interpret_continues setting fuel returnless record good.1 good.2
    unfold Record.proceed
    cases ran : interpret setting fuel program.body record <;>
      · rw [ran] at lands
        exact lands
  sink _ good := good

theorem Orderly.returnsEndCalls {record : Record} (orderly : Orderly none record.events)
    (founded : record.Founded) : record.ReturnsEndCalls where
  consumed {later before tree value machine} same := by
    rw [same] at orderly
    obtain ⟨closure, callers, innermost, inside, rest, arguments, last, ends, rfl, passed⟩ :=
      orderly.consumed
    have written : .ended (.invoke closure arguments)
        (.value (closure.result last.heap (.returned value))) last ∈ record.events := by simp [same]
    have event := founded.events _ written
    exact ⟨closure, callers, innermost, inside, rest, arguments, _, last, ends, rfl, passed,
      event.machine.heap.yields (event.ready rfl) _⟩
  given same := by
    rw [same] at orderly
    exact orderly.given
  result {later before closure arguments result machine} same := by
    have written : .ended (.invoke closure arguments) (.value result) machine ∈ record.events := by
      simp [same]
    have event := founded.events _ written
    rw [same] at orderly
    obtain ⟨flow, last, callers, innermost, body, rfl⟩ := orderly.result
    exact ⟨flow, last, callers, innermost, body, event.machine.heap.yields (event.ready rfl) flow⟩

end Chronicle

open Chronicle

/-- Returned values do not escape. A statement at the top level of an accepted source never returns, in
whatever state it is executed, and in every run and every session returned values end calls. -/
theorem returns_end_calls (clock : Nat → Float) (fuel : Nat) :
    (∀ source first program, (checkSource source first).outcome = .ok program →
      ∀ tree ∈ program.body, ∀ setting fuel machine value after,
        Eval.execute setting fuel tree machine ≠ .ok (.returned value) after) ∧
    (∀ capacity source,
      let record := Record.ofRun clock fuel capacity source
      record.machine.sink.written = (run clock fuel capacity source).output ∧ record.ReturnsEndCalls) ∧
    ∀ sources,
      let record := Record.ofLines .start clock fuel sources []
      record.machine = (Session.start.runLines clock fuel sources).2.machine ∧
        record.ReturnsEndCalls := by
  refine ⟨?_, ?_, ?_⟩
  · intro source first program accepted tree member setting fuel machine value after
    have returnless := resolve_returnless (checkSource_ok accepted).2
    exact execute_normal setting fuel (returnless.part member) machine value after
  · intro capacity source
    have orderly := orderly_invariant.ofRun clock fuel capacity source
    exact ⟨Record.ofRun_output .., orderly.1.returnsEndCalls
      (Record.founded_invariant.ofRun clock fuel capacity source)⟩
  · intro sources
    have orderly : Orderly none (Record.ofLines .start clock fuel sources []).events ∧ _ :=
      orderly_invariant.ofLines clock fuel (orderly_invariant.start none) sources
    exact ⟨Record.ofLines_machine .., orderly.1.returnsEndCalls
      (Record.founded_invariant.ofLines clock fuel (Record.founded_invariant.start none) sources)⟩

/-- An initializer that returns out of a loop. -/
private def earlyReturn : String :=
  "class A { init() { while (true) { return; } } } print A();"

private def Chronicle.Event.returns : Event → Bool
  | .ended (.execute _) (.flow (.returned _)) _ => true
  | _ => false

theorem earlyReturn_ends_call : ∃ later before tree value machine,
    (Record.ofRun (fun _ => 0) 30 none earlyReturn).events =
      later ++ .ended (.execute tree) (.flow (.returned value)) machine :: before ∧
    ∃ closure callers, inProgress before = closure :: callers ∧
      tree ∈ Stmt.allInner closure.routine.body ∧
      ∃ rest arguments result last ends,
        later = rest ++ .ended (.invoke closure arguments) (.value result) last :: ends ∧
        PassOn value closure ends ∧ last.heap.Yields closure (.returned value) result := by
  have returns : (Record.ofRun (fun _ => 0) 30 none earlyReturn).events.any Event.returns = true := by
    decide +kernel
  obtain ⟨event, written, returned⟩ := List.any_eq_true.mp returns
  obtain ⟨later, before, same⟩ := List.append_of_mem written
  unfold Event.returns at returned
  split at returned
  · rename_i tree value machine
    exact ⟨later, before, tree, value, machine, same,
      ((returns_end_calls (fun _ => 0) 30).2.1 none earlyReturn).2.consumed same⟩
  · cases returned

end Lox
