import Lox.Proofs.Machine.Truncated

/-! What evaluation raises. However deep in a program a run is halted, there is a fault of the program
to report, or a text that was printed did not fit into the sink, or the steps granted are used up. -/

namespace Lox

/-- A sink in which nothing more fits. -/
def Sink.Full (sink : Sink) : Prop :=
  ∃ capacity, sink.capacity = some capacity ∧ capacity ≤ sink.written.size

/-- What is reported of a run that leaves its output in a sink. -/
inductive Report.Raised (sink : Sink) : Report → Prop where
  | runtime (error : RuntimeError) : Raised sink (.runtime error)
  | sinkFull (full : sink.Full) : Raised sink .sinkFull

theorem Report.Raised.not_static (raised : Report.Raised sink report) : report.isStatic = false := by
  cases raised <;> rfl

theorem Sink.full_of_not_admits {sink : Sink} (refused : sink.admits bytes = false) :
    (sink.write bytes).Full := by
  cases limited : sink.capacity with
  | none => simp [admits, limited] at refused
  | some capacity =>
    simp only [admits, limited, decide_eq_false_iff_not] at refused
    refine ⟨capacity, limited, ?_⟩
    simp only [write, limited, ByteArray.size_append, ByteArray.size_extract]
    omega

namespace Eval

variable {α β : Type}

/-- A step that is halted for what is reported of a run only, unless it is not over. -/
def Raises (step : Eval α) : Prop :=
  ∀ machine reason after, step machine = .error reason after →
    reason = .outOfFuel ∨ ∃ report, Ending.ofHalt reason = .stopped report ∧ report.Raised after.sink

namespace Raises

theorem halt (reason : Halt) (other : reason ≠ .sinkFull) : Raises (Eval.halt reason : Eval α) := by
  rintro machine _ after ⟨⟩
  cases reason with
  | fault error => exact .inr ⟨_, rfl, .runtime error⟩
  | sinkFull => exact absurd rfl other
  | outOfFuel => exact .inl rfl

theorem fault (reason : RuntimeFault) (line : Nat) : Raises (Eval.fault reason line : Eval α) :=
  halt _ nofun

theorem printLine (text : String) : Raises (Eval.printLine text) := by
  intro machine reason after ran
  cases admitted : machine.sink.admits (text ++ "\n").toUTF8 with
  | true =>
    simp only [Eval.printLine, admitted] at ran
    cases ran
  | false =>
    simp only [Eval.printLine, admitted] at ran
    cases ran
    exact .inr ⟨_, rfl, .sinkFull (Sink.full_of_not_admits admitted)⟩

theorem bind {step : Eval α} {later : α → Eval β} (first : Raises step)
    (rest : ∀ value, Raises (later value)) : Raises (step >>= later) := by
  intro machine reason after ran
  rcases bind_eq_error ran with begun | ⟨value, middle, _, ended⟩
  · exact first machine _ _ begun
  · exact rest value middle reason after ended

theorem within (scope : ScopeRef) {step : Eval α} (inside : Raises step) :
    Raises (Eval.within scope step) := by
  intro machine reason after ran
  simp only [Eval.within] at ran
  cases begun : step { machine with scope } with
  | ok value middle =>
    rw [begun] at ran
    cases ran
  | error reason' middle =>
    rw [begun] at ran
    cases ran
    exact inside _ _ middle begun

theorem deeper (line : Nat) {step : Eval α} (inside : Raises step) :
    Raises (Eval.deeper line step) := by
  intro machine reason after ran
  by_cases room : machine.depth < maxDepth
  · simp only [Eval.deeper, if_pos room] at ran
    cases begun : step { machine with depth := machine.depth + 1 } with
    | ok value middle =>
      rw [begun] at ran
      cases ran
    | error reason' middle =>
      rw [begun] at ran
      cases ran
      exact inside _ _ middle begun
  · simp only [Eval.deeper, if_neg room] at ran
    exact fault .stackOverflow line machine reason after ran

theorem composed {step : Eval α} (composed : step.Composed) : Raises step := by
  induction composed with
  | halt reason other => exact halt reason other
  | bind _ _ first rest => exact bind first rest
  | printLine text => exact printLine text
  | _ => exact fun _ _ _ => nofun

theorem relating : Relating fun α (step _ : Eval α) => Raises step where
  pure _ := composed (.pure _)
  bind := bind
  step := composed
  within scope _ _ inside := within scope inside
  deeper line _ _ inside := deeper line inside

end Raises

/-- Whatever is evaluated, with however many steps. -/
theorem parts_raise (setting : Setting) (fuel : Nat) :
    (parts setting fuel).Related (fun _ step _ => Raises step) (parts setting fuel) :=
  parts_related Raises.relating setting fuel

theorem interpret_raises (setting : Setting) (fuel : Nat) (body : List Stmt) :
    Raises (interpret setting fuel body) := by
  rw [interpret_eq]
  exact Raises.relating.interpret (parts_raise setting fuel) body

end Eval

/-- A run that is stopped is stopped by what its evaluation raised. -/
theorem Machine.interpret_stopped {machine : Machine} {setting : Setting}
    (stopped : (machine.interpret setting fuel body).1 = .stopped report) :
    report.Raised ⟨(machine.interpret setting fuel body).2.sink.written, machine.sink.capacity⟩ := by
  have longer := Eval.interpret_along Machine.Extends.kept setting fuel body machine
  have raises := Eval.interpret_raises setting fuel body machine
  unfold Machine.interpret Eval.after at *
  cases ran : Eval.interpret setting fuel body machine with
  | ok value after =>
    rw [ran] at stopped
    cases stopped
  | error reason after =>
    rw [ran] at stopped longer
    rw [← longer.capacity]
    rcases raises reason after ran with rfl | ⟨_, same, raised⟩
    · cases stopped
    · cases same.symm.trans stopped
      exact raised

/-- No run of statements rejects them. -/
theorem Machine.interpret_not_rejected (machine : Machine) (setting : Setting) (fuel : Nat) (body : List Stmt)
    (reports : List Report) : (machine.interpret setting fuel body).1 ≠ .rejected reports := by
  unfold Machine.interpret
  split
  · nofun
  · rename_i reason _ _
    cases reason <;> nofun

end Lox
