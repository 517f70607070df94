import Lox.Proofs.Machine.Along

/-! Sinks that get full. As long as what a run prints fits into its sink, a limit changes nothing, and
where it does not fit any more the run stops, wherever it is, with what fits. -/

namespace Lox

theorem Sink.extract_append_of_le {written : ByteArray} (within : limit ≤ written.size)
    (more : ByteArray) : (written ++ more).extract 0 limit = written.extract 0 limit := by
  have nothing : more.extract (0 - written.size) (limit - written.size) = .empty := by
    rw [ByteArray.extract_eq_empty_iff]
    omega
  rw [ByteArray.extract_append, nothing, ByteArray.append_empty]

theorem Sink.extract_of_le {written : ByteArray} (within : written.size ≤ limit) :
    written.extract 0 limit = written := by
  rw [← ByteArray.extract_zero_size (b := written), ByteArray.extract_extract]
  simp [within]

theorem Sink.extract_append_of_ge {written : ByteArray} (within : written.size ≤ limit)
    (more : ByteArray) :
    (written ++ more).extract 0 limit = written ++ more.extract 0 (limit - written.size) := by
  rw [ByteArray.extract_append, extract_of_le within, Nat.zero_sub]

namespace Machine

/-- What was written stays written. -/
structure Extends (machine after : Machine) : Prop where
  capacity : after.sink.capacity = machine.sink.capacity
  written : ∃ more, after.sink.written = machine.sink.written ++ more

namespace Extends

variable {one two three : Machine}

theorem of_eq (same : two.sink = one.sink) : one.Extends two :=
  ⟨by rw [same], .empty, by rw [same, ByteArray.append_empty]⟩

theorem trans (first : Extends one two) (second : Extends two three) : Extends one three := by
  obtain ⟨more, written⟩ := first.written
  obtain ⟨more', written'⟩ := second.written
  refine ⟨second.capacity.trans first.capacity, more ++ more', ?_⟩
  rw [written', written, ByteArray.append_assoc]

theorem size_le (longer : Extends one two) : one.sink.written.size ≤ two.sink.written.size := by
  obtain ⟨more, written⟩ := longer.written
  rw [written, ByteArray.size_append]
  exact Nat.le_add_right ..

/-- The beginning of what is written does not change any more. -/
theorem extract_eq (longer : Extends one two) (within : limit ≤ one.sink.written.size) :
    two.sink.written.extract 0 limit = one.sink.written.extract 0 limit := by
  obtain ⟨more, written⟩ := longer.written
  rw [written, Sink.extract_append_of_le within]

theorem kept : Kept Extends where
  refl _ := of_eq rfl
  trans := trans
  newScope _ _ _ := of_eq rfl
  defineIn _ _ _ _ := of_eq rfl
  newFunction _ _ := of_eq rfl
  newClass _ _ := of_eq rfl
  newInstance _ _ := of_eq rfl
  setField _ _ _ _ := of_eq rfl
  readClock _ _ := of_eq rfl
  write _ _ := ⟨rfl, _, rfl⟩
  within longer := ⟨longer.capacity, longer.written⟩
  deeper longer := ⟨longer.capacity, longer.written⟩

end Extends

/-- The machine with a limit to what it can print. -/
def limited (limit : Nat) (machine : Machine) : Machine :=
  { machine with sink.capacity := some limit }

end Machine

namespace Eval

variable {α β : Type} {limit : Nat}

/-- The result of a step with a limit to what the machine can print. -/
def limited (limit : Nat) : EStateM.Result Halt Machine α → EStateM.Result Halt Machine α
  | .ok value after => .ok value (after.limited limit)
  | .error reason after => .error reason (after.limited limit)

/-- A step that a limit to the output leaves as it is, or else stops with the output that fits. -/
structure Truncates (limit : Nat) (step : Eval α) : Prop where
  longer : step.Along Machine.Extends
  fits : ∀ machine, machine.sink.capacity = none → (step.after machine).sink.written.size ≤ limit →
    step (machine.limited limit) = limited limit (step machine)
  stops : ∀ machine, machine.sink.capacity = none → machine.sink.written.size ≤ limit →
    limit < (step.after machine).sink.written.size → ∃ stopped,
      step (machine.limited limit) = .error .sinkFull stopped ∧
        stopped.sink.written = (step.after machine).sink.written.extract 0 limit

namespace Truncates

theorem printLine_eq (text : String) (machine : Machine) (unlimited : machine.sink.capacity = none) :
    Eval.printLine text machine = .ok () { machine with
      sink.written := machine.sink.written ++ (text ++ "\n").toUTF8 } := by
  simp [Eval.printLine, Sink.admits, Sink.write, unlimited]

/-- A step that has nothing to do with the sink. -/
theorem silent {step : Eval α} (same : ∀ machine, (step.after machine).sink = machine.sink)
    (blind : ∀ machine, step (machine.limited limit) = limited limit (step machine)) :
    Truncates limit step where
  longer machine := .of_eq (same machine)
  fits machine _ _ := blind machine
  stops machine _ fit overflow := by
    rw [same] at overflow
    omega

/-- A text is printed with its line break, of which either may be what does not fit. -/
theorem printLine (text : String) : Truncates limit (Eval.printLine text) where
  longer := Along.printLine Machine.Extends.kept text
  fits machine unlimited fit := by
    rw [Eval.after, printLine_eq text machine unlimited, ByteArray.size_append] at fit
    have stored : (text ++ "\n").toUTF8.extract 0 (limit - machine.sink.written.size) =
        (text ++ "\n").toUTF8 := Sink.extract_of_le (by omega)
    rw [printLine_eq text machine unlimited]
    simp only [Eval.printLine, Sink.admits, Sink.write, Machine.limited, stored, limited]
    exact if_pos (decide_eq_true fit)
  stops machine unlimited fit overflow := by
    simp only [Eval.after, printLine_eq text machine unlimited] at overflow ⊢
    rw [Sink.extract_append_of_ge fit]
    rw [ByteArray.size_append] at overflow
    simp only [Eval.printLine, Sink.admits, Sink.write, Machine.limited]
    have refused := Nat.not_le.mpr overflow
    exact ⟨_, if_neg (refused ∘ of_decide_eq_true), rfl⟩

theorem bind {step : Eval α} {later : α → Eval β} (first : Truncates limit step)
    (rest : ∀ value, Truncates limit (later value)) : Truncates limit (step >>= later) where
  longer := Along.bind Machine.Extends.kept first.longer fun value => (rest value).longer
  fits machine unlimited fit := by
    have longer := first.longer machine
    have same := first.fits machine unlimited
    unfold Eval.after at longer same fit
    cases ran : step machine with
    | error reason middle =>
      rw [bind_error ran] at fit ⊢
      rw [ran] at same
      exact bind_error (same fit)
    | ok value middle =>
      rw [ran] at same longer
      rw [bind_ok ran] at fit ⊢
      have further := (rest value).longer middle
      rw [bind_ok (same (Nat.le_trans further.size_le fit))]
      exact (rest value).fits middle (longer.capacity.trans unlimited) fit
  stops machine unlimited fit overflow := by
    have longer := first.longer machine
    have same := first.fits machine unlimited
    have stopped := first.stops machine unlimited fit
    unfold Eval.after at longer same stopped overflow ⊢
    cases ran : step machine with
    | error reason middle =>
      rw [bind_error ran] at overflow ⊢
      rw [ran] at stopped
      obtain ⟨last, halted, written⟩ := stopped overflow
      exact ⟨last, bind_error halted, written⟩
    | ok value middle =>
      rw [ran] at longer same stopped
      rw [bind_ok ran] at overflow ⊢
      have further := (rest value).longer middle
      by_cases room : middle.sink.written.size ≤ limit
      · rw [bind_ok (same room)]
        exact (rest value).stops middle (longer.capacity.trans unlimited) room overflow
      · obtain ⟨last, halted, written⟩ := stopped (Nat.lt_of_not_le room)
        refine ⟨last, bind_error halted, ?_⟩
        rw [written]
        exact (further.extract_eq (Nat.le_of_not_le room)).symm

theorem within (scope : ScopeRef) {step : Eval α} (inside : Truncates limit step) :
    Truncates limit (Eval.within scope step) where
  longer := Along.within Machine.Extends.kept scope inside.longer
  fits machine unlimited fit := by
    have same := inside.fits { machine with scope } unlimited
    have entered : { machine.limited limit with scope } = { machine with scope }.limited limit := rfl
    simp only [Eval.after, Eval.within, entered] at same fit ⊢
    cases ran : step { machine with scope } <;>
      · rw [ran] at same fit
        rw [same fit]
        rfl
  stops machine unlimited fit overflow := by
    have stopped := inside.stops { machine with scope } unlimited fit
    have entered : { machine.limited limit with scope } = { machine with scope }.limited limit := rfl
    simp only [Eval.after, Eval.within, entered] at stopped overflow ⊢
    cases ran : step { machine with scope } <;>
      · rw [ran] at stopped overflow
        obtain ⟨last, halted, written⟩ := stopped overflow
        rw [halted]
        exact ⟨_, rfl, written⟩

theorem deeper (line : Nat) {step : Eval α} (inside : Truncates limit step) :
    Truncates limit (Eval.deeper line step) where
  longer := Along.deeper Machine.Extends.kept line inside.longer
  fits machine unlimited fit := by
    have same := inside.fits { machine with depth := machine.depth + 1 } unlimited
    have counted : (machine.limited limit).depth = machine.depth := rfl
    by_cases room : machine.depth < maxDepth
    · simp only [Eval.after, Eval.deeper, counted, if_pos room] at same fit ⊢
      cases ran : step { machine with depth := machine.depth + 1 } <;>
        · rw [ran] at same fit
          have same := same fit
          unfold Machine.limited at same ⊢
          rw [same]
          rfl
    · simp only [Eval.deeper, counted, if_neg room]
      rfl
  stops machine unlimited fit overflow := by
    have stopped := inside.stops { machine with depth := machine.depth + 1 } unlimited fit
    have counted : (machine.limited limit).depth = machine.depth := rfl
    by_cases room : machine.depth < maxDepth
    · simp only [Eval.after, Eval.deeper, counted, if_pos room] at stopped overflow ⊢
      cases ran : step { machine with depth := machine.depth + 1 } <;>
        · rw [ran] at stopped overflow
          obtain ⟨last, halted, written⟩ := stopped overflow
          unfold Machine.limited at halted ⊢
          rw [halted]
          exact ⟨_, rfl, written⟩
    · simp only [Eval.after, Eval.deeper, if_neg room] at overflow
      exact absurd overflow (Nat.not_lt.mpr fit)

theorem composed {step : Eval α} (composed : step.Composed) : Truncates limit step := by
  induction composed with
  | bind _ _ first rest => exact bind first rest
  | printLine text => exact printLine text
  | _ => exact silent (fun _ => rfl) fun _ => rfl

theorem relating : Relating fun α (step _ : Eval α) => Truncates limit step where
  pure _ := composed (.pure _)
  bind := bind
  step := composed
  within scope _ _ inside := within scope inside
  deeper line _ _ inside := deeper line inside

end Truncates

theorem interpret_truncates (limit : Nat) (setting : Setting) (fuel : Nat) (body : List Stmt) :
    Truncates limit (interpret setting fuel body) := by
  rw [interpret_eq]
  exact Truncates.relating.interpret (parts_related Truncates.relating setting fuel) body

end Eval

namespace Machine

variable {machine : Machine} (unlimited : machine.sink.capacity = none) {setting : Setting}
  {fuel : Nat} {body : List Stmt}

include unlimited

theorem interpret_fits
    (fit : (machine.interpret setting fuel body).2.sink.written.size ≤ limit) :
    (machine.limited limit).interpret setting fuel body =
      ((machine.interpret setting fuel body).1,
        (machine.interpret setting fuel body).2.limited limit) := by
  have same := (Eval.interpret_truncates limit setting fuel body).fits machine unlimited
  unfold Machine.interpret Eval.after at *
  cases ran : Eval.interpret setting fuel body machine <;>
    · rw [ran] at same fit
      rw [same fit]
      rfl

theorem interpret_stops (fit : machine.sink.written.size ≤ limit)
    (overflow : limit < (machine.interpret setting fuel body).2.sink.written.size) :
    ∃ stopped, (machine.limited limit).interpret setting fuel body =
        (.stopped .sinkFull, stopped) ∧
      stopped.sink.written =
        (machine.interpret setting fuel body).2.sink.written.extract 0 limit := by
  have stopped := (Eval.interpret_truncates limit setting fuel body).stops machine unlimited fit
  unfold Machine.interpret Eval.after at *
  cases ran : Eval.interpret setting fuel body machine <;>
    · rw [ran] at stopped overflow
      obtain ⟨last, halted, written⟩ := stopped overflow
      rw [halted]
      exact ⟨last, rfl, written⟩

end Machine

/-- A full sink truncates the output and stops the run, and it does nothing else. A run that prints no
more than the sink takes is the same with an unlimited sink. Of any other run the output is cut right
there, within a line or after it, and the one thing that is reported is that the sink is full. -/
theorem run_truncated (clock : Nat → Float) (fuel limit : Nat) (source : String) :
    let whole := run clock fuel none source
    let cut := run clock fuel (some limit) source
    (whole.output.size ≤ limit → cut = whole) ∧
    (limit < whole.output.size →
      cut.output = whole.output.extract 0 limit ∧ cut.ending = .stopped .sinkFull) := by
  unfold run
  cases (checkSource source 0).outcome with
  | error reports => exact ⟨fun _ => rfl, nofun⟩
  | ok program =>
    have start : Machine.start (some limit) = (Machine.start none).limited limit := rfl
    dsimp only
    rw [start]
    constructor
    · intro fit
      rw [Machine.interpret_fits rfl fit]
      rfl
    · intro overflow
      obtain ⟨stopped, ran, written⟩ := Machine.interpret_stops rfl (Nat.zero_le _) overflow
      rw [ran]
      exact ⟨written, rfl⟩

/-- A loop in a function that prints lines of three bytes. -/
private def endlessLines : String :=
  "fun f() { while (true) { print 12; } } f();"

theorem endlessLines_truncated :
    4 < (run (fun _ => 0) 40 none endlessLines).output.size ∧
    (run (fun _ => 0) 40 (some 4) endlessLines).output = (run (fun _ => 0) 40 none endlessLines).output.extract 0 4 ∧
    (run (fun _ => 0) 40 (some 4) endlessLines).ending = .stopped .sinkFull := by
  have overflow : 4 < (run (fun _ => 0) 40 none endlessLines).output.size := by decide +kernel
  exact ⟨overflow, (run_truncated (fun _ => 0) 40 4 endlessLines).2 overflow⟩

end Lox
