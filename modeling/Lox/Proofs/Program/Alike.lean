import Lox.Program
import Lox.Proofs.Machine.Labels

/-! Runs of alike programs. They end alike: if one is stopped, so is the other, for the same reason and
on a line that stands for the line of the first. -/

namespace Lox

/-- Endings that are the same up to the line of a fault. -/
inductive Ending.Alike (lines : Nat → Nat → Prop) : Ending → Ending → Prop where
  | done : Ending.Alike lines .done .done
  | unfinished : Ending.Alike lines .unfinished .unfinished
  | fault (reason : RuntimeFault) (line : lines here there) :
      Ending.Alike lines (.stopped (.runtime ⟨reason, here⟩)) (.stopped (.runtime ⟨reason, there⟩))
  | sinkFull : Ending.Alike lines (.stopped .sinkFull) (.stopped .sinkFull)

variable {pairing : Pairing}

namespace Ending.Alike

theorem ofHalt (alike : Halt.Alike pairing reason reason') :
    Ending.Alike pairing.lines (.ofHalt reason) (.ofHalt reason') := by
  cases alike with
  | fault reason line => exact .fault reason line
  | sinkFull => exact .sinkFull
  | outOfFuel => exact .unfinished

theorem eq (alike : Ending.Alike Eq ending other) : ending = other := by
  cases alike with
  | fault reason line => rw [line]
  | _ => rfl

end Ending.Alike

namespace Machine

variable {machine other : Machine}

theorem Alike.interpret (alike : Machine.Alike pairing before machine other)
    (settings : Setting.Alike pairing setting setting') (fuel : Nat)
    (same : Stmt.AllAlike pairing body body') :
    Ending.Alike pairing.lines (machine.interpret setting fuel body).1
        (other.interpret setting' fuel body').1 ∧
      Machine.Alike pairing before (machine.interpret setting fuel body).2
        (other.interpret setting' fuel body').2 := by
  have ends := Eval.interpret_alike settings fuel same machine other alike
  unfold Machine.interpret
  generalize Eval.interpret setting fuel body machine = result at ends ⊢
  generalize Eval.interpret setting' fuel body' other = result' at ends ⊢
  cases ends with
  | ok _ after => exact ⟨.done, after⟩
  | error reason after => exact ⟨.ofHalt reason, after⟩

end Machine

namespace Machine

variable (machine : Machine) (setting : Setting) (fuel : Nat)

end Machine

end Lox
