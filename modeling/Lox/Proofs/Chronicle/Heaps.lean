import Lox.Proofs.Chronicle.Program
import Lox.Proofs.Heap.Chains

/-! The heaps of a run, point by point. From any point to any later one of a run or of a session what exists
stays as it is, and at every point the links lead to what is older. -/

namespace Lox.Chronicle

open Course (Task)

namespace Record

/-- From any point to any later one what exists stays as it is. -/
def Settled (record : Record) : Prop :=
  record.heaps.Pairwise fun later earlier => earlier.Stays later

variable {record : Record}

namespace Settled

theorem change (settled : record.Settled) {after : Machine}
    (stays : record.machine.heap.Stays after.heap) : Settled { record with machine := after } := by
  obtain ⟨now, before⟩ := List.pairwise_cons.mp settled
  exact List.pairwise_cons.mpr ⟨fun heap member => (now heap member).trans stays, before⟩

theorem note (settled : record.Settled) (here : event.machine = record.machine) :
    (record.note event).Settled := by
  unfold Settled
  rw [heaps_note here]
  refine List.pairwise_cons.mpr ⟨?_, settled⟩
  intro heap member
  rcases List.mem_cons.mp member with rfl | member
  · exact .refl _
  · exact List.rel_of_pairwise_cons settled member

end Settled

end Record

/-- A step from a settled record to a settled one. -/
def Settles (chronicle : Chronicle α) : Prop :=
  ∀ record : Record, record.Settled → (ended (chronicle record)).Settled

namespace Settles

variable {α β : Type}

theorem bind {chronicle : Chronicle α} {later : α → Chronicle β} (first : Settles chronicle)
    (rest : ∀ value, Settles (later value)) : Settles (chronicle >>= later) := by
  intro record settled
  have here := first record settled
  cases ran : chronicle record with
  | ok value middle =>
    rw [ran] at here
    rw [bind_ok ran]
    exact rest value middle here
  | error reason middle =>
    rw [ran] at here
    rw [bind_error ran]
    exact here

theorem step {single : Eval α} (composed : single.Composed) : Settles (Host.step single) := by
  intro record settled
  have stays := Eval.Along.composed Heap.Stays.kept composed record.machine
  change (ended (lift single record)).Settled
  unfold Eval.after at stays
  unfold lift
  cases ran : single record.machine <;>
    · rw [ran] at stays
      exact settled.change stays

theorem within (scope : ScopeRef) {chronicle : Chronicle α} (inside : Settles chronicle) :
    Settles (within scope chronicle) := by
  intro record settled
  unfold Chronicle.within
  rw [ended_conclude]
  exact inside { record with machine.scope := scope } settled

theorem deeper (line : Nat) {chronicle : Chronicle α} (inside : Settles chronicle) :
    Settles (deeper line chronicle) := by
  intro record settled
  by_cases room : record.machine.depth < maxDepth
  · simp only [Chronicle.deeper, if_pos room, ended_conclude]
    exact inside { record with machine.depth := record.machine.depth + 1 } settled
  · simp only [Chronicle.deeper, if_neg room]
    exact settled

theorem observe (task : Task) (result : α → Result) {chronicle : Chronicle α}
    (inside : Settles chronicle) : Settles (observe task result chronicle) := by
  intro record settled
  have begun : (record.note (.began task record.machine)).Settled := settled.note rfl
  have here := inside _ begun
  unfold Chronicle.observe
  cases ran : chronicle (record.note (.began task record.machine)) <;>
    · rw [ran] at here
      exact here.note rfl

theorem relating : Relating fun α (chronicle : Chronicle α) (_ : Eval α) => Settles chronicle where
  pure _ _ settled := settled
  bind := bind
  step := step
  within scope _ _ inside := within scope inside
  deeper line _ _ inside := deeper line inside

end Settles

theorem interpret_settles (setting : Setting) (fuel : Nat) (body : List Stmt) :
    Settles (interpret setting fuel body) :=
  Settles.relating.interpret
    (parts_related Settles.relating (fun task result _ _ => Settles.observe task result) setting fuel) body

/-- Runs and sessions are settled all along. -/
theorem settled_invariant : Record.Invariant Record.Settled where
  start _ := List.pairwise_singleton ..
  proceed setting fuel _ _ _ settled _ := interpret_settles setting fuel _ _ settled
  sink _ settled := settled

theorem Record.Founded.acyclic {record : Record} (founded : record.Founded) :
    ∀ heap ∈ record.heaps, heap.Acyclic :=
  fun heap member => (founded.all heap member).acyclic

end Lox.Chronicle

namespace Lox

open Chronicle

/-- In every run and in every session what exists in the heap stays as it is from any point to any later
one, and at every point links lead to what is older, so ways along them end. -/
theorem heap_invariant (clock : Nat → Float) (fuel : Nat) :
    (∀ capacity source,
      let record := Record.ofRun clock fuel capacity source
      record.machine.sink.written = (run clock fuel capacity source).output ∧
        record.Settled ∧ ∀ heap ∈ record.heaps, heap.Acyclic) ∧
    ∀ sources,
      let record := Record.ofLines .start clock fuel sources []
      record.machine = (Session.start.runLines clock fuel sources).2.machine ∧
        record.Settled ∧ ∀ heap ∈ record.heaps, heap.Acyclic := by
  constructor
  · intro capacity source
    exact ⟨Record.ofRun_output .., settled_invariant.ofRun clock fuel capacity source,
      (Record.founded_invariant.ofRun clock fuel capacity source).acyclic⟩
  · intro sources
    have settled := settled_invariant.start none
    have founded := Record.founded_invariant.start none
    exact ⟨Record.ofLines_machine .., settled_invariant.ofLines clock fuel settled sources,
      (Record.founded_invariant.ofLines clock fuel founded sources).acyclic⟩

/-- A class that extends one of which the superclass had the same name. -/
private def redeclared : List String :=
  ["class A {} class B < A {} var b = B();", "class A < B {} { fun f() { return b; } b = f; }"]

theorem redeclared_acyclic :
    ∃ heap ∈ (Record.ofLines .start (fun _ => 0) 30 redeclared []).heaps,
      heap.classes.size = 3 ∧ ∃ chain, heap.Upward ⟨2⟩ chain := by
  have declared : (Record.ofLines .start (fun _ => 0) 30 redeclared []).heaps.any
      (fun heap => heap.classes.size == 3) = true := by decide +kernel
  obtain ⟨heap, member, size⟩ := List.any_eq_true.mp declared
  have three : heap.classes.size = 3 := by simpa using size
  have acyclic := ((heap_invariant (fun _ => 0) 30).2 redeclared).2.2 heap member
  exact ⟨heap, member, three, acyclic.upward ⟨2⟩ (by rw [three]; exact Nat.lt_succ_self 2)⟩

end Lox
