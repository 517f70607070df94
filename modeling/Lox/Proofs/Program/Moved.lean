import Lox.Proofs.Program.Relabelled

/-! Sources checked with other identifiers. Where the identifiers start does not matter to what a source
is reported for, and moves its statements and its table. -/

namespace Lox

/-- Identifiers that are apart by an offset, on the same lines. -/
def Pairing.shift (offset : Nat) : Pairing where
  ids id other := other = id + offset
  lines := Eq

/-- Checks that hand out as many identifiers and of which the results are related, or else the
reports the same. -/
inductive Checked.Moved {α : Type} (offset : Nat) (related : α → α → Prop) :
    Checked α → Checked α → Prop where
  | accepted (same : related result result') (next : NodeId) :
      Moved offset related ⟨.ok result, next⟩ ⟨.ok result', next + offset⟩
  | rejected (reports : List Report) (next : NodeId) :
      Moved offset related ⟨.error reports, next⟩ ⟨.error reports, next + offset⟩

variable {offset : Nat}

theorem Pairing.shift_oneToOne : (Pairing.shift offset).OneToOne := by
  constructor
  rintro one _ two _ rfl rfl
  exact Nat.add_right_cancel_iff.symm

section Unmoved

variable {pairing : Pairing} (same : pairing.lines = Eq)

include same

theorem Name.Alike.eq (alike : Name.Alike pairing name other) : name = other := by
  obtain ⟨text, line⟩ := alike
  rw [same] at line
  cases name
  cases other
  exact congrArg₂ Name.mk text line

theorem Token.Alike.eq (alike : Token.Alike pairing token other) : token = other := by
  obtain ⟨kind, lexeme, line⟩ := alike
  rw [same] at line
  cases token
  cases other
  simp_all

/-- Reports that are alike are the same where lines are. -/
theorem Report.Alike.eq (alike : Report.Alike pairing report other) : report = other := by
  cases alike with
  | lexical alike =>
    obtain ⟨fault, line⟩ := alike
    rw [same] at line
    exact congrArg Report.lexical (congrArg₂ LexError.mk fault line)
  | syntactic alike =>
    exact congrArg Report.syntactic (congrArg₂ SyntaxError.mk alike.fault (alike.token.eq same))
  | scope alike =>
    exact congrArg Report.scope (congrArg₂ ScopeError.mk alike.fault (alike.name.eq same))

end Unmoved

theorem Scan.Alike.refl (scan : Scan) : Scan.Alike (Pairing.shift offset) scan scan :=
  ⟨List.forall₂_same.mpr fun _ _ => ⟨rfl, rfl, rfl⟩, List.forall₂_same.mpr fun _ _ => ⟨rfl, rfl⟩⟩

theorem checkSource_moved (offset : Nat) (source : String) (first : NodeId) :
    (checkSource source first).Moved offset (Program.Alike (Pairing.shift offset))
      (checkSource source (first + offset)) := by
  have apart (count : Nat) : first + offset + count = first + count + offset := Nat.add_right_comm ..
  obtain ⟨outcome, ids⟩ := checkSource_alike Pairing.shift_oneToOne (.refl _) rfl apart
  generalize checkSource source first = one at outcome ids ⊢
  generalize checkSource source (first + offset) = two at outcome ids ⊢
  obtain ⟨result, next⟩ := one
  obtain ⟨result', next'⟩ := two
  obtain rfl : next' = next + offset := ids 0
  cases outcome with
  | accepted same => exact .accepted same next
  | rejected reports =>
    have same := List.forall₂_eq_eq_eq ▸ reports.imp fun _ _ => Report.Alike.eq rfl
    exact same ▸ .rejected _ next

/-- A source uses up as many identifiers wherever they start. -/
theorem checkSource_nextId (source : String) (first : NodeId) :
    (checkSource source first).nextId = (checkSource source 0).nextId + first := by
  have moved := checkSource_moved first source 0
  rw [Nat.zero_add] at moved
  generalize checkSource source 0 = one at moved ⊢
  generalize checkSource source first = two at moved ⊢
  cases moved <;> rfl

/-- What a source is reported for does not depend on where its identifiers start. -/
theorem checkSource_rejected (rejected : (checkSource source first).outcome = .error reports)
    (other : NodeId) : (checkSource source other).outcome = .error reports := by
  have moved := checkSource_moved first source 0
  have moved' := checkSource_moved other source 0
  rw [Nat.zero_add] at moved moved'
  generalize checkSource source 0 = start at moved moved'
  generalize checkSource source first = one at rejected moved
  generalize checkSource source other = two at moved' ⊢
  cases moved with
  | accepted => cases rejected
  | rejected others next =>
    cases rejected
    cases moved'
    rfl

end Lox
