import Lox.Proofs.Machine.Truncated
import Lox.Proofs.Program.Alike
import Lox.Proofs.Program.Relabelled

/-! Layout. Blanks, comments and line breaks between tokens decide on the lines of tokens only, and lines
are told to the user and have no other effect. -/

namespace Lox

/-- The report with no regard to its line. -/
def Report.withoutLine : Report → Report
  | lexical error => lexical { error with line := 0 }
  | syntactic error => syntactic { error with token.line := 0 }
  | scope error => scope { error with name.line := 0 }
  | runtime error => runtime { error with line := 0 }
  | sinkFull => sinkFull

/-- The ending with no regard to the lines that are reported. -/
def Ending.withoutLines : Ending → Ending
  | rejected reports => rejected (reports.map Report.withoutLine)
  | stopped report => stopped report.withoutLine
  | done => done
  | unfinished => unfinished

/-- The same identifiers, and any lines. -/
def Pairing.layout : Pairing where
  ids := Eq
  lines _ _ := True

theorem Pairing.layout_oneToOne : Pairing.layout.OneToOne := by
  constructor
  rintro one _ two _ rfl rfl
  rfl

theorem Report.Alike.withoutLine_eq (alike : Report.Alike pairing report other) :
    report.withoutLine = other.withoutLine := by
  cases alike with
  | lexical same => simp only [withoutLine, same.fault]
  | syntactic same => simp only [withoutLine, same.fault, same.token.kind, same.token.lexeme]
  | scope same => simp only [withoutLine, same.fault, same.name.text]

theorem Ending.Alike.withoutLines_eq (alike : Ending.Alike lines ending other) :
    ending.withoutLines = other.withoutLines := by
  cases alike <;> rfl

theorem LexFault.message_ne (char : Char) :
    "Unexpected character: " ++ char.toString ≠ "Unterminated string." := by
  intro same
  have long : "Unexpected character: ".length = 22 := by decide +kernel
  have short : "Unterminated string.".length = 20 := by decide +kernel
  have longer := congrArg String.length same
  rw [String.length_append] at longer
  omega

/-- The message tells one fault from another. -/
theorem LexFault.message_injective {fault other : LexFault}
    (same : fault.message = other.message) : fault = other := by
  unfold LexFault.message at same
  split at same
  · split at same
    · simpa using same
    · exact absurd same (message_ne _)
  · split at same
    · exact absurd same.symm (message_ne _)
    · rfl

variable {source other : String}

theorem Scan.alike_of_map
    (tokens : (ofSource source).tokens.map (fun token => (token.kind, token.lexeme)) =
      (ofSource other).tokens.map fun token => (token.kind, token.lexeme))
    (errors : (ofSource source).errors.map (·.fault.message) =
      (ofSource other).errors.map (·.fault.message)) :
    Scan.Alike .layout (ofSource source) (ofSource other) := by
  rw [← List.forall₂_eq_eq_eq, List.forall₂_map_left_iff, List.forall₂_map_right_iff] at tokens errors
  constructor
  · exact tokens.imp fun _ _ same => ⟨congrArg Prod.fst same, congrArg Prod.snd same, trivial⟩
  · exact errors.imp fun _ _ same => ⟨LexFault.message_injective same, trivial⟩

theorem Machine.interpret_layout (same : Program.Alike .layout program program')
    (clock : Nat → Float) (fuel : Nat) (capacity : Option Nat) :
    let ran := (start capacity).interpret ⟨program.distances, clock⟩ fuel program.body
    let ran' := (start capacity).interpret ⟨program'.distances, clock⟩ fuel program'.body
    ran.2.sink.written = ran'.2.sink.written ∧ ran.1.withoutLines = ran'.1.withoutLines := by
  have settings : Setting.Alike .layout ⟨program.distances, clock⟩ ⟨program'.distances, clock⟩ :=
    ⟨same.distances, rfl⟩
  obtain ⟨ending, after⟩ := Alike.start.interpret settings fuel same.body
  have written := after.sink.written
  rw [ByteArray.empty_append] at written
  cases capacity with
  | none => exact ⟨written.symm, ending.withoutLines_eq⟩
  | some limit =>
    have limited : start (some limit) = (start none).limited limit := rfl
    dsimp only
    rw [limited]
    by_cases fit : ((start none).interpret ⟨program.distances, clock⟩ fuel
        program.body).2.sink.written.size ≤ limit
    · rw [interpret_fits rfl fit, interpret_fits rfl (written ▸ fit)]
      exact ⟨written.symm, ending.withoutLines_eq⟩
    · have overflow := Nat.lt_of_not_le fit
      obtain ⟨stopped, ran, shown⟩ := interpret_stops rfl (Nat.zero_le _) overflow
      obtain ⟨stopped', ran', shown'⟩ := interpret_stops rfl (Nat.zero_le _) (written ▸ overflow)
      rw [ran, ran']
      exact ⟨by rw [shown, shown', written], rfl⟩

/-- Layout and line numbers never influence what a program does. If two sources have the same tokens and
the same lexical errors but for their lines, they print the same and end in the same way, and what is
reported on them is the same but for its lines. -/
theorem run_layout (tokens : (Scan.ofSource source).tokens.map (fun token => (token.kind, token.lexeme)) =
      (Scan.ofSource other).tokens.map fun token => (token.kind, token.lexeme))
    (errors : (Scan.ofSource source).errors.map (·.fault.message) =
      (Scan.ofSource other).errors.map (·.fault.message))
    (clock : Nat → Float) (fuel : Nat) (capacity : Option Nat) :
    (run clock fuel capacity source).output = (run clock fuel capacity other).output ∧
    (run clock fuel capacity source).ending.withoutLines =
      (run clock fuel capacity other).ending.withoutLines := by
  obtain ⟨judged, -⟩ := checkSource_alike Pairing.layout_oneToOne (Scan.alike_of_map tokens errors)
    trivial fun count => Eq.refl (0 + count)
  unfold run
  generalize (checkSource source 0).outcome = result at judged ⊢
  generalize (checkSource other 0).outcome = result' at judged ⊢
  cases judged with
  | rejected reports =>
    refine ⟨rfl, congrArg Ending.rejected ?_⟩
    rw [← List.forall₂_eq_eq_eq, List.forall₂_map_left_iff, List.forall₂_map_right_iff]
    exact reports.imp fun _ _ => Report.Alike.withoutLine_eq
  | accepted same => exact Machine.interpret_layout same clock fuel capacity

/-- A faulty program in one line. -/
private def dense : String :=
  "fun f(x){return -x;}print 1;f(nil);"

/-- The same program in several lines with comments. -/
private def spread : String :=
  "// A faulty program.\nfun f(x)\n  { return -x; }\nprint 1;\nf(nil); // The fault."

theorem dense_layout :
    (run (fun _ => 0) 40 none dense).output = (run (fun _ => 0) 40 none spread).output ∧
    (run (fun _ => 0) 40 none dense).ending.withoutLines =
      (run (fun _ => 0) 40 none spread).ending.withoutLines :=
  run_layout (by decide +kernel) (by decide +kernel) (fun _ => 0) 40 none

end Lox
