import Lox.Proofs.Grammar.Program
import Lox.Proofs.Parse.Settles
import Lox.Proofs.Program.Relabelled
import Lox.Proofs.Segment.Declaration

/-! Programs in segments, each of which ends in its only semicolon. A segment gives the errors and the
statements that it gives by itself, whatever fails before it or in it. -/

namespace Lox

/-- Trees that differ in their identifiers only. -/
def Pairing.upToIds : Pairing where
  ids _ _ := True
  lines line other := line = other

theorem SyntaxError.Alike.eq (same : SyntaxError.Alike .upToIds error other) : error = other := by
  obtain ⟨fault, token⟩ := error
  obtain ⟨kind, lexeme, line⟩ := token
  obtain ⟨rfl, rfl, rfl, rfl⟩ := same
  rfl

namespace Parse

variable {state : State} {tokens outer : List Token}

/-- The declarations that do not fail, and the errors. -/
def salvage (state : State) : List Stmt × List SyntaxError :=
  match program state with
  | .ok body after => (body, after.errors.toList)
  | .error error after => ([], (after.errors.push error).toList)

theorem salvage_ok (ran : program state = .ok body after) :
    salvage state = (body, after.errors.toList) := by
  unfold salvage
  rw [ran]

/-- Which identifiers are handed out counts neither for the errors nor for the shape of the trees. -/
theorem salvage_alike (tokens : List Token) (line : Nat) (first start : NodeId) :
    (salvage ⟨tokens, line, start, #[]⟩).2 = (salvage ⟨tokens, line, first, #[]⟩).2 ∧
      Stmt.AllAlike .upToIds (salvage ⟨tokens, line, start, #[]⟩).1
        (salvage ⟨tokens, line, first, #[]⟩).1 := by
  have alike : State.Alike .upToIds ⟨tokens, line, start, #[]⟩ ⟨tokens, line, first, #[]⟩ :=
    ⟨List.forall₂_same.mpr fun _ _ => ⟨rfl, rfl, rfl⟩, rfl, fun _ => trivial, .nil⟩
  have ends := program_relabels _ _ alike
  obtain ⟨body, after, ran, _⟩ := program_settles ⟨tokens, line, start, #[]⟩
  obtain ⟨body', after', ran', _⟩ := program_settles ⟨tokens, line, first, #[]⟩
  rw [ran, ran'] at ends
  rw [salvage_ok ran, salvage_ok ran']
  cases ends with
  | ok same after =>
    refine ⟨?_, same⟩
    rw [← List.forall₂_eq_eq_eq]
    exact after.errors.imp fun _ _ => SyntaxError.Alike.eq

/-- What a segment gives with more to come is what it gives by itself. -/
theorem segment_apart (segment : Segment tokens) (line : Nat) (rest : state.rest = tokens ++ outer)
    (next : ∀ token ∈ outer.head?, token.kind ≠ .terminal .kwElse) (depth : Nat) :
    ∃ first after, declarationWithin (depth + 2) state = .ok first after ∧ after.rest = outer ∧
      (salvage ⟨tokens, line, state.nextId, #[]⟩).1 = first.toList ∧
      after.errors.toList =
        state.errors.toList ++ (salvage ⟨tokens, line, state.nextId, #[]⟩).2 := by
  obtain ⟨fewer, length⟩ := Nat.exists_eq_add_one_of_ne_zero (mt List.length_eq_zero_iff.mp segment.more)
  have within : Within outer state.errors.toList ⟨tokens, line, state.nextId, #[]⟩ state :=
    ⟨rest, rfl, (List.append_nil _).symm⟩
  obtain ⟨first, alone, after, ran, run, done, within⟩ :=
    segment_agree within segment next fewer depth
  have whole : program ⟨tokens, line, state.nextId, #[]⟩ = .ok (first.toList ++ []) alone := by
    change declarationsWhile _ (declarationWithin (tokens.length + 1)) tokens.length _ = _
    rw [length, declarationsWhile_more (atEnd_more segment.more) ran,
      bind_ok (declarationsWhile_done (atEnd_done done) fewer)]
    rfl
  rw [salvage_ok whole, List.append_nil]
  refine ⟨first, after, run, ?_, rfl, within.errors⟩
  rw [within.rest, done, List.nil_append]

/-- By induction on the segments, of which the next one is passed over as it is by itself. -/
theorem segments_run {segments : List (List Token)} (each : ∀ segment ∈ segments, Segment segment)
    (line : Nat) (start : NodeId) (state : State) (tokens : state.rest = segments.flatten)
    (deep : segments.length < depth) (bounded : segments.length ≤ bound) :
    ∃ body after,
      declarationsWhile (not <$> atEnd) (declarationWithin depth) bound state = .ok body after ∧
      after.errors.toList = state.errors.toList ++
        segments.flatMap (fun segment => (salvage ⟨segment, line, start, #[]⟩).2) ∧
      Stmt.AllAlike .upToIds
        (segments.flatMap fun segment => (salvage ⟨segment, line, start, #[]⟩).1) body := by
  induction segments generalizing state bound with
  | nil =>
    exact ⟨[], state, declarationsWhile_done (atEnd_done tokens) bound, by simp, .nil⟩
  | cons segment segments ih =>
    have first := each segment (.head _)
    have others : ∀ segment ∈ segments, Segment segment := fun segment member =>
      each segment (.tail _ member)
    rw [List.length_cons] at deep bounded
    obtain ⟨depth, rfl⟩ := Nat.exists_eq_add_of_le' (show 2 ≤ depth by omega)
    obtain ⟨bound, rfl⟩ := Nat.exists_eq_add_of_le' (show 1 ≤ bound by omega)
    have more : state.rest ≠ [] := by simp [tokens, first.more]
    obtain ⟨tree, middle, ran, rest, same, errors⟩ :=
      segment_apart first line tokens (Segment.next others) depth
    have fewer : segments.length ≤ bound := by omega
    obtain ⟨body, after, run, further, trees⟩ := ih others middle rest (by omega) fewer
    -- By itself the segment hands out its identifiers from another one on.
    obtain ⟨equal, alike⟩ := salvage_alike segment line state.nextId start
    refine ⟨tree.toList ++ body, after, ?_, ?_, ?_⟩
    · rw [declarationsWhile_more (atEnd_more more) ran, bind_ok run]
      rfl
    · rw [further, errors, List.append_assoc, List.flatMap_cons, equal]
    · rw [List.flatMap_cons]
      exact .append (same ▸ alike) trees

end Parse

namespace Parsed

/-- The errors, if there are any. -/
def errors (parsed : Parsed) : List SyntaxError :=
  match parsed.program with
  | .ok _ => []
  | .error errors => errors

theorem program_eq (tokens : List Token) (first : NodeId) :
    (ofTokens tokens first).program =
      if (Parse.salvage (.start tokens first)).2 = [] then
        .ok (Parse.salvage (.start tokens first)).1
      else .error (Parse.salvage (.start tokens first)).2 := by
  obtain ⟨body, after, ran, _⟩ := Parse.program_settles (.start tokens first)
  rw [Parse.salvage_ok ran, ofTokens, ran]
  simp only [Array.isEmpty_iff, Array.toList_eq_nil_iff]

theorem errors_eq (tokens : List Token) (first : NodeId) :
    (ofTokens tokens first).errors = (Parse.salvage (.start tokens first)).2 := by
  rw [errors, program_eq]
  by_cases clean : (Parse.salvage (.start tokens first)).2 = []
  · rw [if_pos clean, clean]
  · rw [if_neg clean]

theorem accepted_iff (tokens : List Token) (first : NodeId) :
    (ofTokens tokens first).program = .ok body ↔
      (ofTokens tokens first).errors = [] ∧ (Parse.salvage (.start tokens first)).1 = body := by
  rw [errors_eq, program_eq]
  split <;> simp_all

theorem salvage_segments (segments : List (List Token)) (each : ∀ segment ∈ segments, Segment segment)
    (ends : last.kind = .eof) (ends' : other.kind = .eof) (first start : NodeId) :
    (Parse.salvage (.start (segments.flatten ++ [last]) first)).2 =
        segments.flatMap (fun segment => (Parse.salvage (.start (segment ++ [other]) start)).2) ∧
      Stmt.AllAlike .upToIds
        (segments.flatMap fun segment => (Parse.salvage (.start (segment ++ [other]) start)).1)
        (Parse.salvage (.start (segments.flatten ++ [last]) first)).1 := by
  have only : ∀ token ∈ segments.flatten, token.kind ≠ .eof := by
    intro token among
    obtain ⟨segment, member, inside⟩ := List.mem_flatten.mp among
    exact (each segment member).real token inside
  have few := Segment.length_le each
  obtain ⟨body, after, ran, errors, trees⟩ :=
    Parse.segments_run each other.line start ⟨segments.flatten, last.line, first, #[]⟩ rfl
      (Nat.lt_succ_of_le few) few
  have whole : Parse.program ⟨segments.flatten, last.line, first, #[]⟩ = .ok body after := ran
  rw [Parse.State.start_eq first only ends, Parse.salvage_ok whole]
  have alone : ∀ segment ∈ segments,
      Parse.State.start (segment ++ [other]) start = ⟨segment, other.line, start, #[]⟩ :=
    fun segment member => Parse.State.start_eq start (each segment member).real ends'
  rw [List.flatMap_congr fun segment member => congrArg (Parse.salvage · |>.2) (alone segment member),
    List.flatMap_congr fun segment member => congrArg (Parse.salvage · |>.1) (alone segment member)]
  exact ⟨errors, trees⟩

/-- The errors of segments are those of each by itself, one after another. All is well iff each of them
is, and then there are the statements of each, with other identifiers. -/
theorem segments_apart (segments : List (List Token)) (each : ∀ segment ∈ segments, Segment segment)
    (last other : Token) (ends : last.kind = .eof) (ends' : other.kind = .eof) (first start : NodeId) :
    (ofTokens (segments.flatten ++ [last]) first).errors =
        segments.flatMap (fun segment => (ofTokens (segment ++ [other]) start).errors) ∧
      ((∃ body, (ofTokens (segments.flatten ++ [last]) first).program = .ok body) ↔
        ∀ segment ∈ segments, ∃ body, (ofTokens (segment ++ [other]) start).program = .ok body) ∧
      ∀ body, (ofTokens (segments.flatten ++ [last]) first).program = .ok body →
        ∃ bodies, List.Forall₂
            (fun segment alone => (ofTokens (segment ++ [other]) start).program = .ok alone)
            segments bodies ∧
          Stmt.AllAlike .upToIds bodies.flatten body := by
  obtain ⟨errors, trees⟩ := salvage_segments segments each ends ends' first start
  have errors : (ofTokens (segments.flatten ++ [last]) first).errors =
      segments.flatMap (fun segment => (ofTokens (segment ++ [other]) start).errors) := by
    simp only [errors_eq, errors]
  refine ⟨errors, ?_, fun body accepted => ?_⟩
  · simp only [accepted_iff, exists_and_left, exists_eq', and_true, errors, List.flatMap_eq_nil_iff]
  · obtain ⟨clean, rfl⟩ := (accepted_iff _ _).mp accepted
    rw [errors, List.flatMap_eq_nil_iff] at clean
    refine ⟨segments.map fun segment => (Parse.salvage (.start (segment ++ [other]) start)).1, ?_, ?_⟩
    · rw [List.forall₂_map_right_iff, List.forall₂_same]
      exact fun segment member => (accepted_iff _ _).mpr ⟨clean segment member, rfl⟩
    · rwa [← List.flatMap_def]

private def sign (terminal : Terminal) : Token := ⟨.terminal terminal, terminal.spelling, 1⟩

private def named (text : String) : Token := ⟨.identifier, text, 1⟩

/-- An assignment to no target, an unfinished statement, a conditional, a variable that a word for
something else follows, and a class without a body. -/
private def partlyBroken : List (List Token) :=
  [[named "a", sign .plus, named "b", sign .equal, named "c", sign .semicolon],
    [sign .kwPrint, sign .semicolon],
    [sign .kwIf, sign .leftParen, named "a", sign .rightParen, named "b", sign .semicolon],
    [sign .kwVar, named "a", sign .kwElse, named "b", sign .rightParen, sign .semicolon],
    [sign .kwClass, named "A", sign .less, named "B", sign .semicolon]]

theorem partlyBroken_apart :
    (∀ segment ∈ partlyBroken, Segment segment) ∧ (Token.eof 2).kind = .eof ∧
      (Token.eof 1).kind = .eof ∧
      (ofTokens (partlyBroken.flatten ++ [.eof 2]) 7).errors =
          partlyBroken.flatMap (fun segment => (ofTokens (segment ++ [.eof 1]) 0).errors) ∧
        ((∃ body, (ofTokens (partlyBroken.flatten ++ [.eof 2]) 7).program = .ok body) ↔
          ∀ segment ∈ partlyBroken, ∃ body, (ofTokens (segment ++ [.eof 1]) 0).program = .ok body) ∧
        ∀ body, (ofTokens (partlyBroken.flatten ++ [.eof 2]) 7).program = .ok body →
          ∃ bodies, List.Forall₂
              (fun segment alone => (ofTokens (segment ++ [.eof 1]) 0).program = .ok alone)
              partlyBroken bodies ∧
            Stmt.AllAlike .upToIds bodies.flatten body := by
  have each : ∀ segment ∈ partlyBroken, Segment segment := by decide
  exact ⟨each, rfl, rfl, segments_apart partlyBroken each (.eof 2) (.eof 1) rfl rfl 7 0⟩

end Parsed

end Lox
