import Lox.Proofs.Segment.Statement

/-! Declarations up to a semicolon, where a word may stand before all else. One that succeeds ends right
after the semicolon, and one that fails passes to there. -/

namespace Lox

/-- The words at which a declaration begins that is no statement. -/
def declarationWords : List Terminal :=
  [.kwClass, .kwFun, .kwVar]

/-- The words that may begin a statement before an only semicolon. -/
def leadingWords : List Terminal :=
  [.kwIf, .kwWhile, .kwPrint, .kwReturn]

theorem Parse.startsStatement_word (starts : startsStatement (token :: rest) = true) :
    ∃ word ∈ statementWords, token.kind = .terminal word := by
  simp only [startsStatement] at starts
  split at starts
  case h_9 => contradiction
  all_goals
    rename_i kind
    exact ⟨_, by decide, kind⟩

namespace Sealed

theorem continues (enclosed : Sealed tokens) (outer : List Token) :
    Parse.startsStatement (tokens ++ outer) = false := by
  cases starts : Parse.startsStatement (tokens ++ outer) with
  | false => rfl
  | true =>
    cases enclosed with
    | semicolon kind =>
      obtain ⟨word, begins, same⟩ := Parse.startsStatement_word starts
      cases kind.symm.trans same
      simp [statementWords] at begins
    | inner inner _ =>
      obtain ⟨word, begins, same⟩ := Parse.startsStatement_word starts
      exact absurd same (inner.word word begins)

/-- The next boundary is right after the semicolon. -/
theorem nextBoundary (enclosed : Sealed tokens) (outer : List Token) :
    Parse.nextBoundary (tokens ++ outer) = outer := by
  induction enclosed with
  | semicolon kind =>
    change Parse.nextBoundary (_ :: outer) = outer
    rw [Parse.nextBoundary, if_pos (.inl kind)]
  | inner inner others ih =>
    have continues := others.continues outer
    rw [List.cons_append, Parse.nextBoundary, if_neg (by simp [inner.semicolon, continues]), ih]

end Sealed

namespace Parse

section Steps

variable {state : State} {statement : Parse Stmt} {declaration : Parse (Option Stmt)}

theorem declared_class (kind : state.peek.kind = .terminal .kwClass) :
    declared statement declaration state =
      classDeclaration declaration { state with rest := state.rest.tail } :=
  bind_ok (take_same kind)

theorem declared_fun (kind : state.peek.kind = .terminal .kwFun) :
    declared statement declaration state =
      (.declareFunction <$> routine .function declaration : Parse Stmt)
        { state with rest := state.rest.tail } :=
  (bind_ok (take_other (by simp [kind]))).trans (bind_ok (take_same kind))

theorem declared_var (kind : state.peek.kind = .terminal .kwVar) :
    declared statement declaration state = varDeclaration { state with rest := state.rest.tail } :=
  (bind_ok (take_other (by simp [kind]))).trans <|
    (bind_ok (take_other (by simp [kind]))).trans (bind_ok (take_same kind))

theorem declared_statement (other : ∀ word ∈ declarationWords, state.peek.kind ≠ .terminal word) :
    declared statement declaration state = statementAround statement declaration state :=
  (bind_ok (take_other (other _ (by decide)))).trans <|
    (bind_ok (take_other (other _ (by decide)))).trans (bind_ok (take_other (other _ (by decide))))

/-- A statement that begins with a word of its own. -/
theorem declared_word (kind : state.peek.kind = .terminal word)
    (begins : word ∈ leadingWords) :
    declared statement declaration state = statementAround statement declaration state := by
  refine declared_statement fun other declares same => ?_
  cases kind.symm.trans same
  exact absurd declares ((by decide : ∀ word ∈ leadingWords, word ∉ declarationWords) word begins)

end Steps

variable {outer : List Token} {earlier : List SyntaxError} {state other : State}
  {statement statement' : Parse Stmt} {declaration declaration' : Parse (Option Stmt)}

section Words

variable (within : Within outer earlier state other) (kind : state.peek.kind = .terminal word)
  (enclosed : Sealed state.rest.tail)

include within kind

theorem Within.word : other.peek = state.peek ∧
    Within outer earlier { state with rest := state.rest.tail }
      { other with rest := other.rest.tail } := by
  obtain ⟨token, rest, tokens, _, _⟩ := State.next_token kind (by simp)
  have more : state.rest ≠ [] := by simp [tokens]
  exact ⟨within.peek more, within.skip more⟩

include enclosed

/-- After its word a declaration goes on up to the semicolon. -/
theorem declared_declaration (begins : word ∈ declarationWords) :
    Agree outer earlier (· = []) state (declared statement declaration state)
      (declared statement' declaration' other) := by
  obtain ⟨same, skipped⟩ := within.word kind
  have kind' : other.peek.kind = .terminal word := by rwa [same]
  have shorter : state.rest.tail.length ≤ state.rest.length := by simp
  simp only [declarationWords, List.mem_cons, List.not_mem_nil, or_false] at begins
  rcases begins with rfl | rfl | rfl
  · rw [declared_class kind, declared_class kind']
    exact (classDeclaration_agree skipped enclosed _ _).since shorter
  · rw [declared_fun kind, declared_fun kind']
    exact ((routine_agree skipped enclosed .function _ _).map _).since shorter
  · rw [declared_var kind, declared_var kind']
    exact (varDeclaration_agree skipped enclosed).since shorter

/-- After its word a statement goes on up to the semicolon. -/
theorem declared_leading (nested : Nests outer earlier statement statement')
    (next : ∀ token ∈ outer.head?, token.kind ≠ .terminal .kwElse) (begins : word ∈ leadingWords) :
    Agree outer earlier (· = []) state (declared statement declaration state)
      (declared statement' declaration' other) := by
  obtain ⟨same, skipped⟩ := within.word kind
  have kind' : other.peek.kind = .terminal word := by rwa [same]
  have shorter : state.rest.tail.length ≤ state.rest.length := by simp
  rw [declared_word kind begins, declared_word kind' begins]
  unfold statementAround
  rw [peek_bind, peek_bind, same, kind]
  simp only [leadingWords, List.mem_cons, List.not_mem_nil, or_false] at begins
  rcases begins with rfl | rfl | rfl | rfl
  · exact (ifStatement_agree nested skipped enclosed next).since shorter
  · exact (whileStatement_agree nested skipped enclosed).since shorter
  · exact (printStatement_agree skipped enclosed).since shorter
  · exact (returnStatement_agree skipped enclosed _).since shorter

end Words

theorem declared_agree (within : Within outer earlier state other) (enclosed : Sealed state.rest) :
    Agree outer earlier (· = []) state (declared statement declaration state)
      (declared statement' declaration' other) := by
  have absent : ∀ word ∈ declarationWords, state.peek.kind ≠ .terminal word := fun word declares =>
    peek_ne enclosed <| .tail _ <| .tail _ <|
      (by decide : ∀ word ∈ declarationWords, word ∈ statementWords) word declares
  have absent' : ∀ word ∈ declarationWords, other.peek.kind ≠ .terminal word := by
    rwa [within.peek enclosed.more]
  rw [declared_statement absent, declared_statement absent']
  exact statementAround_agree within enclosed _ _ _ _

/-- Whether it succeeds or not, it ends right after the semicolon. -/
theorem recovering_agree {parse parse' : Parse Stmt}
    (agree : Agree outer earlier (· = []) state (parse state) (parse' other)) :
    ∃ result after after', recovering parse state = .ok result after ∧
      recovering parse' other = .ok result after' ∧ after.rest = [] ∧
      Within outer earlier after after' := by
  unfold recovering
  generalize parse state = ran at agree
  generalize parse' other = ran' at agree
  cases agree with
  | ok within tokens _ => exact ⟨_, _, _, rfl, rfl, tokens, within⟩
  | error within tokens =>
    have alone := tokens.nextBoundary []
    rw [List.append_nil] at alone
    refine ⟨_, _, _, rfl, rfl, alone, { within.report _ with rest := ?_ }⟩
    dsimp only
    rw [within.rest, tokens.nextBoundary outer, alone, List.nil_append]

end Parse

/-- Tokens whose only semicolon is the last of them, without braces, and without a word at which a
statement begins other than the first of them. -/
structure Segment (tokens : List Token) : Prop where
  real : ∀ token ∈ tokens, token.kind ≠ .eof
  last : ∃ token ∈ tokens.getLast?, token.kind = .terminal .semicolon
  only : ∀ token ∈ tokens.dropLast, token.kind ≠ .terminal .semicolon
  leftBrace : ∀ token ∈ tokens, token.kind ≠ .terminal .leftBrace
  rightBrace : ∀ token ∈ tokens, token.kind ≠ .terminal .rightBrace
  words : ∀ token ∈ tokens.tail, ∀ word ∈ statementWords, token.kind ≠ .terminal word
  begins : ∀ token ∈ tokens.head?, token.kind ≠ .terminal .kwFor ∧ token.kind ≠ .terminal .kwElse

theorem Sealed.append (inner : ∀ token ∈ before, token.Inner) (kind : last.kind = .terminal .semicolon) :
    Sealed (before ++ [last]) := by
  induction before with
  | nil => exact .semicolon kind
  | cons token before ih =>
    exact .inner (inner token (.head _)) (ih fun token member => inner token (.tail _ member))

namespace Segment

variable {tokens : List Token} {segments : List (List Token)}

instance : DecidablePred Segment := fun tokens =>
  decidable_of_iff
    ((∀ token ∈ tokens, token.kind ≠ .eof) ∧
      (∃ token ∈ tokens.getLast?, token.kind = .terminal .semicolon) ∧
      (∀ token ∈ tokens.dropLast, token.kind ≠ .terminal .semicolon) ∧
      (∀ token ∈ tokens, token.kind ≠ .terminal .leftBrace) ∧
      (∀ token ∈ tokens, token.kind ≠ .terminal .rightBrace) ∧
      (∀ token ∈ tokens.tail, ∀ word ∈ statementWords, token.kind ≠ .terminal word) ∧
      ∀ token ∈ tokens.head?, token.kind ≠ .terminal .kwFor ∧ token.kind ≠ .terminal .kwElse)
    ⟨fun ⟨real, last, only, leftBrace, rightBrace, words, begins⟩ =>
        ⟨real, last, only, leftBrace, rightBrace, words, begins⟩,
      fun ⟨real, last, only, leftBrace, rightBrace, words, begins⟩ =>
        ⟨real, last, only, leftBrace, rightBrace, words, begins⟩⟩

theorem more (segment : Segment tokens) : tokens ≠ [] := by
  obtain ⟨token, last, _⟩ := segment.last
  rintro rfl
  cases last

/-- Past its first token a segment has no boundary but its semicolon, and the first token is none
either unless it is a word at which a statement begins. -/
theorem enclosed (segment : Segment tokens) :
    Sealed tokens ∨ ∃ token rest word, tokens = token :: rest ∧ token.kind = .terminal word ∧
      (word ∈ declarationWords ∨ word ∈ leadingWords) ∧ Sealed rest := by
  obtain ⟨last, found, kind⟩ := segment.last
  obtain ⟨before, rfl⟩ := List.getLast?_eq_some_iff.mp found
  have inner {token : Token} (member : token ∈ before)
      (words : ∀ word ∈ statementWords, token.kind ≠ .terminal word) : token.Inner := by
    have among : token ∈ before ++ [last] := List.mem_append_left _ member
    refine ⟨segment.real token among, segment.only token ?_, segment.leftBrace token among,
      segment.rightBrace token among, words⟩
    rwa [List.dropLast_concat]
  cases before with
  | nil => exact .inl (.semicolon kind)
  | cons token before =>
    have rest : Sealed (before ++ [last]) := .append (fun token member =>
      inner (.tail _ member) (segment.words token (List.mem_append_left _ member))) kind
    by_cases starts : ∃ word ∈ statementWords, token.kind = .terminal word
    · obtain ⟨word, begins, same⟩ := starts
      have other : word ≠ .kwFor := by
        rintro rfl
        exact (segment.begins token rfl).1 same
      have sort : ∀ word ∈ statementWords, word ≠ .kwFor →
        word ∈ declarationWords ∨ word ∈ leadingWords := by decide
      exact .inr ⟨token, _, word, rfl, same, sort word begins other, rest⟩
    · exact .inl (.inner (inner (.head _) fun word begins same => starts ⟨word, begins, same⟩) rest)

/-- No segment begins with the word that an unfinished conditional could go on with. -/
theorem next (each : ∀ segment ∈ segments, Segment segment) :
    ∀ token ∈ segments.flatten.head?, token.kind ≠ .terminal .kwElse := by
  cases segments with
  | nil => nofun
  | cons segment segments =>
    have first := each segment (.head _)
    obtain ⟨token, rest, rfl⟩ := List.exists_cons_of_ne_nil first.more
    rintro _ ⟨⟩
    exact (first.begins token rfl).2

theorem length_le (each : ∀ segment ∈ segments, Segment segment) :
    segments.length ≤ segments.flatten.length := by
  induction segments with
  | nil => exact Nat.le_refl _
  | cons segment segments ih =>
    have more := List.length_pos_iff.mpr (each segment (.head _)).more
    have rest := ih fun segment member => each segment (.tail _ member)
    rw [List.flatten_cons, List.length_append, List.length_cons]
    omega

end Segment

/-- A segment is passed over in the same way whatever comes after it. -/
theorem Parse.segment_agree (within : Within outer earlier state other) (segment : Segment state.rest)
    (next : ∀ token ∈ outer.head?, token.kind ≠ .terminal .kwElse) (depth depth' : Nat) :
    ∃ result after after', declarationWithin (depth + 2) state = .ok result after ∧
      declarationWithin (depth' + 2) other = .ok result after' ∧ after.rest = [] ∧
      Within outer earlier after after' := by
  have nested : Nests outer earlier (statementWithin (depth + 1)) (statementWithin (depth' + 1)) :=
    fun within enclosed => statementAround_agree within enclosed _ _ _ _
  refine recovering_agree ?_
  rcases segment.enclosed with enclosed | ⟨token, rest, word, tokens, kind, begins, enclosed⟩
  · exact declared_agree within enclosed
  · have kind : state.peek.kind = .terminal word := by rwa [State.peek, tokens]
    have enclosed : Sealed state.rest.tail := by rwa [tokens]
    rcases begins with declares | leads
    · exact declared_declaration within kind enclosed declares
    · exact declared_leading within kind enclosed nested next leads

end Lox
