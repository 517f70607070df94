import Lox.Proofs.Token.Longest

/-! Lexemes out of context. Where a space or nothing follows, a lexeme is one token again, so the lexemes of
a source with single spaces between them are scanned as the tokens of the source. -/

namespace Lox

namespace Scan

/-- Nothing, or a text that starts with a space. -/
def Spaced (text : List Char) : Prop :=
  ∀ next ∈ text.head?, next = ' '

theorem spaced_nil : Spaced [] :=
  nofun

theorem spaced_cons (text : List Char) : Spaced (' ' :: text) := by
  simp [Spaced]

theorem Spaced.stops (spaced : Spaced text) (stop : holds ' ' = false) : Stops holds text := by
  intro next first
  rw [spaced next first]
  exact stop

end Scan

namespace Lexeme

open Scan (cut cut_shape Spaced Bounds itemsFrom)

/-- No sign starts with a blank. -/
theorem sign_not_blank : ∀ word ∈ Terminal.signs,
    word.spelling.toList.head?.map blanks.contains = some false := by
  decide

/-- The only sign that starts with a slash is the slash. -/
theorem sign_slash : ∀ word ∈ Terminal.signs, word.spelling.toList.head? = some '/' →
    word.spelling.toList.tail = [] := by
  decide

/-- A character that only signs can start with. -/
theorem sign_of_start (lexeme : Lexeme (head :: tail) kind) (sign : Start.of head = .sign) :
    ∃ word ∈ Terminal.signs, word.spelling.toList = head :: tail := by
  have form := lexeme.form
  rw [sign] at form
  obtain ⟨word, among, spelled, -⟩ := form
  exact ⟨word, among, spelled⟩

theorem not_blank (lexeme : Lexeme (head :: tail) kind) : head ∉ blanks := by
  intro blank
  have starts : (blanks.all fun char => Start.of char = .sign) = true := by decide
  have start : Start.of head = .sign := of_decide_eq_true (List.all_eq_true.mp starts head blank)
  obtain ⟨word, among, spelled⟩ := lexeme.sign_of_start start
  have other := sign_not_blank word among
  simp [spelled, blank] at other

theorem not_comment (lexeme : Lexeme ('/' :: tail) kind) (spaced : Spaced later) :
    tail ++ later ≠ '/' :: rest := by
  obtain ⟨word, among, spelled⟩ := lexeme.sign_of_start rfl
  have alone := sign_slash word among (by rw [spelled]; rfl)
  rw [spelled, List.tail_cons] at alone
  subst alone
  rintro rfl
  cases spaced '/' rfl

/-- A lexeme that a space follows, or nothing, is the longest one there. -/
theorem bounds (lexeme : Lexeme text kind) (spaced : Spaced later) : Bounds text later := by
  cases lexeme with
  | sign among => exact Scan.bounds_sign among fun _ _ => spaced.stops rfl
  | whole digits =>
    refine Scan.bounds_whole digits (spaced.stops rfl) ?_
    rintro fraction rfl
    cases spaced '.' rfl
  | decimal digits fraction => exact Scan.bounds_decimal digits _ (spaced.stops rfl)
  | string inside => exact Scan.bounds_string inside later
  | keyword among =>
    obtain ⟨letter, -⟩ := spelling_keyword _ among
    obtain ⟨head, first, letter⟩ := Option.map_eq_some_iff.mp letter
    obtain ⟨others, spelled⟩ := List.head?_eq_some_iff.mp first
    rw [spelled]
    exact Scan.bounds_word letter others (spaced.stops rfl)
  | identifier wordlike =>
    obtain ⟨head, others, rfl, letter, -⟩ := wordlike
    exact Scan.bounds_word letter others (spaced.stops rfl)

/-- Where a space or nothing follows, a lexeme is cut off as it is. -/
theorem cut_eq (lexeme : Lexeme (head :: tail) kind) (spaced : Spaced later) :
    cut head (tail ++ later) = ⟨.token kind, head :: tail, later⟩ := by
  have shape := cut_shape head (tail ++ later)
  have whole := Scan.cut_text_append_rest head (tail ++ later)
  have start : head :: tail <+: head :: (tail ++ later) := List.prefix_append (head :: tail) later
  generalize cut head (tail ++ later) = first at shape whole
  cases found : first.piece with
  | blank =>
    cases shape with
    | blank blank =>
      cases whole
      exact absurd blank lexeme.not_blank
    | comment =>
      obtain ⟨rfl, rest⟩ := List.cons.inj whole
      exact absurd rest.symm (lexeme.not_comment spaced)
    | _ => cases found
  | fault fault =>
    have unlexed := Scan.unlexed_of_shape shape found
    rw [whole] at unlexed
    exact absurd start (unlexed _ _ lexeme)
  | token other =>
    have longest := Scan.longest_of_shape shape found
    rw [whole] at longest
    have long := longest.longest _ _ lexeme start
    have short := lexeme.bounds spaced _ _ longest.lexeme longest.start
    have same : first.text = head :: tail :=
      (List.prefix_of_prefix_length_le longest.start start short).eq_of_length
        (Nat.le_antisymm short long)
    obtain rfl := longest.only kind (same ▸ lexeme)
    obtain ⟨piece, text, rest⟩ := first
    cases found
    cases same
    obtain rfl : rest = later := List.append_cancel_left (whole : head :: tail ++ rest = head :: tail ++ later)
    rfl

/-- Where a space or nothing follows, a lexeme gives its token, and scanning goes on after it. -/
theorem items (lexeme : Lexeme text kind) (spaced : Spaced later) (line : Nat) :
    itemsFrom line (text ++ later) =
      .token ⟨kind, String.ofList text, line + text.count '\n'⟩ ::
        itemsFrom (line + text.count '\n') later := by
  obtain ⟨head, tail, rfl⟩ := lexeme.cons
  rw [List.cons_append, Scan.itemsFrom_cons, lexeme.cut_eq spaced]
  rfl

end Lexeme

/-- What a token is apart from its place. -/
def Token.content (token : Token) : Kind × String :=
  (token.kind, token.lexeme)

/-- A token of which the lexeme tells what it is. -/
def Token.Lexical (token : Token) : Prop :=
  Lexeme token.lexeme.toList token.kind

namespace Scan

/-- The lexemes of the tokens, apart from the end mark, with one space between any two. -/
def spaced (scan : Scan) : String :=
  " ".intercalate ((scan.tokens.filter (·.kind ≠ .eof)).map (·.lexeme))

theorem itemsFrom_lexical (line : Nat) (text : List Char) :
    ∀ token ∈ (ofItems (itemsFrom line text)).tokens, token.kind ≠ .eof → token.Lexical := by
  induction text using pieces generalizing line with
  | nil => simp [itemsFrom, ofItems, Token.eof]
  | cons head tail ih =>
    intro token member other
    rw [itemsFrom_cons, ofItems, List.filterMap_append] at member
    rcases List.mem_append.mp member with member | member
    · unfold Cut.items at member
      split at member
      · cases member
      · rename_i kind found
        obtain rfl := List.mem_singleton.mp member
        simpa [Token.Lexical] using (longest_of_shape (cut_shape head tail) found).lexeme
      · cases member
    · exact ih _ token member other

/-- The tokens of a source are told by their lexemes, and after them comes the end mark. -/
theorem ofSource_lexical (source : String) :
    ∃ body line, (ofSource source).tokens = body ++ [.eof line] ∧ (∀ token ∈ body, token.Lexical) ∧
      (ofSource source).spaced = " ".intercalate (body.map (·.lexeme)) := by
  obtain ⟨body, tokens, known⟩ := ofSource_tokens source
  refine ⟨body, _, tokens, ?_, ?_⟩
  · intro token member
    refine itemsFrom_lexical 1 source.toList token ?_ (known.only token member)
    change token ∈ (ofSource source).tokens
    rw [tokens]
    exact List.mem_append_left _ member
  · have kept : body.filter (·.kind ≠ .eof) = body :=
      List.filter_eq_self.mpr fun token member => decide_eq_true (known.only token member)
    simp only [spaced, tokens, List.filter_append, kept]
    simp [Token.eof]

/-- Lexemes with single spaces between them are scanned as their tokens. -/
theorem itemsFrom_spaced (tokens : List Token) (lexical : ∀ token ∈ tokens, token.Lexical) (line : Nat) :
    ∃ (again : List Token) (last : Nat), itemsFrom line ([' '].intercalate (tokens.map (·.lexeme.toList))) =
        again.map .token ++ [.token (.eof last)] ∧
      again.map Token.content = tokens.map Token.content := by
  induction tokens generalizing line with
  | nil => exact ⟨[], line, by simp [itemsFrom], rfl⟩
  | cons first rest ih =>
    obtain ⟨lexical, others⟩ := List.forall_mem_cons.mp lexical
    obtain ⟨again, last, items, same⟩ := ih others (line + first.lexeme.toList.count '\n')
    refine ⟨{ first with line := line + first.lexeme.toList.count '\n' } :: again, last, ?_, by
      simp [same, Token.content]⟩
    have here (later : List Char) (spaced : Spaced later) := Lexeme.items lexical spaced line
    simp only [String.ofList_toList] at here
    cases rest with
    | nil =>
      have alone := here [] spaced_nil
      rw [List.append_nil] at alone
      simpa [alone] using items
    | cons second rest =>
      have passed (text : List Char) (line : Nat) : itemsFrom line (' ' :: text) = itemsFrom line text := by
        rw [itemsFrom_cons]
        rfl
      simp only [List.map_cons, List.intercalate_cons_cons, List.append_assoc, List.singleton_append]
      rw [here _ (spaced_cons _), passed]
      exact congrArg (_ :: ·) items

/-- Scanning lexemes with single spaces between them finds no errors and the tokens again. -/
theorem ofSource_spaced (tokens : List Token) (lexical : ∀ token ∈ tokens, token.Lexical) :
    (ofSource (" ".intercalate (tokens.map (·.lexeme)))).errors = [] ∧
      (ofSource (" ".intercalate (tokens.map (·.lexeme)))).tokens.map Token.content =
        tokens.map Token.content ++ [(.eof, "")] := by
  obtain ⟨again, last, found, same⟩ := itemsFrom_spaced tokens lexical 1
  have source : (" ".intercalate (tokens.map (·.lexeme))).toList =
      [' '].intercalate (tokens.map (·.lexeme.toList)) := by
    simp [Function.comp_def]
  unfold ofSource Scan.items
  rw [source, found]
  constructor
  · simp [ofItems, Function.comp_def]
  · simp [ofItems, Function.comp_def, same, Token.content, Token.eof]

/-- The lexemes with spaces between them depend on the contents of the tokens only. -/
theorem spaced_eq (scan : Scan) : scan.spaced = " ".intercalate
    (((scan.tokens.map Token.content).filter (·.1 ≠ .eof)).map (·.2)) := by
  rw [spaced, List.filter_map, List.map_map]
  rfl

end Scan

/-- A lexeme is one of a single kind. -/
theorem Token.Lexical.kind_eq {token : Token} (lexical : token.Lexical) (source : String) :
    ∀ other ∈ (Scan.ofSource source).tokens, other.lexeme = token.lexeme → other.kind = token.kind := by
  obtain ⟨body, line, tokens, known, -⟩ := Scan.ofSource_lexical source
  intro other member same
  rw [tokens] at member
  rcases List.mem_append.mp member with member | member
  · have lexeme := known other member
    rw [Lexical, same] at lexeme
    exact lexeme.kind_unique lexical
  · -- The end mark has no characters, and a lexeme has some.
    obtain rfl := List.mem_singleton.mp member
    obtain ⟨head, tail, spelled⟩ := Lexeme.cons lexical
    rw [← same] at spelled
    cases spelled

/-- Lexemes tell the tokens. The lexemes of a source with single spaces between them are scanned without
errors as the same tokens, and again so. Each lexeme alone is scanned as its token, and wherever it occurs
as a token it is one of the same kind. -/
theorem lexemes_tell_tokens (source : String) :
    let scan := Scan.ofSource source
    let again := Scan.ofSource scan.spaced
    (again.errors = [] ∧ again.tokens.map Token.content = scan.tokens.map Token.content) ∧
      again.spaced = scan.spaced ∧
      ∀ token ∈ scan.tokens, token.kind ≠ .eof →
        ((Scan.ofSource token.lexeme).errors = [] ∧
          (Scan.ofSource token.lexeme).tokens.map Token.content = [token.content, (.eof, "")]) ∧
        ∀ other, ∀ found ∈ (Scan.ofSource other).tokens,
          found.lexeme = token.lexeme → found.kind = token.kind := by
  obtain ⟨body, line, tokens, lexical, spaced⟩ := Scan.ofSource_lexical source
  have same : (Scan.ofSource source).tokens.map Token.content =
      body.map Token.content ++ [(.eof, "")] := by
    simp [tokens, Token.content, Token.eof]
  have again := Scan.ofSource_spaced body lexical
  rw [← spaced, ← same] at again
  refine ⟨again, ?_, fun token member other => ?_⟩
  · rw [Scan.spaced_eq, again.2, ← Scan.spaced_eq]
  · rw [tokens] at member
    rcases List.mem_append.mp member with member | member
    · have known := lexical token member
      have alone := Scan.ofSource_spaced [token] (by simpa using known)
      simp only [List.map_cons, List.map_nil, String.intercalate_singleton] at alone
      exact ⟨alone, known.kind_eq⟩
    · obtain rfl := List.mem_singleton.mp member
      exact absurd rfl other

/-- Symbols without spaces that spaces keep apart, and a string with a line break and a comment mark. -/
theorem adjacent_told :
    let scan := Scan.ofSource "===/ /1.a.2\"//\n\""
    ⟨.terminal .equalEqual, "==", 1⟩ ∈ scan.tokens ∧
      ∀ other, ∀ found ∈ (Scan.ofSource other).tokens,
        found.lexeme = "==" → found.kind = .terminal .equalEqual := by
  have member : ⟨.terminal .equalEqual, "==", 1⟩ ∈ (Scan.ofSource "===/ /1.a.2\"//\n\"").tokens := by
    decide +kernel
  exact ⟨member, ((lexemes_tell_tokens "===/ /1.a.2\"//\n\"").2.2 _ member nofun).2⟩

end Lox
