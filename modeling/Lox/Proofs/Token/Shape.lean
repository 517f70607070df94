import Lox.Token.Scan

/-! The forms that the first piece of a text can have. A piece ends where its form says that it ends, so
each form states what the text after it does not start with. -/

namespace Lox

/-- The spaces, tabs and ends of lines that separate items. -/
def blanks : List Char := [' ', '\t', '\r', '\n']

namespace Terminal

/-- The symbols that no symbol lengthens, except that two slashes begin a comment. -/
def symbols : List Terminal :=
  [leftParen, rightParen, leftBrace, rightBrace, comma, dot, minus, plus, semicolon, star, slash]

/-- The operators that an equals sign may follow, without it and with it. -/
def lengthened : List (Terminal × Terminal) :=
  [(bang, bangEqual), (equal, equalEqual), (less, lessEqual), (greater, greaterEqual)]

end Terminal

namespace Scan

/-- What a text does not start with. -/
def Stops (holds : Char → Bool) (text : List Char) : Prop :=
  ∀ next ∈ text.head?, holds next = false

/-- The kind of a word. -/
def wordKind (word : List Char) : Kind :=
  (Terminal.keyword? (String.ofList word)).elim .identifier .terminal

/-- A character that begins nothing. -/
structure Unexpected (char : Char) : Prop where
  blank : char ∉ blanks
  quote : char ≠ '"'
  digit : char.isDigit = false
  word : isWordStart char = false
  symbol : ∀ word ∈ Terminal.symbols, word.spelling.toList ≠ [char]
  operator : ∀ pair ∈ Terminal.lengthened, pair.1.spelling.toList ≠ [char]

/-- The forms of a piece and of the text after it. -/
inductive Shape : Cut → Prop where
  | blank (blank : char ∈ blanks) : Shape ⟨.blank, [char], later⟩
  | comment (inside : '\n' ∉ words) (ends : Stops (· != '\n') later) :
      Shape ⟨.blank, '/' :: '/' :: words, later⟩
  | string (inside : '"' ∉ contents) :
      Shape ⟨.token (.string (String.ofList contents)), '"' :: (contents ++ ['"']), later⟩
  | unterminated (inside : '"' ∉ contents) : Shape ⟨.fault .unterminatedString, '"' :: contents, []⟩
  | whole (first : digit.isDigit = true) (digits : ∀ digit ∈ others, digit.isDigit = true)
      (ends : Stops Char.isDigit later)
      (point : ∀ fraction, later = '.' :: fraction → Stops Char.isDigit fraction) :
      Shape ⟨.token (.number (Numeral.read (digit :: others))), digit :: others, later⟩
  | decimal (first : digit.isDigit = true) (digits : ∀ digit ∈ others, digit.isDigit = true)
      (first' : digit'.isDigit = true) (digits' : ∀ digit ∈ others', digit.isDigit = true)
      (ends : Stops Char.isDigit later) :
      Shape ⟨.token (.number (Numeral.read (digit :: others ++ '.' :: digit' :: others'))),
        digit :: others ++ '.' :: digit' :: others', later⟩
  | word (first : isWordStart char = true) (chars : ∀ char ∈ others, isWordChar char = true)
      (ends : Stops isWordChar later) :
      Shape ⟨.token (wordKind (char :: others)), char :: others, later⟩
  | symbol (among : symbol ∈ Terminal.symbols) (ends : symbol = .slash → Stops (· == '/') later) :
      Shape ⟨.token (.terminal symbol), symbol.spelling.toList, later⟩
  | short (among : pair ∈ Terminal.lengthened) (ends : Stops (· == '=') later) :
      Shape ⟨.token (.terminal pair.1), pair.1.spelling.toList, later⟩
  | long (among : pair ∈ Terminal.lengthened) :
      Shape ⟨.token (.terminal pair.2), pair.2.spelling.toList, later⟩
  | unexpected (other : Unexpected char) : Shape ⟨.fault (.unexpectedCharacter char), [char], later⟩

section

variable (holds : Char → Bool)

theorem stops_nil : Stops holds [] :=
  nofun

variable {holds} in
theorem stops_cons (stop : holds next = false) (rest : List Char) : Stops holds (next :: rest) := by
  rintro _ ⟨⟩
  exact stop

theorem stops_dropWhile (text : List Char) : Stops holds (text.dropWhile holds) := by
  intro next member
  have stops := List.head?_dropWhile_not holds text
  rw [member] at stops
  exact stops

theorem holds_takeWhile (text : List Char) : ∀ char ∈ text.takeWhile holds, holds char = true :=
  List.all_eq_true.mp List.all_takeWhile

variable {holds} in
/-- A text ends in one place only if what follows must not go on like it. -/
theorem append_unique {text other : List Char} (all : ∀ char ∈ text, holds char = true)
    (all' : ∀ char ∈ other, holds char = true) (stops : Stops holds later) (stops' : Stops holds later')
    (same : text ++ later = other ++ later') : text = other ∧ later = later' := by
  have taken : ∀ {rest}, Stops holds rest → rest.takeWhile holds = [] := by
    intro rest stops
    cases rest with
    | nil => rfl
    | cons next more => simp [stops next rfl]
  have first := congrArg (List.takeWhile holds) same
  rw [List.takeWhile_append_of_pos all, List.takeWhile_append_of_pos all', taken stops,
    taken stops', List.append_nil, List.append_nil] at first
  subst first
  exact ⟨rfl, List.append_cancel_left same⟩

theorem plain_of_not_mem {stop : Char} {text : List Char} (inside : stop ∉ text) :
    ∀ char ∈ text, (char != stop) = true :=
  fun _ member => bne_iff_ne.mpr fun same => inside (same ▸ member)

theorem not_mem_takeWhile (stop : Char) (text : List Char) : stop ∉ text.takeWhile (· != stop) := by
  intro member
  simpa using holds_takeWhile _ text stop member

end

theorem isBlank_iff (char : Char) : isBlank char = true ↔ char ∈ blanks := by
  simp only [isBlank, Bool.or_eq_true, beq_iff_eq, blanks, List.mem_cons, List.not_mem_nil]
  grind

theorem cutSlash_shape (tail : List Char) : Shape (cutSlash tail) := by
  unfold cutSlash
  split
  · rename_i more
    rw [List.takeWhile_cons_of_pos rfl]
    exact .comment (not_mem_takeWhile '\n' more) (stops_dropWhile _ _)
  · rename_i other
    have among : .slash ∈ Terminal.symbols := by decide
    refine .symbol among fun _ => ?_
    cases tail with
    | nil => exact stops_nil _
    | cons next rest =>
      have different : next ≠ '/' := fun same => other rest (congrArg (· :: rest) same)
      exact stops_cons (by simpa using different) rest

theorem cutString_shape (tail : List Char) : Shape (cutString tail) := by
  have whole := List.takeWhile_append_dropWhile (p := (· != '"')) (l := tail)
  have inside := not_mem_takeWhile '"' tail
  have stops : Stops (· != '"') (tail.dropWhile (· != '"')) := stops_dropWhile _ tail
  unfold cutString
  split
  · rename_i found
    rw [found, List.append_nil] at whole
    rw [whole] at inside
    exact .unterminated inside
  · rename_i quote rest found
    rw [found] at stops
    obtain rfl : quote = '"' := by simpa using stops quote rfl
    exact .string inside

theorem cutNumber_shape (first : head.isDigit = true) (tail : List Char) :
    Shape (cutNumber head tail) := by
  have digits := holds_takeWhile Char.isDigit tail
  have stops := stops_dropWhile Char.isDigit tail
  unfold cutNumber
  split
  · rename_i digit rest found
    split
    · rename_i first'
      exact .decimal first digits first' (holds_takeWhile _ rest) (stops_dropWhile _ rest)
    · rename_i point
      rw [found] at stops
      refine .whole first digits stops fun fraction same => ?_
      cases same
      exact stops_cons (by simpa using point) rest
  · rename_i other
    refine .whole first digits stops fun fraction same => ?_
    cases fraction with
    | nil => exact stops_nil _
    | cons digit rest => exact absurd same (other digit rest)

theorem cutWord_shape (first : isWordStart head = true) (tail : List Char) :
    Shape (cutWord head tail) := by
  have kind : cutWord head tail = ⟨.token (wordKind (head :: tail.takeWhile isWordChar)),
      head :: tail.takeWhile isWordChar, tail.dropWhile isWordChar⟩ := by
    unfold cutWord wordKind
    dsimp only
    split <;> simp only [*, Option.elim]
  rw [kind]
  exact .word first (holds_takeWhile _ tail) (stops_dropWhile _ tail)

/-- Every symbol but the slash is found under its character. -/
theorem single?_spelling : ∀ symbol ∈ Terminal.symbols, symbol ≠ .slash →
    symbol.spelling.toList.head?.bind single? = some symbol := by
  decide

theorem paired?_spelling : ∀ pair ∈ Terminal.lengthened,
    pair.1.spelling.toList.head?.bind paired? = some pair := by
  decide

theorem symbol_of_single? (found : single? char = some symbol) :
    symbol ∈ Terminal.symbols ∧ symbol ≠ .slash ∧ symbol.spelling.toList = [char] := by
  unfold single? at found
  split at found <;> cases found <;> decide

theorem pair_of_paired? (found : paired? char = some pair) :
    pair ∈ Terminal.lengthened ∧ pair.1.spelling.toList = [char] ∧
      pair.2.spelling.toList = [char, '='] := by
  unfold paired? at found
  split at found <;> cases found <;> decide

theorem cutSymbol_shape (blank : head ∉ blanks) (slash : head ≠ '/') (quote : head ≠ '"')
    (digit : head.isDigit = false) (word : isWordStart head = false) (tail : List Char) :
    Shape (cutSymbol head tail) := by
  cases found : single? head with
  | some symbol =>
    obtain ⟨among, other, spelled⟩ := symbol_of_single? found
    have cut : cutSymbol head tail = ⟨.token (.terminal symbol), [head], tail⟩ := by
      simp [cutSymbol, found]
    rw [cut, ← spelled]
    exact .symbol among fun same => absurd same other
  | none =>
    cases found' : paired? head with
    | none =>
      have cut : cutSymbol head tail = ⟨.fault (.unexpectedCharacter head), [head], tail⟩ := by
        simp [cutSymbol, found, found']
      rw [cut]
      refine .unexpected ⟨blank, quote, digit, word, fun symbol among spelled => ?_,
        fun pair among spelled => ?_⟩
      · by_cases same : symbol = .slash
        · subst same
          exact slash (List.cons.inj spelled).1.symm
        · have known := single?_spelling symbol among same
          simp [spelled, found] at known
      · have known := paired?_spelling pair among
        simp [spelled, found'] at known
    | some pair =>
      obtain ⟨among, short, long⟩ := pair_of_paired? found'
      by_cases same : ∃ rest, tail = '=' :: rest
      · obtain ⟨rest, rfl⟩ := same
        have cut : cutSymbol head ('=' :: rest) = ⟨.token (.terminal pair.2), [head, '='], rest⟩ := by
          simp [cutSymbol, found, found']
        rw [cut, ← long]
        exact .long among
      · have cut : cutSymbol head tail = ⟨.token (.terminal pair.1), [head], tail⟩ := by
          simp_all [cutSymbol]
        rw [cut, ← short]
        refine .short among fun next member => ?_
        obtain ⟨rest, rfl⟩ := List.head?_eq_some_iff.mp member
        simpa using fun equal => same ⟨rest, congrArg (· :: rest) equal⟩

theorem cut_shape (head : Char) (tail : List Char) : Shape (cut head tail) := by
  unfold cut
  split
  · rename_i found
    exact .blank ((isBlank_iff head).mp found)
  rename_i blank
  split
  · exact cutSlash_shape tail
  rename_i slash
  split
  · exact cutString_shape tail
  rename_i quote
  split
  · rename_i first
    exact cutNumber_shape first tail
  rename_i digit
  split
  · rename_i first
    exact cutWord_shape first tail
  · rename_i word
    exact cutSymbol_shape (blank ∘ (isBlank_iff head).mpr) slash quote (by simpa using digit)
      (by simpa using word) tail

end Scan

end Lox
