import Lox.Proofs.Token.Places

/-! The lexical grammar, and the rule of the longest match. Wherever an item stands, it is the token whose
text is the longest of those that the text there starts with, or else an error if there are none. -/

namespace Lox

open Scan (isWordStart isWordChar wordKind Stops)

namespace Terminal

/-- The words that are not spelled like identifiers. -/
def signs : List Terminal :=
  symbols ++ lengthened.flatMap fun pair => [pair.1, pair.2]

example : signs.map (·.spelling) = ["(", ")", "\x7b", "\x7d", ",", ".", "-", "+", ";", "*", "/",
    "!", "!=", "=", "==", "<", "<=", ">", ">="] := by
  decide

end Terminal

/-- One digit or more. -/
structure Digits (text : List Char) : Prop where
  nonempty : text ≠ []
  all : ∀ char ∈ text, char.isDigit = true

/-- A letter or an underscore, and then any number of letters, digits and underscores. -/
def Wordlike (text : List Char) : Prop :=
  ∃ first others, text = first :: others ∧ isWordStart first = true ∧
    ∀ char ∈ others, isWordChar char = true

/-- The texts of tokens with their kinds. -/
inductive Lexeme : List Char → Kind → Prop where
  | sign (among : word ∈ Terminal.signs) : Lexeme word.spelling.toList (.terminal word)
  | whole (digits : Digits text) : Lexeme text (.number (Numeral.read text))
  | decimal (digits : Digits text) (fraction : Digits text') :
      Lexeme (text ++ '.' :: text') (.number (Numeral.read (text ++ '.' :: text')))
  | string (inside : '"' ∉ contents) :
      Lexeme ('"' :: (contents ++ ['"'])) (.string (String.ofList contents))
  | keyword (among : word ∈ Terminal.keywords) : Lexeme word.spelling.toList (.terminal word)
  | identifier (wordlike : Wordlike text)
      (other : ∀ word ∈ Terminal.keywords, word.spelling.toList ≠ text) : Lexeme text .identifier

/-- A text starts with no text of a token. -/
def Unlexed (rest : List Char) : Prop :=
  ∀ text kind, Lexeme text kind → ¬ text <+: rest

/-- The longest text of a token that a text starts with, and the only kind that it has. -/
structure Longest (text : List Char) (kind : Kind) (rest : List Char) : Prop where
  lexeme : Lexeme text kind
  start : text <+: rest
  longest : ∀ other kind', Lexeme other kind' → other <+: rest → other.length ≤ text.length
  only : ∀ kind', Lexeme text kind' → kind' = kind

/-- What a lexeme is, judging by its first character. -/
inductive Start where
  | digit
  | letter
  | quote
  | sign
deriving DecidableEq

def Start.of (char : Char) : Start :=
  if char.isDigit then .digit
  else if isWordStart char then .letter
  else if char = '"' then .quote
  else .sign

theorem Start.of_digit (digit : char.isDigit = true) : of char = .digit := by
  simp [of, digit]

theorem isDigit_of_isWordStart (letter : isWordStart char = true) : char.isDigit = false := by
  have alpha : char.isAlpha = (decide (char.val ≥ 'A'.val ∧ char.val ≤ 'Z'.val) ||
      decide (char.val ≥ 'a'.val) && decide (char.val ≤ 'z'.val)) := rfl
  simp only [isWordStart, alpha, Bool.or_eq_true, Bool.and_eq_true, decide_eq_true_eq, beq_iff_eq,
    UInt32.le_iff_toNat_le, ge_iff_le] at letter
  rcases letter with letter | rfl
  · have numbers : 'A'.val.toNat = 65 ∧ 'a'.val.toNat = 97 ∧ '9'.val.toNat = 57 := by decide
    simp only [Char.isDigit, Bool.and_eq_false_iff, decide_eq_false_iff_not,
      UInt32.le_iff_toNat_le, ge_iff_le]
    omega
  · rfl

theorem Start.of_letter (letter : isWordStart char = true) : of char = .letter := by
  simp [of, letter, isDigit_of_isWordStart letter]

namespace Lexeme

/-- What lexemes with a given start are like. -/
def Form (head : Char) (tail : List Char) (kind : Kind) : Start → Prop
  | .digit => kind = .number (Numeral.read (head :: tail)) ∧ (Digits (head :: tail) ∨
      ∃ whole fraction, head :: tail = whole ++ '.' :: fraction ∧ Digits whole ∧ Digits fraction)
  | .letter => kind = wordKind (head :: tail) ∧ ∀ char ∈ tail, isWordChar char = true
  | .quote => ∃ contents, tail = contents ++ ['"'] ∧ '"' ∉ contents ∧
      kind = .string (String.ofList contents)
  | .sign => ∃ word ∈ Terminal.signs, word.spelling.toList = head :: tail ∧ kind = .terminal word

theorem start_sign : ∀ word ∈ Terminal.signs,
    word.spelling.toList.head?.map Start.of = some .sign := by
  decide

theorem spelling_keyword : ∀ word ∈ Terminal.keywords,
    word.spelling.toList.head?.map isWordStart = some true ∧
      word.spelling.toList.tail.all isWordChar = true := by
  decide

theorem sign_longer : ∀ word ∈ Terminal.signs, ∀ word' ∈ Terminal.signs,
    word.spelling.toList <+: word'.spelling.toList →
      word'.spelling.toList.length ≤ word.spelling.toList.length ∨
      (word, word') ∈ Terminal.lengthened ∧ word'.spelling.toList = word.spelling.toList ++ ['='] := by
  decide

theorem sign_injective : ∀ word ∈ Terminal.signs, ∀ word' ∈ Terminal.signs,
    word.spelling.toList = word'.spelling.toList → word = word' := by
  decide

theorem sign_start : ∀ word ∈ Terminal.signs,
    (∃ symbol ∈ Terminal.symbols, symbol.spelling.toList = word.spelling.toList.take 1) ∨
      ∃ pair ∈ Terminal.lengthened, pair.1.spelling.toList = word.spelling.toList.take 1 := by
  decide

theorem spelling_ne_nil : ∀ word ∈ Terminal.signs ++ Terminal.keywords, word.spelling.toList ≠ [] := by
  decide

theorem cons (lexeme : Lexeme text kind) : ∃ head tail, text = head :: tail := by
  apply List.exists_cons_of_ne_nil
  cases lexeme with
  | sign among => exact spelling_ne_nil _ (List.mem_append_left _ among)
  | whole digits => exact digits.nonempty
  | decimal => simp
  | string => exact List.cons_ne_nil _ _
  | keyword among => exact spelling_ne_nil _ (List.mem_append_right _ among)
  | identifier wordlike =>
    obtain ⟨first, others, rfl, -⟩ := wordlike
    exact List.cons_ne_nil _ _

theorem wordKind_keyword (among : word ∈ Terminal.keywords) :
    wordKind word.spelling.toList = .terminal word := by
  simp [wordKind, Terminal.keyword?_spelling word among]

theorem wordKind_identifier (other : ∀ word ∈ Terminal.keywords, word.spelling.toList ≠ text) :
    wordKind text = .identifier := by
  have none : Terminal.keyword? (String.ofList text) = none := by
    rw [Terminal.keyword?, List.find?_eq_none]
    intro word among found
    refine other word among ?_
    rw [beq_iff_eq.mp found, String.toList_ofList]
  simp [wordKind, none]

theorem form (lexeme : Lexeme (head :: tail) kind) : Form head tail kind (Start.of head) := by
  generalize same : head :: tail = text at lexeme
  cases lexeme with
  | sign among =>
    have sign := start_sign _ among
    rw [← same, List.head?_cons, Option.map_some, Option.some.injEq] at sign
    rw [sign]
    exact ⟨_, among, same.symm, rfl⟩
  | whole digits =>
    subst same
    rw [Start.of_digit (digits.all head List.mem_cons_self)]
    exact ⟨rfl, .inl digits⟩
  | @decimal whole fraction digits digits' =>
    have first : head ∈ whole := by
      obtain ⟨digit, others, rfl⟩ := List.exists_cons_of_ne_nil digits.nonempty
      cases same
      exact List.mem_cons_self
    rw [Start.of_digit (digits.all head first)]
    exact ⟨by rw [same], .inr ⟨whole, fraction, same, digits, digits'⟩⟩
  | string inside =>
    cases same
    exact ⟨_, rfl, inside, rfl⟩
  | keyword among =>
    obtain ⟨letter, others⟩ := spelling_keyword _ among
    rw [← same] at letter others
    rw [Start.of_letter (Option.some.inj letter)]
    exact ⟨by rw [same, wordKind_keyword among], List.all_eq_true.mp others⟩
  | identifier wordlike other =>
    obtain ⟨first, others, spelled, letter, chars⟩ := wordlike
    cases same.trans spelled
    rw [Start.of_letter letter]
    exact ⟨by rw [same, wordKind_identifier other], chars⟩

theorem kind_unique (lexeme : Lexeme text kind) (lexeme' : Lexeme text kind') : kind = kind' := by
  obtain ⟨head, tail, rfl⟩ := lexeme.cons
  have form := lexeme.form
  have form' := lexeme'.form
  cases start : Start.of head <;> rw [start] at form form'
  · exact form.1.trans form'.1.symm
  · exact form.1.trans form'.1.symm
  · obtain ⟨contents, rfl, -, rfl⟩ := form
    obtain ⟨contents', same, -, rfl⟩ := form'
    rw [List.append_cancel_right same]
  · obtain ⟨word, among, spelled, rfl⟩ := form
    obtain ⟨word', among', spelled', rfl⟩ := form'
    rw [sign_injective word among word' among' (spelled.trans spelled'.symm)]

end Lexeme

namespace Scan

/-- A text of one class is no longer than the first one that no character of the class follows. -/
theorem length_le_of_stops {holds : Char → Bool} (all : ∀ char ∈ other, holds char = true)
    (start : other <+: text ++ later) (stops : Stops holds later) : other.length ≤ text.length := by
  refine Nat.le_of_not_lt fun longer => ?_
  obtain ⟨more, rfl⟩ := List.prefix_of_prefix_length_le (List.prefix_append text later) start
    (Nat.le_of_lt longer)
  rw [List.prefix_append_right_inj] at start
  obtain ⟨next, others, rfl⟩ : ∃ next others, more = next :: others := by
    apply List.exists_cons_of_ne_nil
    rintro rfl
    simp at longer
  obtain ⟨rest, rfl⟩ := start
  have stop := stops next rfl
  rw [all next (by simp)] at stop
  cases stop

/-- No lexeme at the start of the texts together is longer than the first of them. -/
def Bounds (text later : List Char) : Prop :=
  ∀ other kind, Lexeme other kind → other <+: text ++ later → other.length ≤ text.length

/-- A lexeme at the start of a text has the form that goes with the first character. -/
theorem form_of_prefix (lexeme : Lexeme other kind) (start : other <+: head :: text) :
    ∃ tail, other = head :: tail ∧ tail <+: text ∧ Lexeme.Form head tail kind (Start.of head) := by
  obtain ⟨first, tail, rfl⟩ := lexeme.cons
  obtain ⟨rfl, rest⟩ := List.cons_prefix_cons.mp start
  exact ⟨tail, rfl, rest, lexeme.form⟩

theorem bounds_of_form {head : Char} {text later : List Char} {start : Start}
    (starts : Start.of head = start) (bound : ∀ tail kind, Lexeme.Form head tail kind start →
      tail <+: text ++ later → tail.length ≤ text.length) : Bounds (head :: text) later := by
  intro other kind lexeme start
  obtain ⟨tail, rfl, rest, form⟩ := form_of_prefix lexeme start
  rw [starts] at form
  exact Nat.succ_le_succ (bound tail kind form rest)

theorem bounds_string (inside : '"' ∉ contents) (later : List Char) :
    Bounds ('"' :: (contents ++ ['"'])) later := by
  refine bounds_of_form rfl fun tail kind form start => ?_
  obtain ⟨contents', rfl, inside', -⟩ := form
  obtain ⟨more, same⟩ := start
  have stops : ∀ rest, Stops (· != '"') (['"'] ++ rest) := fun rest => stops_cons rfl rest
  rw [List.append_assoc, List.append_assoc] at same
  obtain ⟨rfl, -⟩ := append_unique (plain_of_not_mem inside') (plain_of_not_mem inside) (stops more)
    (stops later) same
  exact Nat.le_refl _

/-- A number goes on after a point only if a digit follows. -/
theorem not_stops_fraction (digits : Digits fraction) (rest : List Char) :
    ¬ Stops Char.isDigit (fraction ++ rest) := by
  obtain ⟨digit, others, rfl⟩ := List.exists_cons_of_ne_nil digits.nonempty
  intro stops
  have stop := stops digit rfl
  rw [digits.all digit List.mem_cons_self] at stop
  cases stop

theorem stops_point (rest : List Char) : Stops Char.isDigit ('.' :: rest) :=
  stops_cons rfl rest

/-- A lexeme at the start of a text of digits is a number. -/
theorem number_of_prefix {digits : List Char} (known : Digits digits) (lexeme : Lexeme other kind)
    (start : other <+: digits ++ later) :
    Digits other ∨ ∃ whole fraction, other = whole ++ '.' :: fraction ∧ Digits whole ∧ Digits fraction := by
  obtain ⟨digit, others, rfl⟩ := List.exists_cons_of_ne_nil known.nonempty
  obtain ⟨tail, rfl, -, form⟩ := form_of_prefix lexeme start
  rw [Start.of_digit (known.all digit List.mem_cons_self)] at form
  exact form.2

theorem bounds_whole {text : List Char} (digits : Digits text) (ends : Stops Char.isDigit later)
    (point : ∀ fraction, later = '.' :: fraction → Stops Char.isDigit fraction) :
    Bounds text later := by
  intro other kind lexeme start
  rcases number_of_prefix digits lexeme start with other | ⟨whole, fraction, rfl, other, fraction'⟩
  · exact length_le_of_stops other.all start ends
  · obtain ⟨more, same⟩ := start
    rw [List.append_assoc] at same
    obtain ⟨-, rfl⟩ := append_unique other.all digits.all (stops_point _) ends same
    exact absurd (point _ rfl) (not_stops_fraction fraction' more)

theorem bounds_decimal {whole : List Char} (digits : Digits whole) (fraction : List Char)
    (ends : Stops Char.isDigit later) : Bounds (whole ++ '.' :: fraction) later := by
  intro other kind lexeme start
  rw [List.append_assoc] at start
  rcases number_of_prefix digits lexeme start with other | ⟨whole', fraction', rfl, other, other'⟩
  · have short := length_le_of_stops other.all start (stops_point _)
    rw [List.length_append]
    omega
  · obtain ⟨more, same⟩ := start
    rw [List.append_assoc] at same
    obtain ⟨rfl, rest⟩ := append_unique other.all digits.all (stops_point _) (stops_point _) same
    have short := length_le_of_stops other'.all ⟨more, (List.cons.inj rest).2⟩ ends
    simp only [List.length_append, List.length_cons]
    omega

theorem bounds_word (letter : isWordStart head = true) (others : List Char)
    (ends : Stops isWordChar later) : Bounds (head :: others) later :=
  bounds_of_form (Start.of_letter letter) fun _ _ form start => length_le_of_stops form.2 start ends

/-- A lexeme at the start of a sign is a sign. -/
theorem sign_of_prefix (among : word ∈ Terminal.signs) (lexeme : Lexeme other kind)
    (start : other <+: word.spelling.toList ++ later) :
    ∃ word' ∈ Terminal.signs, other = word'.spelling.toList := by
  obtain ⟨head, tail, spelled⟩ := List.exists_cons_of_ne_nil
    (Lexeme.spelling_ne_nil word (List.mem_append_left _ among))
  have sign := Lexeme.start_sign word among
  rw [spelled] at sign start
  obtain ⟨tail', rfl, -, form⟩ := form_of_prefix lexeme start
  rw [Option.some.inj sign] at form
  obtain ⟨word', among', spelled', -⟩ := form
  exact ⟨word', among', spelled'.symm⟩

/-- A sign that does not go on as a longer sign. -/
theorem bounds_sign (among : word ∈ Terminal.signs)
    (ends : ∀ longer, (word, longer) ∈ Terminal.lengthened → Stops (· == '=') later) :
    Bounds word.spelling.toList later := by
  intro other kind lexeme start
  obtain ⟨word', among', rfl⟩ := sign_of_prefix among lexeme start
  refine Nat.le_of_not_lt fun longer => ?_
  have goesOn := List.prefix_of_prefix_length_le (List.prefix_append _ later) start
    (Nat.le_of_lt longer)
  rcases Lexeme.sign_longer word among word' among' goesOn with short | ⟨pair, equal⟩
  · omega
  · rw [equal, List.prefix_append_right_inj] at start
    obtain ⟨rest, rfl⟩ := start
    cases ends word' pair '=' rfl

theorem sign_of_symbol : ∀ symbol ∈ Terminal.symbols,
    symbol ∈ Terminal.signs ∧ ∀ pair ∈ Terminal.lengthened, pair.1 ≠ symbol := by
  decide

theorem sign_of_lengthened : ∀ pair ∈ Terminal.lengthened,
    pair.1 ∈ Terminal.signs ∧ pair.2 ∈ Terminal.signs ∧
      ∀ other ∈ Terminal.lengthened, other.1 ≠ pair.2 := by
  decide

theorem lexeme_word (wordlike : Wordlike text) : Lexeme text (wordKind text) := by
  unfold wordKind
  cases found : Terminal.keyword? (String.ofList text) with
  | none =>
    refine .identifier wordlike fun word among spelled => ?_
    rw [← spelled, String.ofList_toList, Terminal.keyword?_spelling word among] at found
    cases found
  | some word =>
    have spelled : word.spelling = String.ofList text := by
      simpa using List.find?_some found
    have among : word ∈ Terminal.keywords := List.mem_of_find?_eq_some found
    have lexeme := Lexeme.keyword among
    rwa [spelled, String.toList_ofList] at lexeme

theorem longest_of_shape {first : Cut} (shape : Shape first) (kept : first.piece = .token kind) :
    Longest first.text kind (first.text ++ first.rest) := by
  suffices known : Lexeme first.text kind ∧ Bounds first.text first.rest by
    exact ⟨known.1, List.prefix_append _ _, known.2, fun _ other => other.kind_unique known.1⟩
  cases shape with
  | blank | comment | unterminated | unexpected => cases kept
  | string inside =>
    cases kept
    exact ⟨.string inside, bounds_string inside _⟩
  | whole digit digits ends point =>
    cases kept
    have digits := Digits.mk (List.cons_ne_nil _ _) (List.forall_mem_cons.mpr ⟨digit, digits⟩)
    exact ⟨.whole digits, bounds_whole digits ends point⟩
  | decimal digit digits digit' digits' ends =>
    cases kept
    have digits := Digits.mk (List.cons_ne_nil _ _) (List.forall_mem_cons.mpr ⟨digit, digits⟩)
    have digits' := Digits.mk (List.cons_ne_nil _ _) (List.forall_mem_cons.mpr ⟨digit', digits'⟩)
    exact ⟨.decimal digits digits', bounds_decimal digits _ ends⟩
  | word letter chars ends =>
    cases kept
    exact ⟨lexeme_word ⟨_, _, rfl, letter, chars⟩, bounds_word letter _ ends⟩
  | symbol among ends =>
    cases kept
    obtain ⟨sign, other⟩ := sign_of_symbol _ among
    exact ⟨.sign sign, bounds_sign sign fun longer pair => absurd rfl (other _ pair)⟩
  | short among ends =>
    cases kept
    have sign := (sign_of_lengthened _ among).1
    exact ⟨.sign sign, bounds_sign sign fun _ _ => ends⟩
  | long among =>
    cases kept
    obtain ⟨-, sign, other⟩ := sign_of_lengthened _ among
    exact ⟨.sign sign, bounds_sign sign fun longer pair => absurd rfl (other _ pair)⟩

/-- Where a piece is a fault, no lexeme begins. -/
theorem unlexed_of_shape {first : Cut} (shape : Shape first) (fails : first.piece = .fault fault) :
    Unlexed (first.text ++ first.rest) := by
  intro text kind lexeme start
  cases shape with
  | unterminated inside =>
    obtain ⟨tail, rfl, rest, form⟩ := form_of_prefix lexeme start
    obtain ⟨contents, rfl, -⟩ := form
    have member := rest.subset (List.mem_append_right contents List.mem_cons_self)
    simp only [List.append_eq, List.append_nil] at member
    exact inside member
  | @unexpected char _ other =>
    obtain ⟨tail, rfl, rest, form⟩ := form_of_prefix lexeme start
    have sign : Start.of char = .sign := by
      simp [Start.of, other.digit, other.word, other.quote]
    rw [sign] at form
    obtain ⟨word, among, spelled, -⟩ := form
    rcases Lexeme.sign_start word among with ⟨symbol, among, same⟩ | ⟨pair, among, same⟩
    · exact other.symbol symbol among (by rw [same, spelled]; rfl)
    · exact other.operator pair among (by rw [same, spelled]; rfl)
  | _ => cases fails

end Scan

/-- An item is what the longest match makes of the text where it stands. -/
structure Item.Matches (rest : List Char) (item : Item) : Prop where
  last : item.IsEnd ↔ rest = []
  token : ∀ found, item = .token found → found.kind ≠ .eof →
    Longest found.lexeme.toList found.kind rest
  error : (∃ found, item = .error found) ↔ rest ≠ [] ∧ Unlexed rest
  character : ∀ char line, item = .error ⟨.unexpectedCharacter char, line⟩ →
    rest.head? = some char ∧ char ≠ '"'
  string : ∀ line, item = .error ⟨.unterminatedString, line⟩ →
    ∃ contents, rest = '"' :: contents ∧ '"' ∉ contents

namespace Item.Matches

/-- A token that is not the end of the source. -/
theorem of_longest {found : Token} (more : rest ≠ []) (other : found.kind ≠ .eof)
    (longest : Longest found.lexeme.toList found.kind rest) : (Item.token found).Matches rest where
  last := ⟨by rintro ⟨_, ⟨rfl⟩, ended⟩; exact absurd ended other, fun none => absurd none more⟩
  token := by
    rintro _ ⟨rfl⟩ -
    exact longest
  error := ⟨by rintro ⟨_, ⟨⟩⟩, fun unlexed => absurd longest.start (unlexed.2 _ _ longest.lexeme)⟩
  character := by rintro _ _ ⟨⟩
  string := by rintro _ ⟨⟩

theorem of_unlexed {error : LexError} (more : rest ≠ []) (unlexed : Unlexed rest)
    (character : ∀ char, error.fault = .unexpectedCharacter char → rest.head? = some char ∧ char ≠ '"')
    (string : error.fault = .unterminatedString → ∃ contents, rest = '"' :: contents ∧ '"' ∉ contents) :
    (Item.error error).Matches rest where
  last := ⟨by rintro ⟨_, ⟨⟩, _⟩, fun none => absurd none more⟩
  token := by rintro _ ⟨⟩
  error := ⟨fun _ => ⟨more, unlexed⟩, fun _ => ⟨error, rfl⟩⟩
  character := by
    rintro char line ⟨rfl⟩
    exact character char rfl
  string := by
    rintro line ⟨rfl⟩
    exact string rfl

end Item.Matches

namespace Scan

theorem matches_of_shape {first : Cut} (shape : Shape first) (items : first.items line = [item])
    (within : ∀ kind, first.piece = .token kind → kind ≠ .eof) (nonempty : first.text ≠ []) :
    item.Matches (first.text ++ first.rest) := by
  have more : first.text ++ first.rest ≠ [] := List.append_ne_nil_of_left_ne_nil nonempty _
  unfold Cut.items at items
  split at items
  · cases items
  · rename_i kind token
    cases items
    exact .of_longest more (within kind token) (by simpa using longest_of_shape shape token)
  · rename_i fault fails
    cases items
    refine .of_unlexed more (unlexed_of_shape shape fails) ?_ ?_
    · rintro char rfl
      cases shape with
      | unexpected other =>
        cases fails
        exact ⟨rfl, other.quote⟩
      | _ => cases fails
    · rintro rfl
      cases shape with
      | unterminated inside => exact ⟨_, List.append_nil _, inside⟩
      | _ => cases fails

theorem matches_of_cut {span after : List Char} {item : Item}
    (cut : Place.Cut line span after item) : item.Matches (span ++ after) := by
  cases cut with
  | last span after item =>
    subst span after item
    refine ⟨⟨fun _ => rfl, fun _ => ⟨_, rfl, rfl⟩⟩, ?_, ⟨nofun, fun unlexed => absurd rfl unlexed.1⟩,
      nofun, nofun⟩
    rintro _ ⟨rfl⟩ other
    exact absurd rfl other
  | @piece head tail _ span rest items =>
    rw [← span, ← rest]
    exact matches_of_shape (cut_shape head tail) items
      (fun kind token => (cut_spelled head tail kind token).1) (cut_text_ne_nil head tail)

end Scan

/-- Scanning is by the longest match. -/
theorem items_longest (source : String) : ∃ places,
    (∀ others, Places 1 source.toList others ↔ others = places) ∧
    ∀ before place after, places = before ++ place :: after →
      place.item.Matches (place.span ++ Place.text after) := by
  obtain ⟨places, placed, cuts⟩ := exists_placed 1 source.toList
  refine ⟨places, fun others => ⟨fun other => other.unique placed, fun same => same ▸ placed⟩, ?_⟩
  exact fun before place after same => Scan.matches_of_cut (cuts before place after same)

end Lox
