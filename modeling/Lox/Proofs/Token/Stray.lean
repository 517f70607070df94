import Lox.Proofs.Token.Pieces

/-! Characters that begin nothing. Such a character is a piece of text of its own and ends the piece before
it as a space does, so a source is scanned as if a space stood in its place, but for the errors that name
it. -/

namespace Lox

namespace Item

/-- Whether an item names a character that begins nothing. -/
def isStray : Item → Bool
  | .error ⟨.unexpectedCharacter _, _⟩ => true
  | _ => false

@[simp] theorem isStray_token (found : Token) : (Item.token found).isStray = false := rfl

@[simp] theorem isStray_unexpected (char : Char) (line : Nat) :
    (Item.error ⟨.unexpectedCharacter char, line⟩).isStray = true := rfl

@[simp] theorem isStray_unterminated (line : Nat) :
    (Item.error ⟨.unterminatedString, line⟩).isStray = false := rfl

end Item

namespace Place

/-- The text that stands in a place, or a space if that is a character that begins nothing. -/
def mendedSpan (place : Place) : List Char :=
  if place.item.isStray then [' '] else place.span

/-- The text of places in a row with a space for each character that begins nothing. -/
def mended (places : List Place) : List Char :=
  places.flatMap fun place => place.gap ++ place.mendedSpan

theorem mendedSpan_stray {place : Place} (item : place.item = .error ⟨.unexpectedCharacter char, line⟩) :
    place.mendedSpan = [' '] := by
  simp [mendedSpan, item]

theorem mendedSpan_kept {place : Place} (kept : place.item.isStray = false) :
    place.mendedSpan = place.span := by
  simp [mendedSpan, kept]

theorem mended_cons (place : Place) (later : List Place) :
    mended (place :: later) = place.gap ++ (place.mendedSpan ++ mended later) := by
  simp [mended]

end Place

/-- The errors that name the characters of a text for which another text has different ones, each with the
line on which it stands. -/
def changes (line : Nat) : List Char → List Char → List LexError
  | char :: text, other :: others =>
    let later := changes (line + [char].count '\n') text others
    if char = other then later else ⟨.unexpectedCharacter char, line⟩ :: later
  | _, _ => []

namespace Scan

/-- Two texts of which the second has spaces for some characters of the first that begin nothing. -/
inductive Mended : List Char → List Char → Prop where
  | nil : Mended [] []
  | same (char : Char) (others : Mended text text') : Mended (char :: text) (char :: text')
  | stray (other : Unexpected char) (others : Mended text text') :
      Mended (char :: text) (' ' :: text')

namespace Mended

theorem refl (text : List Char) : Mended text text := by
  induction text with
  | nil => exact .nil
  | cons char rest ih => exact .same char ih

theorem append (mended : Mended text text') (more : Mended later later') :
    Mended (text ++ later) (text' ++ later') := by
  induction mended with
  | nil => exact more
  | same char _ ih => exact .same char ih
  | stray other _ ih => exact .stray other ih

theorem stops (mended : Mended later later') (stops : Stops holds later)
    (kept : ∀ char, Unexpected char → holds char = false → holds ' ' = false) :
    Stops holds later' := by
  cases mended with
  | nil => exact stops
  | same char => exact stops_cons (stops char rfl) _
  | stray other => exact stops_cons (kept _ other (stops _ rfl)) _

/-- What a space ends is ended by a character that begins nothing as well. -/
theorem stops_space (mended : Mended later later') (space : holds ' ' = false) (stops : Stops holds later) :
    Stops holds later' :=
  mended.stops stops fun _ _ _ => space

theorem stops_line (mended : Mended later later') (stops : Stops (· != '\n') later) :
    Stops (· != '\n') later' := by
  refine mended.stops stops fun char other same => ?_
  obtain rfl : char = '\n' := by simpa using same
  exact absurd (by decide) other.blank

theorem cons_point (mended : Mended later ('.' :: fraction')) :
    ∃ fraction, later = '.' :: fraction ∧ Mended fraction fraction' := by
  cases mended with
  | same _ others => exact ⟨_, rfl, others⟩

end Mended

/-- A piece of text stays as it is if characters after it that begin nothing become spaces. -/
theorem Shape.mended (shape : Shape ⟨piece, text, later⟩) (mended : Mended later later') :
    Shape ⟨piece, text, later'⟩ := by
  cases shape with
  | blank blank => exact .blank blank
  | comment inside ends => exact .comment inside (mended.stops_line ends)
  | string inside => exact .string inside
  | unterminated inside =>
    cases mended
    exact .unterminated inside
  | whole digit digits ends point =>
    refine .whole digit digits (mended.stops_space rfl ends) fun fraction' same => ?_
    subst same
    obtain ⟨fraction, rfl, others⟩ := mended.cons_point
    exact others.stops_space rfl (point fraction rfl)
  | decimal digit digits digit' digits' ends =>
    exact .decimal digit digits digit' digits' (mended.stops_space rfl ends)
  | word letter chars ends => exact .word letter chars (mended.stops_space rfl ends)
  | symbol among ends => exact .symbol among fun slash => mended.stops_space rfl (ends slash)
  | short among ends => exact .short among (mended.stops_space rfl ends)
  | long among => exact .long among
  | unexpected other => exact .unexpected other

end Scan

theorem Gap.mended (gap : Gap after text) (mended : Scan.Mended after after') : Gap after' text := by
  induction gap with
  | none => exact .none
  | blank blank _ ih => exact .blank blank ih
  | comment inside ends _ ih =>
    exact .comment inside (((Scan.Mended.refl _).append mended).stops_line ends) ih

namespace Scan

/-- Characters that begin nothing end no line. -/
theorem Unexpected.count_line (other : Unexpected char) : [char].count '\n' = 0 := by
  refine List.count_eq_zero.mpr fun member => ?_
  obtain rfl := List.mem_singleton.mp member
  exact other.blank (by decide)

theorem stray_of_shape {first : Cut} (shape : Shape first) (items : first.items line = [item])
    (stray : item.isStray = true) : ∃ char, Unexpected char ∧ first.text = [char] ∧
      item = .error ⟨.unexpectedCharacter char, line⟩ := by
  cases shape with
  | unexpected other =>
    cases items
    exact ⟨_, other, rfl, rfl⟩
  | blank | comment => cases items
  | _ =>
    cases items
    cases stray

end Scan

/-- Places one after another, from a line on. The last is the end of the source, and each of the others has
a character that begins nothing or a piece of text that stands for another item. -/
inductive Row : Nat → List Place → Prop where
  | last (place : Place) (gap : Gap [] place.gap) (span : place.span = [])
      (item : place.item = .token (.eof (line + place.gap.count '\n'))) : Row line [place]
  | stray (place : Place) (gap : Gap (char :: Place.text later) place.gap) (other : Scan.Unexpected char)
      (span : place.span = [char])
      (item : place.item = .error ⟨.unexpectedCharacter char, line + place.gap.count '\n'⟩)
      (others : Row (line + place.gap.count '\n') later) : Row line (place :: later)
  | piece (place : Place) (gap : Gap (place.span ++ Place.text later) place.gap) (nonempty : place.span ≠ [])
      (shape : Scan.Shape ⟨piece, place.span, Place.text later⟩)
      (items : Scan.Cut.items ⟨piece, place.span, Place.text later⟩
        (line + place.gap.count '\n' + place.span.count '\n') = [place.item])
      (kept : place.item.isStray = false)
      (others : Row (line + place.gap.count '\n' + place.span.count '\n') later) :
      Row line (place :: later)

namespace Places

open Scan (itemsFrom)

theorem cut (places : Places line source list) (before : List Place) (place : Place) (after : List Place)
    (same : list = before ++ place :: after) :
    Place.Cut place.item.line place.span (Place.text after) place.item := by
  obtain ⟨list', places', cuts⟩ := exists_placed line source
  obtain rfl := places.unique places'
  exact cuts before place after same

theorem tail (places : Places line source (place :: later))
    (items : later.map (·.item) =
      itemsFrom (line + place.gap.count '\n' + place.span.count '\n') (Place.text later)) :
    Places (line + place.gap.count '\n' + place.span.count '\n') (Place.text later) later where
  items := items
  text := rfl
  stands before other after same :=
    places.stands (place :: before) other after (congrArg (place :: ·) same)
  lines before other after same := by
    have line := places.lines (place :: before) other after (congrArg (place :: ·) same)
    simpa [Scan.text_cons, Nat.add_assoc] using line

theorem row (places : Places line source list) : Row line list := by
  induction list generalizing line source with
  | nil => exact absurd places.items.symm (Scan.itemsFrom_ne_nil line source)
  | cons place later ih =>
    have gap := (places.stands [] place later rfl).gap
    have items := places.items
    rw [← places.text, Scan.text_cons, List.append_assoc, Scan.itemsFrom_gap gap] at items
    cases places.cut [] place later rfl with
    | last span after item =>
      rw [span, after] at items gap
      simp only [List.map_cons, List.append_nil, itemsFrom] at items
      obtain ⟨item, others⟩ := List.cons.inj items
      obtain rfl := List.map_eq_nil_iff.mp others
      exact .last place gap span item
    | @piece head tail cut span rest found =>
      have ends : place.item.line = line + place.gap.count '\n' + place.span.count '\n' := by
        simpa [Place.text, Nat.add_assoc] using places.lines [] place later rfl
      have shape := Scan.cut_shape head tail
      have nonempty := Scan.cut_text_ne_nil head tail
      rw [cut, Scan.itemsFrom_cons, span, rest, ← ends, found, ends] at items
      have row := ih (places.tail (List.cons.inj items).2)
      rw [ends] at found
      generalize Scan.cut head tail = first at shape nonempty span rest found
      obtain ⟨piece, _, _⟩ := first
      cases span
      cases rest
      by_cases stray : place.item.isStray = true
      · obtain ⟨char, other, span, item⟩ := Scan.stray_of_shape shape found stray
        have span : place.span = [char] := span
        rw [span] at gap row item
        rw [other.count_line, Nat.add_zero] at row item
        exact .stray place gap other span item row
      · exact .piece place gap nonempty shape found (by simpa using stray) row

end Places

namespace Scan

theorem changes_self (line : Nat) (text : List Char) : changes line text text = [] := by
  induction text generalizing line with
  | nil => rfl
  | cons char rest ih => simp [changes, ih]

theorem changes_append (length : text.length = other.length) (line : Nat) (more more' : List Char) :
    changes line (text ++ more) (other ++ more') =
      changes line text other ++ changes (line + text.count '\n') more more' := by
  induction text generalizing line other with
  | nil =>
    obtain rfl := List.length_eq_zero_iff.mp length.symm
    rfl
  | cons char rest ih =>
    cases other with
    | nil => cases length
    | cons char' rest' =>
      have later := ih (Nat.succ.inj length) (line + [char].count '\n')
      have count : (char :: rest).count '\n' = [char].count '\n' + rest.count '\n' := by
        rw [← List.count_append, List.singleton_append]
      simp only [List.cons_append, changes, later, count, Nat.add_assoc]
      split <;> simp

theorem Mended.length (mended : Mended text other) : text.length = other.length := by
  induction mended with
  | nil => rfl
  | same _ _ ih | stray _ _ ih => exact congrArg (· + 1) ih

/-- The items without the characters that begin nothing. -/
theorem ofItems_mended (items : List Item) :
    (ofItems (items.filter (!·.isStray))).tokens = (ofItems items).tokens ∧
      (ofItems (items.filter (!·.isStray))).errors =
        (ofItems items).errors.filter (·.fault = .unterminatedString) := by
  induction items with
  | nil => exact ⟨rfl, rfl⟩
  | cons item rest ih =>
    simp only [ofItems] at ih
    rcases item with token | ⟨char | _, line⟩ <;> simp [ofItems, ih]

theorem itemsFrom_unterminated (line : Nat) (text : List Char) :
    ((ofItems (itemsFrom line text)).errors.filter (·.fault = .unterminatedString)).length ≤ 1 := by
  induction text using pieces generalizing line with
  | nil => simp [itemsFrom, ofItems]
  | cons head tail ih =>
    have later := ih (line + (cut head tail).text.count '\n')
    have shape := cut_shape head tail
    rw [itemsFrom_cons]
    generalize cut head tail = first at later shape
    cases shape with
    | unterminated => simp [Cut.items, ofItems, itemsFrom]
    | _ => simpa [Cut.items, ofItems] using later

end Scan

namespace Row

open Place (mended mended_cons mendedSpan_stray mendedSpan_kept text)
open Scan (Mended changes_append changes_self itemsFrom itemsFrom_gap itemsFrom_shape ofItems text_cons)

theorem mends (row : Row line list) : Mended (text list) (mended list) := by
  induction row with
  | last place gap span item =>
    have kept : place.item.isStray = false := by simp [item]
    rw [text_cons, mended_cons, mendedSpan_kept kept, List.append_assoc]
    exact .refl _
  | stray place gap other span item _ ih =>
    rw [text_cons, mended_cons, mendedSpan_stray item, span, List.append_assoc]
    exact (Mended.refl place.gap).append (.stray other ih)
  | piece place gap nonempty shape items kept _ ih =>
    rw [text_cons, mended_cons, mendedSpan_kept kept, List.append_assoc]
    exact (Mended.refl place.gap).append ((Mended.refl place.span).append ih)

theorem items_mended (row : Row line list) :
    itemsFrom line (mended list) = (list.map (·.item)).filter (!·.isStray) := by
  induction row with
  | @last line place gap span item =>
    have kept : place.item.isStray = false := by simp [item]
    have ended : itemsFrom line (mended [place]) = itemsFrom (line + place.gap.count '\n') [] := by
      rw [mended_cons, mendedSpan_kept kept, span]
      exact itemsFrom_gap gap line
    rw [ended]
    simp [itemsFrom, item]
  | @stray char later _ place gap other span item others ih =>
    have passed (text : List Char) (line : Nat) : itemsFrom line (' ' :: text) = itemsFrom line text := by
      rw [Scan.itemsFrom_cons]
      rfl
    have gap' := gap.mended (.stray other others.mends)
    rw [mended_cons, mendedSpan_stray item, List.singleton_append, itemsFrom_gap gap', passed, ih]
    simp [item]
  | piece place gap nonempty shape items kept others ih =>
    have gap' := gap.mended ((Mended.refl place.span).append others.mends)
    have shape' := shape.mended others.mends
    rw [mended_cons, mendedSpan_kept kept, itemsFrom_gap gap', itemsFrom_shape shape' nonempty, ih]
    simp only [Scan.Cut.items] at items ⊢
    rw [items]
    simp [kept]

theorem changes_mended (row : Row line list) : changes line (text list) (mended list) =
    (ofItems (list.map (·.item))).errors.filter (·.fault ≠ .unterminatedString) := by
  induction row with
  | last place gap span item =>
    have kept : place.item.isStray = false := by simp [item]
    rw [text_cons, mended_cons, mendedSpan_kept kept, List.append_assoc]
    simp [text, mended, changes_self, ofItems, item]
  | @stray char later line place gap other span item others ih =>
    have space : char ≠ ' ' := by
      rintro rfl
      exact other.blank (by decide)
    have here : changes (line + place.gap.count '\n') [char] [' '] =
        [⟨.unexpectedCharacter char, line + place.gap.count '\n'⟩] := by
      simp [changes, space]
    have same : [char].length = [' '].length := rfl
    rw [text_cons, mended_cons, mendedSpan_stray item, span, List.append_assoc, changes_append rfl,
      changes_self, changes_append same, here, other.count_line, Nat.add_zero, ih]
    simp [ofItems, item]
  | piece place gap nonempty shape items kept others ih =>
    rw [text_cons, mended_cons, mendedSpan_kept kept, List.append_assoc, changes_append rfl,
      changes_self, changes_append rfl, changes_self, ih]
    rcases item : place.item with token | ⟨char | _, line⟩
    · simp [ofItems, item]
    · simp [item] at kept
    · simp [ofItems, item]

end Row

/-- Characters that begin nothing affect nothing else. With one space for each of them a source has the same
tokens, and of its errors only that of an unterminated string is left. The others name these characters,
one each and in order. -/
theorem stray_characters_apart (source : String) : ∃ places,
    (∀ others, Places 1 source.toList others ↔ others = places) ∧
    let mended := Place.mended places
    let scan := Scan.ofSource source
    let again := Scan.ofSource (String.ofList mended)
    mended.length = source.toList.length ∧ again.tokens = scan.tokens ∧
      again.errors = scan.errors.filter (·.fault = .unterminatedString) ∧ again.errors.length ≤ 1 ∧
      scan.errors.filter (·.fault ≠ .unterminatedString) = changes 1 source.toList mended := by
  obtain ⟨places, placed, -⟩ := exists_placed 1 source.toList
  have row := placed.row
  have items : Scan.items (String.ofList (Place.mended places)) =
      (Scan.items source).filter (!·.isStray) := by
    rw [Scan.items, String.toList_ofList, row.items_mended, placed.items, Scan.items]
  obtain ⟨tokens, errors⟩ := Scan.ofItems_mended (Scan.items source)
  have few := Scan.itemsFrom_unterminated 1 source.toList
  have length := row.mends.length
  have changed := row.changes_mended
  rw [placed.text] at length changed
  rw [placed.items] at changed
  refine ⟨places, fun others => ⟨fun other => other.unique placed, fun same => same ▸ placed⟩, ?_⟩
  simp only [Scan.ofSource, items]
  exact ⟨length.symm, tokens, errors, errors ▸ few, changed.symm⟩

/-- Slashes that are no comment, and a string that is not closed. -/
example : (Scan.ofSource "/#/\n\"@").errors =
    changes 1 "/#/\n\"@".toList "/ /\n\"@".toList ++ [⟨.unterminatedString, 2⟩] := by
  decide +kernel

end Lox
