import Lox.Proofs.Token.Join
import Lox.Proofs.Token.Shape
import Lox.Token.Stream

/-! Where the items of a source stand. Each item has a span of the text, the spans follow one another in
the order of the items, and between them there are blanks and comments only. -/

namespace Lox

/-- Text that is passed over before the text `after`. A comment goes on to the end of its line. -/
inductive Gap (after : List Char) : List Char → Prop where
  | none : Gap after []
  | blank (blank : char ∈ blanks) (others : Gap after rest) : Gap after (char :: rest)
  | comment (inside : '\n' ∉ words) (ends : Scan.Stops (· != '\n') (rest ++ after))
      (others : Gap after rest) : Gap after ('/' :: '/' :: (words ++ rest))

/-- A text at whose start nothing is passed over. -/
structure Gapless (text : List Char) : Prop where
  blank : ∀ head ∈ text.head?, head ∉ blanks
  comment : ¬ ['/', '/'] <+: text

namespace Item

def line : Item → Nat
  | .token found => found.line
  | .error found => found.line

/-- Whether an item is the end of the source. -/
def IsEnd (item : Item) : Prop :=
  ∃ found, item = .token found ∧ found.kind = .eof

/-- The text that an item stands for, where the text `after` follows. -/
def Covers (span after : List Char) : Item → Prop
  | .token found => span = found.lexeme.toList
  | .error ⟨.unexpectedCharacter char, _⟩ => span = [char]
  | .error ⟨.unterminatedString, _⟩ => (∃ contents, span = '"' :: contents ∧ '"' ∉ contents) ∧ after = []

end Item

/-- An item in its place: the text passed over before it and the text that it stands for. -/
structure Place where
  gap : List Char
  span : List Char
  item : Item

namespace Place

/-- The text of places in a row. -/
def text (places : List Place) : List Char :=
  places.flatMap fun place => place.gap ++ place.span

/-- A place before the text `after`. -/
structure Stands (place : Place) (after : List Char) : Prop where
  gap : Gap (place.span ++ after) place.gap
  begins : Gapless (place.span ++ after)
  covers : place.item.Covers place.span after
  nonempty : ¬ place.item.IsEnd → place.span ≠ []

/-- An item is what a text is cut into at its start, or else the end of the source. -/
inductive Cut (line : Nat) (span after : List Char) (item : Item) : Prop where
  | last (span : span = []) (after : after = []) (item : item = .token (.eof line))
  | piece (cut : span ++ after = head :: tail) (span : (Scan.cut head tail).text = span)
      (rest : (Scan.cut head tail).rest = after) (items : (Scan.cut head tail).items line = [item])

end Place

/-- Places of all the items of a text that starts on a line. Their gaps and spans are the text. -/
structure Places (line : Nat) (source : List Char) (places : List Place) : Prop where
  items : places.map (·.item) = Scan.itemsFrom line source
  text : Place.text places = source
  stands : ∀ before place after, places = before ++ place :: after → place.Stands (Place.text after)
  lines : ∀ before place after, places = before ++ place :: after →
    place.item.line = line + (Place.text (before ++ [place])).count '\n'

theorem Gapless.nil : Gapless [] :=
  ⟨nofun, by simp⟩

theorem Gapless.not_blank (gapless : Gapless (char :: rest)) : char ∉ blanks :=
  gapless.blank char rfl

theorem Gapless.not_comment (gapless : Gapless ('/' :: '/' :: rest)) : False :=
  gapless.comment ⟨rest, rfl⟩

/-- A gap ends in one place only. -/
theorem Gap.unique (gap : Gap after text) (gap' : Gap after' text') (begins : Gapless after)
    (begins' : Gapless after') (same : text ++ after = text' ++ after') :
    text = text' ∧ after = after' := by
  induction gap generalizing text' with
  | none =>
    cases gap' with
    | none => exact ⟨rfl, same⟩
    | blank blank =>
      cases same
      exact absurd blank begins.not_blank
    | comment =>
      cases same
      exact begins.not_comment.elim
  | blank blank _ ih =>
    cases gap' with
    | none =>
      cases same
      exact absurd blank begins'.not_blank
    | blank blank' others =>
      obtain ⟨rfl, later⟩ := List.cons.inj same
      obtain ⟨rfl, rfl⟩ := ih others later
      exact ⟨rfl, rfl⟩
    | comment =>
      obtain ⟨rfl, -⟩ := List.cons.inj same
      exact absurd blank (by decide)
  | @comment words rest inside ends _ ih =>
    cases gap' with
    | none =>
      cases same
      exact begins'.not_comment.elim
    | blank blank =>
      obtain ⟨rfl, -⟩ := List.cons.inj same
      exact absurd blank (by decide)
    | @comment words' rest' inside' ends' others =>
      simp only [List.cons_append, List.append_assoc, List.cons.injEq, true_and] at same
      obtain ⟨rfl, later⟩ := Scan.append_unique (Scan.plain_of_not_mem inside)
        (Scan.plain_of_not_mem inside') ends ends' same
      obtain ⟨rfl, rfl⟩ := ih others later
      exact ⟨rfl, rfl⟩

theorem Gapless.of_head (first : head ∈ text.head?) (other : head ∉ '/' :: blanks)
    (later : List Char) : Gapless (text ++ later) := by
  obtain ⟨tail, rfl⟩ := List.head?_eq_some_iff.mp first
  refine ⟨?_, fun comment => ?_⟩
  · rintro _ ⟨⟩
    exact fun blank => other (List.mem_cons_of_mem _ blank)
  · rw [List.cons_append, List.cons_prefix_cons] at comment
    exact other (comment.1 ▸ List.mem_cons_self)

theorem Gapless.of_spelling (first : text.head?.map ('/' :: blanks).contains = some false)
    (later : List Char) : Gapless (text ++ later) := by
  obtain ⟨head, first, other⟩ := Option.map_eq_some_iff.mp first
  exact of_head first (by simpa using other) later

namespace Scan

open Place (text)

/-- A character of a class that has neither the slash nor the blanks. -/
theorem not_mem_of_holds {holds : Char → Bool} (others : ('/' :: blanks).any holds = false)
    (first : holds head = true) : head ∉ '/' :: blanks :=
  fun member => List.any_eq_false.mp others head member first

theorem head_symbol : ∀ symbol ∈ Terminal.symbols, symbol ≠ .slash →
    symbol.spelling.toList.head?.map ('/' :: blanks).contains = some false := by
  decide

theorem head_lengthened : ∀ pair ∈ Terminal.lengthened,
    pair.1.spelling.toList.head?.map ('/' :: blanks).contains = some false ∧
      pair.2.spelling.toList.head?.map ('/' :: blanks).contains = some false := by
  decide

/-- Where a piece is no gap, there is no gap. -/
theorem Shape.gapless (shape : Shape first) (kept : first.piece ≠ .blank) :
    Gapless (first.text ++ first.rest) := by
  cases shape with
  | blank | comment => exact absurd rfl kept
  | string | unterminated => exact .of_head rfl (by decide) _
  | whole first | decimal first | word first =>
    exact .of_head rfl (not_mem_of_holds (by decide) first) _
  | unexpected other =>
    refine .of_head rfl (fun member => ?_) _
    rcases List.mem_cons.mp member with slash | blank
    · exact other.symbol .slash (by decide) (slash ▸ rfl)
    · exact other.blank blank
  | symbol among ends =>
    rename_i symbol later
    by_cases slash : symbol = .slash
    · subst slash
      refine ⟨by rintro _ ⟨⟩; decide, fun comment => ?_⟩
      obtain ⟨rest, rfl⟩ := (List.cons_prefix_cons.mp comment).2
      simpa using ends rfl '/' rfl
    · exact .of_spelling (head_symbol _ among slash) _
  | short among => exact .of_spelling (head_lengthened _ among).1 _
  | long among => exact .of_spelling (head_lengthened _ among).2 _

theorem gapless_cut {head : Char} {tail : List Char} (kept : (cut head tail).piece ≠ .blank) :
    Gapless (head :: tail) := by
  rw [← cut_text_append_rest]
  exact (cut_shape head tail).gapless kept

/-- The item of a piece covers its text. -/
theorem covers_cut {head : Char} {tail : List Char}
    (items : (cut head tail).items line = [item]) :
    item.Covers (cut head tail).text (cut head tail).rest := by
  have shape := cut_shape head tail
  generalize cut head tail = first at items shape ⊢
  cases shape with
  | blank | comment => cases items
  | unterminated inside =>
    cases items
    exact ⟨⟨_, rfl, inside⟩, rfl⟩
  | unexpected other =>
    cases items
    rfl
  | _ =>
    cases items
    exact String.toList_ofList.symm

/-- What is passed over at the start of a text makes a gap longer. -/
theorem gap_cut {head : Char} {tail : List Char} (passed : (cut head tail).piece = .blank)
    (rest : (cut head tail).rest = more ++ after) (gap : Gap after more) :
    Gap after ((cut head tail).text ++ more) := by
  have shape := cut_shape head tail
  generalize cut head tail = first at passed rest shape ⊢
  cases shape with
  | blank blank => exact .blank blank gap
  | comment inside ends =>
    cases rest
    exact .comment inside ends gap
  | _ => cases passed

theorem text_cons (place : Place) (places : List Place) :
    text (place :: places) = place.gap ++ place.span ++ text places :=
  rfl

theorem itemsFrom_ne_nil (line : Nat) (source : List Char) : itemsFrom line source ≠ [] := by
  induction source using pieces generalizing line with
  | nil => simp [itemsFrom]
  | cons head tail ih =>
    rw [itemsFrom_cons]
    exact fun none => ih _ (List.append_eq_nil_iff.mp none).2

theorem exists_places (line : Nat) (source : List Char) : ∃ places : List Place,
    places.map (·.item) = itemsFrom line source ∧ text places = source ∧
    ∀ before place after, places = before ++ place :: after →
      Gap (place.span ++ text after) place.gap ∧
      Place.Cut (line + (text (before ++ [place])).count '\n') place.span (text after) place.item := by
  induction source using pieces generalizing line with
  | nil =>
    refine ⟨[⟨[], [], .token (.eof line)⟩], by simp [itemsFrom], rfl, ?_⟩
    rintro (_ | ⟨_, _ | _⟩) place after same <;> cases same
    exact ⟨.none, .last rfl rfl rfl⟩
  | cons head tail ih =>
    have whole := cut_text_append_rest head tail
    obtain ⟨places, items, covered, stands⟩ := ih (line + (cut head tail).text.count '\n')
    cases found : (cut head tail).items (line + (cut head tail).text.count '\n') with
    | nil =>
      have passed : (cut head tail).piece = .blank := by
        unfold Cut.items at found
        split at found <;> simp_all
      obtain _ | ⟨first, later⟩ := places
      · exact absurd items.symm (itemsFrom_ne_nil _ _)
      refine ⟨⟨(cut head tail).text ++ first.gap, first.span, first.item⟩ :: later, ?_, ?_, ?_⟩
      · rw [itemsFrom_cons, ← items, found]
        rfl
      · rw [← whole, ← covered]
        simp [text_cons]
      · rintro (_ | ⟨other, before⟩) place after same
        · obtain ⟨rfl, rfl⟩ := List.cons.inj same
          obtain ⟨gap, stand⟩ := stands [] first later rfl
          refine ⟨gap_cut passed ?_ gap, ?_⟩
          · rw [← covered]
            simp [text_cons]
          · simpa [text_cons, Nat.add_assoc] using stand
        · obtain ⟨rfl, rfl⟩ := List.cons.inj same
          obtain ⟨gap, stand⟩ := stands (first :: before) place after rfl
          exact ⟨gap, by simpa [text_cons, Nat.add_assoc] using stand⟩
    | cons item others =>
      have only : others = [] := by
        unfold Cut.items at found
        split at found <;> simp_all
      subst only
      refine ⟨⟨[], (cut head tail).text, item⟩ :: places, ?_, ?_, ?_⟩
      · rw [itemsFrom_cons, ← items, found]
        rfl
      · rw [← whole, ← covered]
        simp [text_cons]
      · rintro (_ | ⟨other, before⟩) place after same
        · obtain ⟨rfl, rfl⟩ := List.cons.inj same
          refine ⟨.none, .piece (covered ▸ whole) rfl covered.symm ?_⟩
          simpa [text] using found
        · obtain ⟨rfl, rfl⟩ := List.cons.inj same
          obtain ⟨gap, stand⟩ := stands before place after rfl
          exact ⟨gap, by simpa [text_cons, Nat.add_assoc] using stand⟩

end Scan

theorem Item.Covers.unique {item : Item} (covers : item.Covers span after)
    (covers' : item.Covers span' after') (same : span ++ after = span' ++ after') :
    span = span' ∧ after = after' := by
  have texts : span = span' ∨ after = after' := by
    rcases item with found | ⟨char | _, line⟩
    · exact .inl (covers.trans covers'.symm)
    · exact .inl (covers.trans covers'.symm)
    · exact .inr (covers.2.trans covers'.2.symm)
  rcases texts with rfl | rfl
  · exact ⟨rfl, List.append_cancel_left same⟩
  · exact ⟨List.append_cancel_right same, rfl⟩

namespace Places

open Place (text)

/-- The items of a text have one place each. -/
theorem unique (places : Places line source list) (places' : Places line source list') :
    list = list' := by
  have items := places.items.trans places'.items.symm
  have texts := places.text.trans places'.text.symm
  have stands := places.stands
  have stands' := places'.stands
  clear places places'
  induction list generalizing list' with
  | nil => exact (List.map_eq_nil_iff.mp items.symm).symm
  | cons first rest ih =>
    obtain ⟨first', rest', rfl, item, others⟩ := List.map_eq_cons_iff.mp items.symm
    have item : first'.item = first.item := item
    have stand := stands [] first rest rfl
    have stand' := stands' [] first' rest' rfl
    rw [Scan.text_cons, Scan.text_cons, List.append_assoc, List.append_assoc] at texts
    obtain ⟨gap, later⟩ := stand.gap.unique stand'.gap stand.begins stand'.begins texts
    obtain ⟨span, covered⟩ := stand.covers.unique (item ▸ stand'.covers) later
    have same : first = first' := by
      obtain ⟨_, _, _⟩ := first
      obtain ⟨_, _, _⟩ := first'
      cases gap; cases span; cases item
      rfl
    subst same
    refine congrArg (first :: ·) (ih others.symm covered ?_ ?_)
    · exact fun before place after same =>
        stands (first :: before) place after (congrArg (first :: ·) same)
    · exact fun before place after same =>
        stands' (first :: before) place after (congrArg (first :: ·) same)

end Places

namespace Scan

theorem Cut.line_of_items {cut : Cut} (items : cut.items line = [item]) : item.line = line := by
  unfold Cut.items at items
  split at items <;> cases items <;> rfl

theorem Cut.kept_of_items {cut : Cut} (items : cut.items line = [item]) : cut.piece ≠ .blank := by
  intro passed
  simp [Cut.items, passed] at items

theorem stands_of_cut {place : Place} (gap : Gap (place.span ++ after) place.gap)
    (cut : Place.Cut line place.span after place.item) :
    place.Stands after ∧ place.item.line = line := by
  cases cut with
  | last span after item =>
    subst after
    refine ⟨⟨gap, ?_, ?_, ?_⟩, ?_⟩
    · rw [span]
      exact .nil
    · rw [span, item]
      rfl
    · exact fun other => absurd ⟨_, item, rfl⟩ other
    · rw [item]
      rfl
  | piece cut span rest items =>
    refine ⟨⟨gap, ?_, ?_, ?_⟩, Cut.line_of_items items⟩
    · rw [cut]
      exact gapless_cut (Cut.kept_of_items items)
    · rw [← span, ← rest]
      exact covers_cut items
    · exact fun _ => span ▸ cut_text_ne_nil _ _

theorem Cut.not_isEnd_of_items {head : Char} {tail : List Char}
    (member : item ∈ (cut head tail).items line) : ¬ item.IsEnd := by
  rintro ⟨found, rfl, ended⟩
  unfold Cut.items at member
  split at member
  · cases member
  · rename_i kind piece
    obtain ⟨rfl⟩ := List.mem_singleton.mp member
    exact (cut_spelled head tail kind piece).1 ended
  · cases List.mem_singleton.mp member

/-- The last item is the end of the source, and no other item is. -/
theorem itemsFrom_end (line : Nat) (source : List Char) : ∃ own,
    itemsFrom line source = own ++ [.token (.eof (line + source.count '\n'))] ∧
      ∀ item ∈ own, ¬ item.IsEnd := by
  induction source using pieces generalizing line with
  | nil => exact ⟨[], by simp [itemsFrom], nofun⟩
  | cons head tail ih =>
    obtain ⟨own, items, others⟩ := ih (line + (cut head tail).text.count '\n')
    refine ⟨(cut head tail).items (line + (cut head tail).text.count '\n') ++ own, ?_, ?_⟩
    · rw [itemsFrom_cons, items, ← count_cut, Nat.add_assoc, List.append_assoc]
    · intro item member
      rcases List.mem_append.mp member with member | member
      · exact Cut.not_isEnd_of_items member
      · exact others item member

end Scan

theorem exists_placed (line : Nat) (source : List Char) : ∃ places, Places line source places ∧
    ∀ before place after, places = before ++ place :: after →
      Place.Cut place.item.line place.span (Place.text after) place.item := by
  obtain ⟨places, items, covered, stands⟩ := Scan.exists_places line source
  have all := fun before place after same =>
    Scan.stands_of_cut (stands before place after same).1 (stands before place after same).2
  refine ⟨places, ⟨items, covered, fun before place after same => (all before place after same).1,
    fun before place after same => (all before place after same).2⟩, fun before place after same => ?_⟩
  rw [(all before place after same).2]
  exact (stands before place after same).2

/-- Scanning loses, repeats and reorders nothing. The items stand in consecutive spans of the source with
only gaps between them, each on the line on which its span ends. The last item is the end of the source
and no other item is, and after it nothing more comes. -/
theorem items_cover_source (source : String) :
    (∃ places, Places 1 source.toList places) ∧
    (∃ own, Scan.items source = own ++ [.token (.eof (1 + source.toList.count '\n'))] ∧
      ∀ item ∈ own, ¬ item.IsEnd) ∧
    ∀ earlier, (ItemStream.ofSource source).nth? earlier = (Scan.items source)[earlier]? := by
  obtain ⟨places, placed, -⟩ := exists_placed 1 source.toList
  exact ⟨⟨places, placed⟩, Scan.itemsFrom_end 1 source.toList, ItemStream.nth?_eq 1 source.toList⟩

end Lox
