import Lox.Token.Scan

/-!
Scanning one item at a time. A stream passes over blanks to the next item, gives the end of the source
once, and then nothing more.
-/

namespace Lox

/-- The text that is left to scan and the line on which it starts. No text is left, not even an empty
one, once the end of the source was given. -/
structure ItemStream where
  rest : Option (List Char)
  line : Nat

namespace ItemStream

def ofSource (source : String) : ItemStream := ⟨some source.toList, 1⟩

/-- The first item of a text that starts on `line`, and the stream after it. -/
def advance (line : Nat) : List Char → Item × ItemStream
  | [] => (.token (.eof line), ⟨none, line⟩)
  | head :: tail =>
    let first := Scan.cut head tail
    let last := line + first.text.count '\n'
    match first.piece with
    | .blank => advance last first.rest
    | .token kind => (.token ⟨kind, String.ofList first.text, last⟩, ⟨some first.rest, last⟩)
    | .fault fault => (.error ⟨fault, last⟩, ⟨some first.rest, last⟩)
termination_by text => text.length
decreasing_by
  simpa using Nat.lt_succ_of_le (Scan.cut_rest_length head tail)

/-- The next item, if there is one, and the stream after it. -/
def next (stream : ItemStream) : Option Item × ItemStream :=
  match stream.rest with
  | none => (none, stream)
  | some text =>
    let (item, after) := advance stream.line text
    (some item, after)

/-- What a stream gives when it is asked once more than `earlier` times. -/
def nth? (stream : ItemStream) : (earlier : Nat) → Option Item
  | 0 => stream.next.1
  | earlier + 1 => stream.next.2.nth? earlier

/-- A stream gives the items of its text in order, and nothing after them. -/
theorem nth?_eq (line : Nat) (text : List Char) (earlier : Nat) :
    nth? ⟨some text, line⟩ earlier = (Scan.itemsFrom line text)[earlier]? := by
  fun_induction Scan.itemsFrom line text generalizing earlier with
  | case1 line =>
    have beyond : ∀ earlier, nth? ⟨none, line⟩ earlier = none := by
      intro earlier
      induction earlier with
      | zero => rfl
      | succ earlier ih => exact ih
    cases earlier with
    | zero => simp [nth?, next, advance]
    | succ earlier => simpa [nth?, next, advance] using beyond earlier
  | case2 line head tail first last later blank ih =>
    have same : next ⟨some (head :: tail), line⟩ = next ⟨some first.rest, last⟩ := by
      simp [next, advance, blank, first, last]
    rw [← ih]
    cases earlier <;> simp only [nth?, same]
  | case3 line head tail first last later kind found ih
  | case4 line head tail first last later fault found ih =>
    cases earlier with
    | zero => simp [nth?, next, advance, found, first, last]
    | succ earlier =>
      rw [List.getElem?_cons_succ, ← ih]
      simp [nth?, next, advance, found, first, last]

end ItemStream

end Lox
