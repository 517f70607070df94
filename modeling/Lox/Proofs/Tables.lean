import Lox.Bindings
import Mathlib.Data.List.Forall2

/-! Finite maps from names as lists of entries, and maps and arrays whose values are related. -/

namespace Lox

variable {α β : Type}

theorem rel_weaken {related other : α → β → Prop} (same : Option.Rel related one two)
    (implies : ∀ one two, related one two → other one two) : Option.Rel other one two := by
  cases same with
  | none => exact .none
  | some same => exact .some (implies _ _ same)

theorem getD_push (items : Array α) (item fallback : α) (index : Nat) :
    (items.push item).getD index fallback =
      if index = items.size then item else items.getD index fallback := by
  simp only [Array.getD_eq_getD_getElem?, Array.getElem?_push]
  split <;> rfl

namespace Bindings

theorem findEntry?_append (name : String) (before after : List (String × α)) :
    findEntry? name (before ++ after) = ( findEntry? name before).or ( findEntry? name after) := by
  induction before with
  | nil => simp [ findEntry?]
  | cons head rest ih =>
    obtain ⟨key, value⟩ := head
    by_cases same : key = name <;> simp [ findEntry?, same, ih]

theorem findEntry?_of_mem {entries : List (String × α)} (distinct : (entries.map (·.1)).Nodup)
    (member : (name, value) ∈ entries) : findEntry? name entries = some value := by
  induction entries with
  | nil => cases member
  | cons head rest ih =>
    obtain ⟨key, held⟩ := head
    obtain ⟨fresh, distinct⟩ := List.nodup_cons.mp distinct
    rcases List.mem_cons.mp member with same | member
    · cases same
      simp [ findEntry?]
    · have other : key ≠ name := by
        rintro rfl
        exact fresh (List.mem_map.mpr ⟨_, member, rfl⟩)
      simp only [ findEntry?, if_neg other]
      exact ih distinct member

theorem mem_of_findEntry {entries : List (String × α)}
    (found : findEntry? name entries = some value) : (name, value) ∈ entries := by
  induction entries with
  | nil => cases found
  | cons head rest ih =>
    obtain ⟨key, held⟩ := head
    by_cases same : key = name
    · simp only [ findEntry?, if_pos same, Option.some.injEq] at found
      simp [same, found]
    · simp only [ findEntry?, if_neg same] at found
      exact List.mem_cons_of_mem _ (ih found)

private theorem find?_foldl (entries : List (String × α)) (bindings : Bindings α) (name : String)
    (distinct : (entries.map (·.1)).Nodup) :
    (entries.foldl (fun bindings (key, value) => bindings.insert key value) bindings).find? name =
      ( findEntry? name entries).or (bindings.find? name) := by
  induction entries generalizing bindings with
  | nil => simp [ findEntry?]
  | cons head rest ih =>
    obtain ⟨key, held⟩ := head
    obtain ⟨fresh, distinct⟩ := List.nodup_cons.mp distinct
    rw [List.foldl_cons, ih _ distinct, find?_insert]
    by_cases same : name = key
    · subst same
      have missing : findEntry? name rest = none := by
        cases found : findEntry? name rest with
        | none => rfl
        | some value => exact absurd (List.mem_map.mpr ⟨_, mem_of_findEntry found, rfl⟩) fresh
      simp [ findEntry?, missing]
    · simp [ findEntry?, same, Ne.symm same]

/-- Distinct names are bound to what stands beside them. -/
theorem find?_ofList (entries : List (String × α)) (distinct : (entries.map (·.1)).Nodup)
    (name : String) : (ofList entries).find? name = findEntry? name entries := by
  unfold ofList
  rw [find?_foldl entries empty name distinct, find?_empty, Option.or_none]

/-- Of several bindings of a name in a list the last one counts. -/
theorem find?_ofList_last (entries : List (String × α)) (name : String) :
    (ofList entries).find? name = findEntry? name entries.reverse := by
  have general : ∀ bindings : Bindings α,
      (entries.foldl (fun bindings (key, value) => bindings.insert key value) bindings).find? name =
        ( findEntry? name entries.reverse).or (bindings.find? name) := by
    induction entries with
    | nil => simp [ findEntry?]
    | cons head rest ih =>
      intro bindings
      rw [List.foldl_cons, ih, find?_insert, List.reverse_cons, findEntry?_append, Option.or_assoc]
      by_cases same : name = head.1
      · simp [ findEntry?, same]
      · simp [ findEntry?, same, Ne.symm same]
  unfold ofList
  rw [general empty, find?_empty, Option.or_none]

/-- Maps of related entries are related. -/
theorem rel_ofList {related : α → β → Prop} {entries : List (String × α)}
    {entries' : List (String × β)}
    (same : List.Forall₂ (fun entry entry' => entry.1 = entry'.1 ∧ related entry.2 entry'.2) entries
      entries') (name : String) :
    Option.Rel related ((ofList entries).find? name) ((ofList entries').find? name) := by
  have general : ∀ (before : Bindings α) (before' : Bindings β),
      (∀ name, Option.Rel related (before.find? name) (before'.find? name)) → ∀ name,
      Option.Rel related
        ((entries.foldl (fun bindings (key, value) => bindings.insert key value) before).find? name)
        ((entries'.foldl (fun bindings (key, value) => bindings.insert key value)
          before').find? name) := by
    induction same with
    | nil => exact fun before before' start => start
    | cons here _ ih =>
      intro before before' start
      refine ih _ _ fun name => ?_
      rw [find?_insert, find?_insert, here.1]
      split
      · exact .some here.2
      · exact start name
  exact general empty empty (fun _ => .none) name

end Bindings

end Lox
