/-!
Finite maps from names, as the scopes of the analysis, the scopes of a run, the fields of an
instance and the methods of a class are. Binding a name again replaces its value.
-/

namespace Lox

/-- Names with the values they are bound to, each name once. -/
structure Bindings (α : Type) where
  entries : List (String × α)
deriving Inhabited

namespace Bindings

variable {α : Type}

def empty : Bindings α := ⟨[]⟩

def findEntry? (name : String) : List (String × α) → Option α
  | [] => none
  | (key, value) :: rest => if key = name then some value else findEntry? name rest

def find? (bindings : Bindings α) (name : String) : Option α :=
  findEntry? name bindings.entries

def contains (bindings : Bindings α) (name : String) : Bool :=
  (bindings.find? name).isSome

def insertEntry (name : String) (value : α) : List (String × α) → List (String × α)
  | [] => [(name, value)]
  | (key, held) :: rest =>
    if key = name then (key, value) :: rest else (key, held) :: insertEntry name value rest

/-- Binds a name, in the place of its former binding if there is one. -/
def insert (bindings : Bindings α) (name : String) (value : α) : Bindings α :=
  ⟨insertEntry name value bindings.entries⟩

/-- Binds names in order, so that the last binding of a name counts. -/
def ofList (entries : List (String × α)) : Bindings α :=
  entries.foldl (fun bindings (name, value) => bindings.insert name value) empty

@[simp] theorem find?_empty (name : String) : (empty : Bindings α).find? name = none := rfl

private theorem findEntry?_insertEntry (name other : String) (value : α)
    (entries : List (String × α)) :
    findEntry? other (insertEntry name value entries) =
      if other = name then some value else findEntry? other entries := by
  induction entries with
  | nil => by_cases same : name = other <;> simp [insertEntry, findEntry?, same, eq_comm]
  | cons head rest ih =>
    obtain ⟨key, held⟩ := head
    by_cases found : key = name
    · subst found
      by_cases same : key = other
      · simp [insertEntry, findEntry?, same]
      · have different : other ≠ key := Ne.symm same
        simp [insertEntry, findEntry?, same, different]
    · by_cases here : key = other
      · subst here
        simp [insertEntry, findEntry?, found]
      · simp [insertEntry, findEntry?, found, here, ih]

/-- Reading after writing gives the written value at the name and changes no other. -/
theorem find?_insert (bindings : Bindings α) (name other : String) (value : α) :
    (bindings.insert name value).find? other =
      if other = name then some value else bindings.find? other :=
  findEntry?_insertEntry name other value bindings.entries

theorem contains_insert (bindings : Bindings α) (name other : String) (value : α) :
    (bindings.insert name value).contains other = (other = name || bindings.contains other) := by
  unfold contains
  rw [find?_insert]
  by_cases same : other = name <;> simp [same]

end Bindings

end Lox
