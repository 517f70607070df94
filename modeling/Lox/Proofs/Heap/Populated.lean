import Lox.Proofs.Heap.Stays
import Lox.Proofs.Machine.Methods
import Lox.Proofs.Scope.Occurrences

/-! Scopes of a run beside the names declared in the scopes of the program text. Where code runs, the scopes
outward from the present one bind all names that are declared before it, except that in its own initializer
a local variable may still be missing. -/

namespace Lox

namespace Scopes

/-- The scopes outward from the given one bind the names of the levels. Only the name that is being
initialized may be missing, in the innermost one. -/
inductive Populated (scopes : Scopes) : Option String → Levels → ScopeRef → Prop where
  | globals : Populated scopes none [] Heap.globals
  | inside (link : scopes.enclosing? scope = some outer)
      (bound : ∀ name ∈ names, initializing ≠ some name → (scopes.valueIn? scope name).isSome)
      (around : Populated scopes none levels outer) :
      Populated scopes initializing (names :: levels) scope

/-- Writing a name gives no other name a value, and none in another scope. -/
theorem isSome_of_define {scopes : Scopes}
    (bound : ((scopes.define scope name value).valueIn? other wanted).isSome) :
    (scopes.valueIn? other wanted).isSome ∨ other = scope ∧ wanted = name := by
  by_cases here : wanted = name
  · subst here
    by_cases there : scope = other
    · exact .inr ⟨there.symm, rfl⟩
    · unfold valueIn? at bound ⊢
      rw [cells_define, if_neg there] at bound
      exact .inl bound
  · rw [valueIn?_define_of_ne scopes scope other value here] at bound
    exact .inl bound

theorem index_lt_of_enclosing? {scopes : Scopes} (link : scopes.enclosing? scope = some outer) :
    scope.index < scopes.cells.size := by
  obtain ⟨cell, present, _⟩ := Option.bind_eq_some_iff.mp link
  exact (Array.getElem?_eq_some_iff.mp present).1

/-- The scope in which a global name is found binds it. -/
theorem isSome_of_nearestWithin? {scopes : Scopes}
    (found : scopes.nearestWithin? name bound scope = some target) :
    (scopes.valueIn? target name).isSome := by
  induction bound generalizing scope with
  | zero => cases found
  | succ bound ih =>
    unfold nearestWithin? at found
    split at found
    · rename_i bound
      cases found
      exact bound
    · obtain ⟨outer, _, found⟩ := Option.bind_eq_some_iff.mp found
      exact ih found

namespace Populated

variable {scopes : Scopes} {levels : Levels} {initializing : Option String} {scope : ScopeRef}

/-- The scope at the address of a name binds it, unless it is the present one and the name is being
initialized. -/
theorem reaches (populated : scopes.Populated initializing levels scope)
    (nearest : levels.Nearest name distance) :
    ∃ target, scopes.ancestor? scope distance = some target ∧
      ((scopes.valueIn? target name).isSome ∨ target = scope ∧ initializing = some name) := by
  induction populated generalizing distance with
  | globals => exact absurd nearest (Levels.not_nearest_nil name distance)
  | @inside scope outer names initializing levels link bound around ih =>
    by_cases known : name ∈ names
    · rw [Levels.nearest_cons_mem known] at nearest
      subst nearest
      refine ⟨scope, rfl, ?_⟩
      by_cases own : initializing = some name
      · exact .inr ⟨rfl, own⟩
      · exact .inl (bound name known own)
    · obtain ⟨closer, rfl, outside⟩ := (Levels.nearest_cons_not_mem known).mp nearest
      obtain ⟨target, reached, held⟩ := ih outside
      refine ⟨target, ?_, .inl (held.resolve_right nofun)⟩
      simpa [ancestor?, link] using reached

/-- At the start of an initializer. -/
theorem enterInitializer (populated : scopes.Populated none levels scope) (name : Name) :
    scopes.Populated (Position.inInitializer levels name).initializing
      (Position.inInitializer levels name).levels scope := by
  cases populated with
  | globals => exact .globals
  | inside link bound around =>
    refine .inside link (fun wanted member other => ?_) around
    rcases List.mem_append.mp member with own | member
    · exact absurd (congrArg some (List.mem_singleton.mp own).symm) other
    · exact bound wanted member nofun

theorem declare (populated : scopes.Populated none levels scope)
    (given : (scopes.valueIn? scope name).isSome) :
    scopes.Populated none (levels.declare [name]) scope := by
  cases populated with
  | globals => exact .globals
  | inside link bound around =>
    refine .inside link (fun wanted member other => ?_) around
    rcases List.mem_append.mp member with own | member
    · exact List.mem_singleton.mp own ▸ given
    · exact bound wanted member other

end Populated

end Scopes

namespace Heap

theorem Stays.populated {heap later : Heap} (stays : heap.Stays later)
    (populated : heap.scopes.Populated initializing levels scope) :
    later.scopes.Populated initializing levels scope := by
  induction populated with
  | globals => exact .globals
  | inside link bound _ ih =>
    have linked := (stays.links (Scopes.index_lt_of_enclosing? link)).2.trans link
    exact .inside linked (fun name member other => stays.names (bound name member other)) ih

/-- Once a name is defined in the present scope, that scope binds it too. -/
theorem populated_define {heap : Heap} (populated : heap.scopes.Populated none levels scope)
    (name : String) (value : Value) :
    (heap.scopes.define scope name value).Populated none (levels.declare [name]) scope := by
  have later : (heap.scopes.define scope name value).Populated none levels scope :=
    (Stays.define heap scope name value).populated populated
  cases populated with
  | globals => exact .globals
  | inside link _ _ =>
    refine later.declare ?_
    rw [Scopes.valueIn?_define _ _ _ _ _ _ (Scopes.index_lt_of_enclosing? link),
      if_pos ⟨rfl, rfl⟩]
    rfl

end Heap

theorem Bindings.isSome_find?_ofList {entries : List (String × α)} (member : name ∈ entries.map (·.1)) :
    ((Bindings.ofList entries).find? name).isSome := by
  rw [Bindings.find?_ofList_last]
  replace member : name ∈ entries.reverse.map (·.1) := by simpa using member
  generalize entries.reverse = reversed at member
  induction reversed with
  | nil => cases member
  | cons head rest ih =>
    by_cases same : head.1 = name
    · simp [Bindings.findEntry?, same]
    · have later := (List.mem_cons.mp member).resolve_left (Ne.symm same)
      simpa [Bindings.findEntry?, same] using ih later

/-- A property of occurrences, such as being one in the program that is run. -/
abbrev Known := Occurrence → Prop

/-- The scope of a closure binds what is declared before its routine, of which the occurrences are known.
There may be further levels between the two. -/
def Closure.Stands (scopes : Scopes) (known : Known) (between : Levels) (closure : Closure) : Prop :=
  ∃ levels, scopes.Populated none levels closure.scope ∧ closure.routine.Regular ∧
    ∀ occurrence ∈ closure.routine.occurrences (between ++ levels), known occurrence

theorem Closure.stands_default (scopes : Scopes) (known : Known) :
    Closure.Stands scopes known [] default :=
  ⟨[], .globals, ⟨nofun, trivial⟩, nofun⟩

theorem Closure.Stands.stays {heap later : Heap} {closure : Closure}
    (stands : closure.Stands heap.scopes known between) (stays : heap.Stays later) :
    closure.Stands later.scopes known between := by
  obtain ⟨levels, populated, inside⟩ := stands
  exact ⟨levels, stays.populated populated, inside⟩

/-- A method that has been bound to an instance is a routine like any other. -/
theorem Closure.Stands.bound {scopes : Scopes} {method : Closure} {inner : ScopeRef}
    (stands : method.Stands scopes known [["this"]]) (link : scopes.enclosing? inner = some method.scope)
    (this : (scopes.valueIn? inner "this").isSome) :
    Closure.Stands scopes known [] { method with scope := inner } := by
  obtain ⟨levels, populated, inside⟩ := stands
  refine ⟨["this"] :: levels, .inside link (fun name member _ => ?_) populated, inside⟩
  exact List.mem_singleton.mp member ▸ this

theorem Routine.occurrences_subset {routine : Routine} (levels : Levels) (member : routine ∈ routines) :
    routine.occurrences levels ⊆ Routine.allOccurrences levels routines := by
  induction routines with
  | nil => cases member
  | cons first rest ih =>
    rcases List.mem_cons.mp member with rfl | member
    · exact List.subset_append_left ..
    · exact List.subset_append_of_subset_right _ (ih member)

/-- The methods that a class is declared with. -/
theorem Eval.stands_of_methodTable {scopes : Scopes} {methods : List Routine}
    (populated : scopes.Populated none levels scope) (regular : Routine.AllRegular methods)
    (inside : ∀ occurrence ∈ Routine.allOccurrences (["this"] :: levels) methods, known occurrence)
    (found : (Eval.methodTable scope methods).find? name = some method) :
    method.Stands scopes known [["this"]] := by
  obtain ⟨member, rfl⟩ := Eval.mem_of_find?_methodTable found
  exact ⟨levels, populated, regular.of_mem member, fun occurrence own =>
    inside occurrence (Routine.occurrences_subset _ member own)⟩

/-- All functions and methods stand in scopes that bind what is declared before them. -/
structure Heap.Stands (known : Known) (heap : Heap) : Prop where
  functions : ∀ ref, (heap.closureAt ref).Stands heap.scopes known []
  methods : ∀ {ref name method}, (heap.classAt ref).methods.find? name = some method →
    method.Stands heap.scopes known [["this"]]

namespace Heap.Stands

variable {known : Known} {heap : Heap}

theorem start : Heap.start.Stands known where
  functions _ := Closure.stands_default _ known
  methods found := by cases found

/-- The method that is found for a class is one of some class. -/
theorem method? (stands : heap.Stands known) (found : heap.method? ref name = some method) :
    method.Stands heap.scopes known [["this"]] := by
  obtain ⟨holder, finds⟩ := exists_finds found
  exact stands.methods finds.held

/-- Scopes that only gain keep closures where they are. -/
theorem scopes (stands : heap.Stands known) {scopes : Scopes} (stays : heap.Stays { heap with scopes }) :
    Heap.Stands known { heap with scopes } where
  functions ref := (stands.functions ref).stays stays
  methods found := (stands.methods found).stays stays

theorem newFunction (stands : heap.Stands known) {closure : Closure}
    (added : closure.Stands heap.scopes known []) :
    Heap.Stands known { heap with functions := heap.functions.push closure } where
  functions ref := by
    unfold closureAt
    rw [getD_push]
    split
    · exact added
    · exact stands.functions ref
  methods := stands.methods

theorem newClass (stands : heap.Stands known) {object : ClassObject}
    (added : ∀ {name method}, object.methods.find? name = some method →
      method.Stands heap.scopes known [["this"]]) :
    Heap.Stands known { heap with classes := heap.classes.push object } where
  functions := stands.functions
  methods {ref name method} found := by
    unfold classAt at found
    rw [getD_push] at found
    split at found
    · exact added found
    · exact stands.methods found

theorem instances (stands : heap.Stands known) (instances : Array Instance) :
    Heap.Stands known { heap with instances } :=
  ⟨stands.functions, stands.methods⟩

end Heap.Stands

end Lox
