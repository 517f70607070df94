import Lox.Proofs.Scope.Addressed

/-! What the analysis keeps true of the scopes around a place. Outside an initializer all names are
ready, inside a class `this` is in scope, and inside a class with a superclass the scope of `super`
is the one around that of `this`. -/

namespace Lox

namespace Scoping

def Ready (scoping : Scoping) : Prop :=
  ∀ frame ∈ scoping, ∀ name, frame.find? name ≠ some false

theorem Ready.tail (ready : Ready scoping) : Ready scoping.tail :=
  fun frame member => ready frame (List.mem_of_mem_tail member)

theorem Ready.find? (ready : Ready scoping) (name : String) : scoping.find? name ≠ some false := by
  induction scoping with
  | nil => exact nofun
  | cons inner outer ih =>
    have here := ready inner List.mem_cons_self name
    have there := ih ready.tail
    unfold Scoping.find?
    cases found : inner.find? name with
    | none => simpa using there
    | some value =>
      rw [found] at here
      simpa using here

theorem Ready.bind (ready : Ready scoping) (name : String) :
    Ready (Scoping.bind name true scoping) := by
  cases scoping with
  | nil => exact nofun
  | cons inner outer =>
    intro frame member other
    rcases List.mem_cons.mp member with rfl | member
    · rw [Bindings.find?_insert]
      split
      · simp
      · exact ready inner List.mem_cons_self other
    · exact ready frame (List.mem_cons_of_mem _ member) other

theorem Ready.after (ready : Ready scoping) (stmt : Stmt) : Ready (scoping.after stmt) := by
  unfold Scoping.after
  split
  · exact ready.bind _
  · exact ready

theorem find?_ofList_true (names : List String) (inner : Bindings Bool) (wanted : String) :
    (names.foldl (fun bindings name => bindings.insert name true) inner).find? wanted =
      if wanted ∈ names then some true else inner.find? wanted := by
  induction names generalizing inner with
  | nil => simp
  | cons name rest ih =>
    rw [List.foldl_cons, ih, Bindings.find?_insert]
    by_cases here : wanted = name <;> by_cases later : wanted ∈ rest <;> simp [here, later]

theorem frame_eq (names : List String) :
    frame names = names.foldl (fun bindings name => bindings.insert name true) .empty := by
  simp [frame, Bindings.ofList, List.foldl_map]

theorem find?_frame (names : List String) (wanted : String) :
    (frame names).find? wanted = if wanted ∈ names then some true else none := by
  rw [frame_eq, find?_ofList_true, Bindings.find?_empty]

theorem contains_frame (names : List String) (wanted : String) :
    (frame names).contains wanted = decide (wanted ∈ names) := by
  unfold Bindings.contains
  rw [find?_frame]
  split <;> simp [*]

theorem Ready.enter (ready : Ready scoping) (names : List String) :
    Ready (frame names :: scoping) := by
  intro inner member name
  rcases List.mem_cons.mp member with rfl | member
  · rw [find?_frame]
    split <;> simp
  · exact ready inner member name

end Scoping

/-- The scopes that classes make are where the surroundings say. -/
structure Fits (owner : EnclosingClass) (scoping : Scoping) : Prop where
  this : owner ≠ .none → ∃ distance, scoping.find? "this" = some true ∧
    scoping.distance? "this" = some distance
  super : owner = .derived → ∃ distance, scoping.find? "super" = some true ∧
    scoping.find? "this" = some true ∧ scoping.distance? "super" = some (distance + 1) ∧
    scoping.distance? "this" = some distance

namespace Fits

theorem topLevel (scoping : Scoping) : Fits .none scoping :=
  ⟨fun inside => absurd rfl inside, nofun⟩

theorem bind {name : Name} (fits : Fits owner scoping) (plain : name.Plain) (ready : Bool) :
    Fits owner (scoping.bind name.text ready) := by
  have this := Scoping.distance?_bind scoping ready plain.ne_this.symm
  have super := Scoping.distance?_bind scoping ready plain.ne_super.symm
  have found := Scoping.find?_bind scoping ready plain.ne_this.symm
  have found' := Scoping.find?_bind scoping ready plain.ne_super.symm
  exact ⟨by rw [this, found]; exact fits.this, by rw [this, super, found, found']; exact fits.super⟩

theorem enter (fits : Fits owner scoping) (names : List String) (this : "this" ∉ names)
    (super : "super" ∉ names) : Fits owner (Scoping.frame names :: scoping) := by
  constructor
  · intro inside
    obtain ⟨distance, ready, found⟩ := fits.this inside
    exact ⟨distance + 1, by simp [Scoping.find?, Scoping.find?_frame, this, ready],
      by simp [Scoping.distance?_cons, Scoping.contains_frame, this, found]⟩
  · intro inside
    obtain ⟨distance, ready, ready', found, found'⟩ := fits.super inside
    exact ⟨distance + 1, by simp [Scoping.find?, Scoping.find?_frame, super, ready],
      by simp [Scoping.find?, Scoping.find?_frame, this, ready'],
      by simp [Scoping.distance?_cons, Scoping.contains_frame, super, found],
      by simp [Scoping.distance?_cons, Scoping.contains_frame, this, found']⟩

theorem base (scoping : Scoping) : Fits .base (Scoping.frame ["this"] :: scoping) :=
  ⟨fun _ => ⟨0, rfl, by simp [Scoping.distance?_cons, Scoping.contains_frame]⟩, nofun⟩

theorem derived (scoping : Scoping) :
    Fits .derived (Scoping.frame ["this"] :: Scoping.frame ["super"] :: scoping) :=
  ⟨fun _ => ⟨0, rfl, by simp [Scoping.distance?_cons, Scoping.contains_frame]⟩,
    fun _ => ⟨0, rfl, rfl, by simp [Scoping.distance?_cons, Scoping.contains_frame],
      by simp [Scoping.distance?_cons, Scoping.contains_frame]⟩⟩

end Fits

theorem Stmt.Regular.plain {stmt : Stmt} (regular : stmt.Regular) :
    ∀ name ∈ stmt.introduces, name.Plain := by
  cases stmt with
  | declareVar name _ =>
    rintro _ ⟨⟩
    exact regular.1
  | declareFunction routine =>
    rintro _ ⟨⟩
    exact regular.1
  | declareClass name _ _ =>
    rintro _ ⟨⟩
    exact regular.1
  | _ => exact nofun

theorem Fits.after (fits : Fits owner scoping) (regular : Stmt.Regular stmt) :
    Fits owner (scoping.after stmt) := by
  unfold Scoping.after
  split
  · rename_i name introduces
    exact fits.bind (regular.plain name introduces) true
  · exact fits

end Lox
