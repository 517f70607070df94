import Lox.Proofs.Course.Basic

/-! Classes above each other. A class inherits from itself and from the classes above it, and a method
that it does not have is looked for on the way up. -/

namespace Lox.Heap

/-- The way from a class up to one that it is or that it reaches by superclass links. -/
inductive Inherits (heap : Heap) : ClassRef → ClassRef → Prop where
  | refl (ref : ClassRef) : Inherits heap ref ref
  | up (superclass : (heap.classAt ref).superclass = some parent)
      (above : Inherits heap parent ancestor) : Inherits heap ref ancestor

/-- The first class on the way up that has a method of a name, and this method. -/
inductive Finds (heap : Heap) (name : String) : ClassRef → ClassRef → Closure → Prop where
  | own (found : (heap.classAt ref).methods.find? name = some method) : Finds heap name ref ref method
  | inherited (missing : (heap.classAt ref).methods.find? name = none)
      (superclass : (heap.classAt ref).superclass = some parent)
      (above : Finds heap name parent holder method) : Finds heap name ref holder method

/-- A superclass is older than the class itself. -/
def Ranked (heap : Heap) : Prop :=
  ∀ ref parent, (heap.classAt ref).superclass = some parent → parent.index < ref.index

variable {heap : Heap} {name : String} {ref holder parent : ClassRef} {method : Closure}

theorem Inherits.trans (below : Inherits heap low middle) (above : Inherits heap middle high) :
    Inherits heap low high := by
  induction below with
  | refl => exact above
  | up superclass _ ih => exact .up superclass (ih above)

theorem Finds.inherits (finds : Finds heap name ref holder method) : Inherits heap ref holder := by
  induction finds with
  | own => exact .refl _
  | inherited _ superclass _ ih => exact .up superclass ih

theorem Finds.held (finds : Finds heap name ref holder method) :
    (heap.classAt holder).methods.find? name = some method := by
  induction finds with
  | own found => exact found
  | inherited _ _ _ ih => exact ih

/-- At most one method is found. -/
theorem Finds.unique (finds : Finds heap name ref holder method)
    (finds' : Finds heap name ref holder' method') : holder = holder' ∧ method = method' := by
  induction finds with
  | own found =>
    cases finds' with
    | own found' => exact ⟨rfl, Option.some.inj (found.symm.trans found')⟩
    | inherited missing => cases missing.symm.trans found
  | inherited missing superclass _ ih =>
    cases finds' with
    | own found' => cases missing.symm.trans found'
    | inherited _ superclass' above' =>
      cases superclass.symm.trans superclass'
      exact ih above'

/-- What looking for a method within a bound gives, with the class from which the method comes. -/
theorem lookup_within (ranked : heap.Ranked) (name : String) (bound : Nat) (ref : ClassRef)
    (inside : ref.index < bound) :
    (∃ holder method, heap.methodWithin? name bound ref = some method ∧
      heap.holderWithin? name bound ref = some holder ∧ Finds heap name ref holder method) ∨
    heap.methodWithin? name bound ref = none ∧ heap.holderWithin? name bound ref = none ∧
      ∀ holder method, ¬ Finds heap name ref holder method := by
  induction bound generalizing ref with
  | zero => cases inside
  | succ bound ih =>
    simp only [methodWithin?, holderWithin?]
    cases found : (heap.classAt ref).methods.find? name with
    | some method => exact .inl ⟨ref, method, rfl, rfl, .own found⟩
    | none =>
      cases superclass : (heap.classAt ref).superclass with
      | none =>
        refine .inr ⟨rfl, rfl, ?_⟩
        intro holder method finds
        cases finds with
        | own found' => cases found.symm.trans found'
        | inherited _ superclass' => cases superclass.symm.trans superclass'
      | some parent =>
        have older := ranked ref parent superclass
        rcases ih parent (by omega) with ⟨holder, method, same, same', finds⟩ | ⟨same, same', none⟩
        · exact .inl ⟨holder, method, same, same', .inherited found superclass finds⟩
        · refine .inr ⟨same, same', ?_⟩
          intro holder method finds
          cases finds with
          | own found' => cases found.symm.trans found'
          | inherited _ superclass' above =>
            cases superclass.symm.trans superclass'
            exact none holder method above

/-- Looking for a method of a class finds the first on the way up, if there is any. -/
theorem lookup_cases (ranked : heap.Ranked) (known : ref.index < heap.classes.size) (name : String) :
    (∃ holder method, heap.method? ref name = some method ∧ heap.holder? ref name = some holder ∧
      Finds heap name ref holder method) ∨
    heap.method? ref name = none ∧ ∀ holder method, ¬ Finds heap name ref holder method := by
  rcases lookup_within ranked name heap.classes.size ref known with found | ⟨none, _, never⟩
  · exact .inl found
  · exact .inr ⟨none, never⟩

/-- What is found first on the way up is what looking for it gives. -/
theorem Finds.lookup (finds : Finds heap name ref holder method) (ranked : heap.Ranked)
    (known : ref.index < heap.classes.size) : heap.method? ref name = some method := by
  rcases lookup_cases ranked known name with ⟨_, _, found, _, finds'⟩ | ⟨_, never⟩
  · obtain ⟨_, rfl⟩ := finds.unique finds'
    exact found
  · exact absurd finds (never _ _)

/-- What looking for a method gives is found on the way up. -/
theorem exists_finds (found : heap.methodWithin? name bound ref = some method) :
    ∃ holder, Finds heap name ref holder method := by
  induction bound generalizing ref with
  | zero => cases found
  | succ bound ih =>
    unfold methodWithin? at found
    split at found
    · rename_i own
      cases found
      exact ⟨ref, .own own⟩
    · rename_i missing
      obtain ⟨parent, superclass, above⟩ := Option.bind_eq_some_iff.mp found
      obtain ⟨holder, finds⟩ := ih above
      exact ⟨holder, .inherited missing superclass finds⟩

end Lox.Heap
