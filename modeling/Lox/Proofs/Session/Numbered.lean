import Lox.Proofs.Program.Accepted
import Lox.Proofs.Scope.Walks
import Lox.Proofs.Session.Basic

/-! The table of a session. It has entries for identifiers that were handed out only, so the entries of
one more source are new, and the old ones stay. -/

namespace Lox

/-- An accepted source has distances for identifiers that it was given only. -/
theorem checkSource_own (accepted : (checkSource source first).outcome = .ok program) :
    first ≤ (checkSource source first).nextId ∧
      ∀ id : NodeId, id < first ∨ (checkSource source first).nextId ≤ id →
        program.distances[id]? = none := by
  obtain ⟨parses, resolved⟩ := checkSource_ok accepted
  refine ⟨parses.numbered.forward, fun id outside => ?_⟩
  apply resolve_own resolved
  intro member
  have bounds := parses.numbered.within id member
  rcases outside with earlier | later
  · exact Nat.not_le.mpr earlier bounds.1
  · exact Nat.not_le.mpr bounds.2 later

theorem Distances.getElem?_insertMany (table added : Distances) (id : NodeId) :
    (table.insertMany added.toList)[id]? = added[id]?.or table[id]? := by
  cases found : added[id]? with
  | none =>
    have absent : (added.toList.map Prod.fst).contains id = false := by
      rw [Std.TreeMap.map_fst_toList_eq_keys]
      simpa using found
    rw [Std.TreeMap.getElem?_insertMany_list_of_contains_eq_false absent, Option.none_or]
  | some distance =>
    have member : (id, distance) ∈ added.toList :=
      Std.TreeMap.mem_toList_iff_getElem?_eq_some.mpr found
    rw [Std.TreeMap.getElem?_insertMany_list_of_mem Std.ReflCmp.compare_self
      Std.TreeMap.distinct_keys_toList member, Option.some_or]

namespace Session

/-- The table has entries for identifiers that were handed out only. -/
def Numbered (session : Session) : Prop :=
  ∀ id : NodeId, session.nextId ≤ id → session.distances[id]? = none

/-- A session some sources later, of which the identifiers so far have the same distances. -/
structure Later (session later : Session) : Prop where
  nextId : session.nextId ≤ later.nextId
  distances : ∀ id : NodeId, id < session.nextId → later.distances[id]? = session.distances[id]?

theorem start_numbered : Session.start.Numbered :=
  fun _ _ => by simp [start]

variable {session : Session}

section Accept

variable (accepted : (checkSource source session.nextId).outcome = .ok program)

include accepted

theorem accept_numbered (numbered : session.Numbered) :
    (session.accept program (checkSource source session.nextId).nextId).Numbered := by
  obtain ⟨forward, own⟩ := checkSource_own accepted
  intro id beyond
  change (session.distances.insertMany program.distances.toList)[id]? = none
  rw [Distances.getElem?_insertMany, own id (.inr beyond), Option.none_or]
  exact numbered id (Nat.le_trans forward beyond)

theorem accept_later :
    session.Later (session.accept program (checkSource source session.nextId).nextId) := by
  obtain ⟨forward, own⟩ := checkSource_own accepted
  refine ⟨forward, fun id known => ?_⟩
  change (session.distances.insertMany program.distances.toList)[id]? = _
  rw [Distances.getElem?_insertMany, own id (.inl known), Option.none_or]

end Accept

/-- The identifiers of an accepted source have its distances. -/
theorem accept_own (numbered : session.Numbered) (program : Program) (next : NodeId) {id : NodeId}
    (own : session.nextId ≤ id) :
    (session.accept program next).distances[id]? = program.distances[id]? := by
  change (session.distances.insertMany program.distances.toList)[id]? = _
  rw [Distances.getElem?_insertMany, numbered id own, Option.or_none]

end Session

end Lox
