import Lox.Proofs.Program.Moved
import Lox.Proofs.Session.Numbered

/-! Token lists parsed one after another, each with the identifiers that the ones before it left. Where
they start only moves the identifiers, so the tables of all of them fit into one. -/

namespace Lox

/-- The table with its keys moved by an offset. -/
structure Distances.Moved (offset : Nat) (table moved : Distances) : Prop where
  own : ∀ id : NodeId, moved[id + offset]? = table[id]?
  foreign : ∀ id : NodeId, id < offset → moved[id]? = none

def Distances.Apart (table other : Distances) : Prop :=
  ∀ id : NodeId, table[id]? = none ∨ other[id]? = none

namespace Parsed

/-- The identifiers are handed out from `first` on, and no two in the trees are the same. -/
structure Numbered (first : NodeId) (parsed : Parsed) : Prop where
  forward : first ≤ parsed.nextId
  ids : ∀ body, parsed.program = .ok body →
    (Stmt.allIds body).Nodup ∧ ∀ id ∈ Stmt.allIds body, first ≤ id ∧ id < parsed.nextId

/-- The same errors, or else trees with their identifiers moved, which have the same scope errors or else
the table with its keys moved. -/
inductive Moved (offset : Nat) : Parsed → Parsed → Prop where
  | accepted (trees : Stmt.AllAlike (.shift offset) body body')
      (tables : Judged Eq (Distances.Moved offset) (resolve body) (resolve body')) (next : NodeId) :
      Moved offset ⟨.ok body, next⟩ ⟨.ok body', next + offset⟩
  | rejected (errors : List SyntaxError) (next : NodeId) :
      Moved offset ⟨.error errors, next⟩ ⟨.error errors, next + offset⟩

/-- The table of distances, if nothing is wrong. -/
def table? (parsed : Parsed) : Option Distances :=
  parsed.program.toOption.bind fun body => (resolve body).toOption

/-- Token lists parsed one after another. -/
def chained (first : NodeId) : List (List Token) → List Parsed
  | [] => []
  | tokens :: rest => ofTokens tokens first :: chained (ofTokens tokens first).nextId rest

variable {tokens : List Token} {first : NodeId} {parsed : Parsed}

theorem grammatical (accepted : (ofTokens tokens first).program = .ok body) :
    ∃ tokens', Grammar.Program first tokens' body (ofTokens tokens first).nextId := by
  unfold ofTokens at accepted ⊢
  split at accepted
  · rename_i ran
    split at accepted
    · rename_i clean
      cases accepted
      obtain ⟨_, form⟩ := Parse.program_sound ran (Array.isEmpty_iff.mp clean)
      exact ⟨_, form⟩
    · cases accepted
  · cases accepted

theorem resolve_moved (trees : Stmt.AllAlike (.shift offset) body body')
    (own : ∀ id ∈ Stmt.allIds body', offset ≤ id) :
    Judged Eq (Distances.Moved offset) (resolve body) (resolve body') := by
  have judged := resolve_judged Pairing.shift_oneToOne trees
  generalize same : resolve body = result at judged
  generalize resolved : resolve body' = result' at judged
  cases judged with
  | accepted keys =>
    refine .accepted ⟨fun id => (keys id _ rfl).symm, fun id less => ?_⟩
    exact resolve_own resolved fun member => Nat.not_le.mpr less (own id member)
  | rejected errors =>
    exact .rejected (errors.imp fun _ _ alike => congrArg₂ ScopeError.mk alike.fault (alike.name.eq rfl))

theorem ofTokens_moved (tokens : List Token) (first : NodeId) :
    Moved first (ofTokens tokens 0) (ofTokens tokens first) := by
  have apart (count : Nat) : first + count = 0 + count + first := by
    rw [Nat.zero_add, Nat.add_comm]
  have start : Parse.State.Alike (.shift first) (.start tokens 0) (.start tokens first) :=
    .start (List.forall₂_same.mpr fun _ _ => ⟨rfl, rfl, rfl⟩) rfl apart
  obtain ⟨judged, ids⟩ := ofTokens_alike start
  have own (body : List Stmt) (accepted : (ofTokens tokens first).program = .ok body) :
      ∀ id ∈ Stmt.allIds body, first ≤ id := by
    obtain ⟨_, form⟩ := grammatical accepted
    exact fun id member => ((Grammar.Many.numbered form).within id member).1
  generalize ofTokens tokens 0 = one at judged ids
  generalize ofTokens tokens first = two at judged ids own
  obtain ⟨result, next⟩ := one
  obtain ⟨result', next'⟩ := two
  obtain rfl : next' = next + first := ids 0
  cases judged with
  | accepted trees => exact .accepted trees (resolve_moved trees (own _ rfl)) next
  | rejected errors =>
    have same := List.forall₂_eq_eq_eq ▸ errors.imp fun _ _ (alike : SyntaxError.Alike (.shift first) _ _) =>
      congrArg₂ SyntaxError.mk alike.fault (alike.token.eq rfl)
    exact same ▸ .rejected _ next

theorem Moved.nextId (moved : Moved offset parsed parsed') : parsed'.nextId = parsed.nextId + offset := by
  cases moved <;> rfl

theorem ofTokens_numbered (tokens : List Token) (first : NodeId) :
    (ofTokens tokens first).Numbered first where
  forward := (ofTokens_moved tokens first).nextId ▸ Nat.le_add_left ..
  ids body accepted := by
    obtain ⟨_, form⟩ := grammatical accepted
    have numbered := Grammar.Many.numbered form
    exact ⟨numbered.different, numbered.within⟩

theorem table?_eq_some (given : parsed.table? = some table) :
    ∃ body, parsed.program = .ok body ∧ resolve body = .ok table := by
  unfold table? at given
  cases accepted : parsed.program with
  | error errors => simp [accepted, Except.toOption] at given
  | ok body =>
    cases resolved : resolve body with
    | error errors => simp [accepted, resolved, Except.toOption] at given
    | ok distances =>
      simp only [accepted, resolved, Except.toOption, Option.bind_some, Option.some.injEq] at given
      exact ⟨body, rfl, given ▸ resolved⟩

/-- A table has keys among the identifiers that were handed out. -/
theorem Numbered.within (numbered : parsed.Numbered first) (given : parsed.table? = some table)
    {id : NodeId} (key : table[id]? = some distance) : first ≤ id ∧ id < parsed.nextId := by
  obtain ⟨body, accepted, resolved⟩ := table?_eq_some given
  by_cases member : id ∈ Stmt.allIds body
  · exact (numbered.ids body accepted).2 id member
  · rw [resolve_own resolved member] at key
    cases key

/-- The tables that chained token lists have. -/
def tables (first : NodeId) (inputs : List (List Token)) : List Distances :=
  (chained first inputs).filterMap table?

theorem tables_cons (first : NodeId) (tokens : List Token) (rest : List (List Token)) :
    tables first (tokens :: rest) =
      (ofTokens tokens first).table?.toList ++ tables (ofTokens tokens first).nextId rest := by
  simp only [tables, chained]
  cases given : (ofTokens tokens first).table? with
  | none => exact List.filterMap_cons_none given
  | some table => exact List.filterMap_cons_some given

theorem le_of_tables (inputs : List (List Token)) (member : table ∈ tables first inputs)
    {id : NodeId} (key : table[id]? = some distance) : first ≤ id := by
  induction inputs generalizing first with
  | nil => cases member
  | cons tokens rest ih =>
    have numbered := ofTokens_numbered tokens first
    rw [tables_cons, List.mem_append, Option.mem_toList] at member
    rcases member with own | later
    · exact (numbered.within own key).1
    · exact Nat.le_trans numbered.forward (ih later)

theorem tables_apart (inputs : List (List Token)) (first : NodeId) :
    (tables first inputs).Pairwise Distances.Apart := by
  induction inputs generalizing first with
  | nil => exact .nil
  | cons tokens rest ih =>
    have numbered := ofTokens_numbered tokens first
    rw [tables_cons, List.pairwise_append]
    refine ⟨?_, ih _, ?_⟩
    · cases (ofTokens tokens first).table? with
      | none => exact .nil
      | some table => exact List.pairwise_singleton ..
    · intro table own other later id
      cases key : table[id]? with
      | none => exact .inl rfl
      | some distance =>
        refine .inr ?_
        cases key' : other[id]? with
        | none => rfl
        | some _ =>
          have less := (numbered.within (Option.mem_toList.mp own) key).2
          exact absurd (le_of_tables rest later key') (Nat.not_le.mpr less)

end Parsed

theorem Distances.getElem?_insertMany_apart {table added : Distances} (apart : table.Apart added)
    (id : NodeId) (distance : Nat) :
    (table.insertMany added.toList)[id]? = some distance ↔
      table[id]? = some distance ∨ added[id]? = some distance := by
  rw [getElem?_insertMany]
  rcases apart id with none | none <;> simp [none]

/-- Tables that are apart are all found again where a session has added them, and nothing else is. -/
theorem Session.distances_foldl (tables : List Distances) (session : Session)
    (apart : (session.distances :: tables).Pairwise Distances.Apart) (id : NodeId) (distance : Nat) :
    (tables.foldl addDistances session).distances[id]? = some distance ↔
      ∃ table ∈ session.distances :: tables, table[id]? = some distance := by
  induction tables generalizing session with
  | nil => simp
  | cons added rest ih =>
    obtain ⟨own, others⟩ := List.pairwise_cons.mp apart
    obtain ⟨later, rest_apart⟩ := List.pairwise_cons.mp others
    have first : session.distances.Apart added := own added List.mem_cons_self
    have merged (id : NodeId) (distance : Nat) :
        (session.addDistances added).distances[id]? = some distance ↔
          session.distances[id]? = some distance ∨ added[id]? = some distance :=
      Distances.getElem?_insertMany_apart first id distance
    have joined : ((session.addDistances added).distances :: rest).Pairwise Distances.Apart := by
      refine List.pairwise_cons.mpr ⟨fun other member key => ?_, rest_apart⟩
      rcases own other (.tail _ member) key with none | none
      · rcases later other member key with none' | none'
        · refine .inl (Option.eq_none_iff_forall_ne_some.mpr fun distance found => ?_)
          rcases (merged key distance).mp found with found | found
          · exact absurd (none.symm.trans found) nofun
          · exact absurd (none'.symm.trans found) nofun
        · exact .inr none'
      · exact .inr none
    rw [List.foldl_cons, ih _ joined]
    simp only [List.exists_mem_cons_iff, merged, or_assoc]

/-- Wherever identifiers start, they are different and in their range, and all that they do is to move what
is parsed and resolved. Hence the tables of token lists that are parsed one after another, of which some may
fail, are apart, and a session to which they are added has all of their entries and no others. -/
theorem Parsed.ids_relocatable :
    (∀ tokens first, (ofTokens tokens first).Numbered first ∧
      Moved first (ofTokens tokens 0) (ofTokens tokens first)) ∧
    ∀ inputs first, (tables first inputs).Pairwise Distances.Apart ∧
      ∀ (id : NodeId) (distance : Nat),
        ((tables first inputs).foldl Session.addDistances .start).distances[id]? = some distance ↔
          ∃ table ∈ tables first inputs, table[id]? = some distance := by
  refine ⟨fun tokens first => ⟨ofTokens_numbered tokens first, ofTokens_moved tokens first⟩, ?_⟩
  intro inputs first
  have apart := tables_apart inputs first
  refine ⟨apart, fun id distance => ?_⟩
  have empty (other : Distances) : Session.start.distances.Apart other := fun id => .inl (by
    simp [Session.start])
  rw [Session.distances_foldl _ _ (List.pairwise_cons.mpr ⟨fun other _ => empty other, apart⟩)]
  simp [Session.start]

end Lox
