import Lox.Proofs.Scope.Checked
import Lox.Proofs.Scope.Fits

/-! An accepted program is addressed right by the table of its distances. Each form is checked by
checks of its parts, in the order in which the analysis walks them. -/

namespace Lox

namespace Analysis

open Scoping

theorem find?_ne_false {name : String} (ready : Ready scoping.tail)
    (settled : ∀ inner ∈ scoping.head?, inner.find? name ≠ some false) :
    Scoping.find? scoping name ≠ some false := by
  cases scoping with
  | nil => exact nofun
  | cons inner outer =>
    have here := settled inner rfl
    have there := ready.find? name
    unfold Scoping.find?
    cases found : inner.find? name with
    | none => simpa using there
    | some value =>
      rw [found] at here
      simpa using here

theorem read_checks (around : Surroundings) (ready : Ready scoping.tail) (id : NodeId) (name : Name) :
    Checks (expr around (.read id name)) scoping scoping [id]
      ((Expr.read id name).Addressed · scoping) := by
  by_cases settled : ∀ inner ∈ scoping.head?, inner.find? name.text ≠ some false
  · refine ((Checks.recordDistance id name.text).weaken fun _ entry =>
      ⟨find?_ne_false ready settled, entry⟩).congr fun analysis same => ?_
    have ready : analysis.isPending name.text = false := by
      unfold isPending
      split
      · rfl
      · rename_i scopes
        simpa using settled _ (by rw [← same, scopes]; rfl)
    simp [expr, ready]
  · have reported : Checks (·.report .readInOwnInitializer name) scoping scoping [] fun _ => False :=
      .report _ _
    refine ((reported.comp (.recordDistance id name.text)).weaken fun _ right =>
      right.1.elim).congr fun analysis same => ?_
    have pending : analysis.isPending name.text = true := by
      cases scoping with
      | nil => simp at settled
      | cons inner outer => simpa [isPending, same] using settled
    simp [expr, pending]

theorem this_checks (around : Surroundings) (fits : Fits around.owner scoping) (id : NodeId)
    (line : Nat) :
    Checks (expr around (.this id line)) scoping scoping [id]
      ((Expr.this id line).Addressed · scoping) := by
  cases owner : around.owner with
  | none =>
    exact (Checks.report .thisOutsideClass ⟨"this", line⟩).congr fun analysis _ => by
      simp [expr, owner]
  | base | derived =>
    obtain ⟨distance, ready, found⟩ := fits.this (by simp [owner])
    refine ((Checks.recordDistance id "this").weaken fun _ entry =>
      ⟨distance, ready, found, found ▸ entry⟩).congr fun analysis _ => ?_
    simp [expr, owner]

theorem super_checks (around : Surroundings) (fits : Fits around.owner scoping) (id : NodeId)
    (line : Nat) (method : Name) :
    Checks (expr around (.super id line method)) scoping scoping [id]
      ((Expr.super id line method).Addressed · scoping) := by
  cases owner : around.owner with
  | none =>
    exact (Checks.report .superOutsideClass ⟨"super", line⟩).congr fun analysis _ => by
      simp [expr, owner]
  | base =>
    exact (Checks.report .superWithoutSuperclass ⟨"super", line⟩).congr fun analysis _ => by
      simp [expr, owner]
  | derived =>
    obtain ⟨distance, ready, ready', found, found'⟩ := fits.super owner
    refine ((Checks.recordDistance id "super").weaken fun _ entry =>
      ⟨distance, ready, ready', found, found', found ▸ entry⟩).congr fun analysis _ => ?_
    simp [expr, owner]

mutual

theorem expr_checks (around : Surroundings) (fits : Fits around.owner scoping)
    (ready : Ready scoping.tail) : (tree : Expr) → tree.Regular →
    Checks (expr around tree) scoping scoping tree.ids (tree.Addressed · scoping)
  | .literal _, _ => .pass
  | .grouping inner, regular => expr_checks around fits ready inner regular
  | .unary _ _ operand, regular => expr_checks around fits ready operand regular
  | .binary _ _ left right, regular =>
    (expr_checks around fits ready left regular.1).comp
      (expr_checks around fits ready right regular.2)
  | .logical _ _ left right, regular =>
    (expr_checks around fits ready left regular.1).comp
      (expr_checks around fits ready right regular.2)
  | .read id name, _ => read_checks around ready id name
  | .assign id name value, regular =>
    ((expr_checks around fits ready value regular.2).comp (.recordDistance id name.text)).weaken
      fun _ right => ⟨right.1, regular.1, right.2⟩
  | .call callee _ arguments, regular =>
    (expr_checks around fits ready callee regular.1).comp
      (exprs_checks around fits ready arguments regular.2)
  | .get object _, regular => expr_checks around fits ready object regular
  | .set object _ value, regular =>
    ((expr_checks around fits ready value regular.2).comp
      (expr_checks around fits ready object regular.1)).adjust rfl List.perm_append_comm
      fun _ right => right.symm
  | .this id line, _ => this_checks around fits id line
  | .super id line method, _ => super_checks around fits id line method

theorem exprs_checks (around : Surroundings) (fits : Fits around.owner scoping)
    (ready : Ready scoping.tail) : (trees : List Expr) → Expr.AllRegular trees →
    Checks (exprs around trees) scoping scoping (Expr.allIds trees)
      (Expr.AllAddressed · scoping trees)
  | [], _ => .pass
  | first :: rest, regular =>
    (expr_checks around fits ready first regular.1).comp
      (exprs_checks around fits ready rest regular.2)

end

theorem expr?_checks (around : Surroundings) (fits : Fits around.owner scoping)
    (ready : Ready scoping.tail) (value : Option Expr) (regular : Expr.Regular? value) :
    Checks (expr? around value) scoping scoping (Expr.ids? value)
      (Expr.Addressed? · scoping value) := by
  cases value with
  | none => exact Checks.pass.weaken fun _ _ => nofun
  | some value =>
    refine (expr_checks around fits ready value (regular value rfl)).weaken fun _ right => ?_
    rintro _ ⟨⟩
    exact right

theorem declare_checks (scoping : Scoping) (name : Name) :
    Checks (·.declare name) scoping (scoping.bind name.text false) []
      fun _ => Fresh scoping name.text := by
  by_cases fresh : Fresh scoping name.text
  · refine ((Checks.bind name.text false).weaken fun _ _ => fresh).congr fun analysis same => ?_
    cases scoping with
    | nil => simp [declare, same]
    | cons inner outer => simp [declare, same, fresh inner rfl]
  · have reported : Checks (·.report .alreadyDeclared name) (scoping.bind name.text false) _ []
        fun _ => Fresh scoping name.text := .report _ _
    refine (((Checks.bind name.text false).comp reported).weaken fun _ right =>
      right.2).congr fun analysis same => ?_
    cases scoping with
    | nil => simp [Fresh] at fresh
    | cons inner outer =>
      have known : inner.contains name.text = true := by simpa [Fresh] using fresh
      simp [declare, same, known]

/-- A name that is declared and ready at once. -/
theorem name_checks (scoping : Scoping) (name : Name) :
    Checks (fun analysis => (analysis.declare name).define name) scoping
      (scoping.bind name.text true) [] fun _ => Fresh scoping name.text :=
  ((declare_checks scoping name).comp (.bind name.text true)).adjust (bind_bind scoping) (.refl _)
    fun _ right => right.1

theorem parameters_checks (names : List Name) (inner : Bindings Bool) (outer : Scoping) :
    Checks (parameters names) (inner :: outer)
      ((names.map (·.text)).foldl (fun bindings name => bindings.insert name true) inner :: outer) []
      fun _ => (names.map (·.text)).Nodup ∧ ∀ name ∈ names, inner.contains name.text = false := by
  induction names generalizing inner with
  | nil => exact Checks.pass.weaken fun _ _ => ⟨.nil, nofun⟩
  | cons name rest ih =>
    have named : Checks (fun analysis => (analysis.declare name).define name) (inner :: outer)
        (inner.insert name.text true :: outer) [] fun _ => Fresh (inner :: outer) name.text :=
      name_checks (inner :: outer) name
    refine (named.comp (ih (inner.insert name.text true))).weaken ?_
    rintro _ ⟨fresh, different, others⟩
    have apart : ∀ other ∈ rest, name.text ≠ other.text ∧ inner.contains other.text = false := by
      intro other member
      have absent := others other member
      rw [Bindings.contains_insert] at absent
      simp only [Bool.or_eq_false_iff, decide_eq_false_iff_not] at absent
      exact ⟨fun same => absent.1 same.symm, absent.2⟩
    constructor
    · refine List.nodup_cons.mpr ⟨fun member => ?_, different⟩
      obtain ⟨other, member, same⟩ := List.mem_map.mp member
      exact (apart other member).1 same.symm
    · intro other member
      rcases List.mem_cons.mp member with rfl | member
      · exact fresh inner rfl
      · exact (apart other member).2

theorem returnRules_checks (around : Surroundings) (line : Nat) (value : Option Expr) :
    Checks (returnRules around line value) scoping scoping [] fun _ => True := by
  unfold returnRules
  split
  · exact .report _ _
  · exact .report _ _
  · exact .pass

theorem openSuper_checks (around : Surroundings) (fits : Fits around.owner scoping)
    (ready : Ready scoping.tail) (name : Name) (superclass : Superclass)
    (plain : superclass.name.Plain) :
    Checks (openSuper around name superclass) scoping (frame ["super"] :: scoping) [superclass.id]
      fun table => superclass.toExpr.Addressed table scoping ∧
        superclass.name.text ≠ name.text := by
  have read := expr_checks around fits ready superclass.toExpr plain
  have opened : Checks (fun analysis => (openScope (expr around superclass.toExpr analysis)).bind
      "super" true) scoping (frame ["super"] :: scoping) [superclass.id]
      fun table => superclass.toExpr.Addressed table scoping :=
    ((read.comp .openScope).comp (.bind "super" true)).weaken fun _ right => right.1.1
  by_cases same : superclass.name.text = name.text
  · have reported : Checks (·.report .selfInheritance superclass.name) scoping scoping []
        fun _ => False := .report _ _
    refine ((reported.comp opened).weaken fun _ right => right.1.elim).congr fun analysis _ => ?_
    simp [openSuper, same]
  · refine (opened.weaken fun _ right => ⟨right, same⟩).congr fun analysis _ => ?_
    simp [openSuper, same]

theorem openThis_checks (scoping : Scoping) :
    Checks (fun analysis => analysis.openScope.bind "this" true) scoping
      (frame ["this"] :: scoping) [] fun _ => True :=
  (Checks.openScope.comp (.bind "this" true)).weaken fun _ _ => trivial

mutual

theorem stmt_checks (around : Surroundings) (scoping : Scoping) (fits : Fits around.owner scoping)
    (ready : Ready scoping) : (tree : Stmt) → tree.Regular →
    Checks (stmt around tree) scoping (scoping.after tree) tree.ids (tree.Addressed · scoping)
  | .expression value, regular | .print value, regular =>
    expr_checks around fits ready.tail value regular
  | .declareVar name initializer, regular => by
    have value := expr?_checks around (fits.bind regular.1 false)
      (by simpa using ready.tail) initializer regular.2
    refine (((declare_checks scoping name).comp value).comp (.bind name.text true)).adjust
      (bind_bind scoping) (by simp [Stmt.ids]) fun _ right => ⟨right.1.1, regular.1, right.1.2⟩
  | .block body, regular => by
    have inside := stmts_checks around (.empty :: scoping) (fits.enter [] (by simp) (by simp))
      (ready.enter []) body regular
    refine ((Checks.openScope.comp inside).comp .closeScope).adjust (by simp; rfl)
      (by simp [Stmt.ids]) fun _ right => right.1.2
  | .ifThen condition consequent, regular => by
    have chosen := stmt_checks around scoping fits ready consequent regular.2.1
    exact ((expr_checks around fits ready.tail condition regular.1).comp chosen).adjust
      (after_eq scoping regular.2.2) (.refl _) fun _ right => ⟨right.1, regular.2.2, right.2⟩
  | .ifElse condition consequent alternative, regular => by
    have chosen := stmt_checks around scoping fits ready consequent regular.2.1.1
    have otherwise := stmt_checks around scoping fits ready alternative regular.2.2.1
    rw [after_eq scoping regular.2.1.2] at chosen
    exact ((expr_checks around fits ready.tail condition regular.1).comp
      (chosen.comp otherwise)).adjust (after_eq scoping regular.2.2.2) (.refl _) fun _ right =>
        ⟨right.1, ⟨regular.2.1.2, right.2.1⟩, regular.2.2.2, right.2.2⟩
  | .while condition body, regular => by
    have repeated := stmt_checks around scoping fits ready body regular.2.1
    exact ((expr_checks around fits ready.tail condition regular.1).comp repeated).adjust
      (after_eq scoping regular.2.2) (.refl _) fun _ right => ⟨right.1, regular.2.2, right.2⟩
  | .declareFunction decl, regular =>
    ((name_checks scoping decl.name).comp
      (routine_checks { around with routine := .function } (scoping.bind decl.name.text true)
        (fits.bind regular.1 true) (ready.bind _) decl regular.2)).weaken fun _ right =>
      ⟨right.1, regular.1, right.2⟩
  | .return line value, regular =>
    ((returnRules_checks around line value).comp
      (expr?_checks around fits ready.tail value regular)).adjust rfl (.refl _)
      fun _ right => right.2
  | .declareClass name none methods, regular => by
    have owned := routines_checks { around with owner := .base } (frame ["this"] ::
      scoping.bind name.text true) (.base _) ((ready.bind _).enter _) methods regular.2.2
    have opened := (name_checks scoping name).comp (openThis_checks _)
    exact ((opened.comp owned).comp .closeScope).adjust rfl (by simp [Stmt.ids, Superclass.ids?])
      fun _ right => ⟨right.1.1.1, regular.1, right.1.2⟩
  | .declareClass name (some superclass) methods, regular => by
    have plain := regular.2.1 superclass rfl
    have owned := routines_checks { around with owner := .derived } (frame ["this"] ::
      frame ["super"] :: scoping.bind name.text true) (.derived _)
      (((ready.bind _).enter _).enter _) methods regular.2.2
    have super := openSuper_checks around (fits.bind regular.1 true) (ready.bind _).tail name
      superclass plain
    have opened := ((name_checks scoping name).comp super).comp (openThis_checks _)
    exact (((opened.comp owned).comp .closeScope).comp .closeScope).adjust rfl
      (by simp [Stmt.ids, Superclass.ids?]) fun _ right =>
        ⟨right.1.1.1.1.1, regular.1, right.1.1.1.1.2.1, right.1.1.1.1.2.2, right.1.1.2⟩

theorem stmts_checks (around : Surroundings) (scoping : Scoping) (fits : Fits around.owner scoping)
    (ready : Ready scoping) : (trees : List Stmt) → Stmt.AllRegular trees →
    Checks (stmts around trees) scoping (scoping.afterAll trees) (Stmt.allIds trees)
      (Stmt.AllAddressed · scoping trees)
  | [], _ => .pass
  | first :: rest, regular =>
    (stmt_checks around scoping fits ready first regular.1).comp
      (stmts_checks around (scoping.after first) (fits.after regular.1) (ready.after first) rest
        regular.2)

theorem routine_checks (around : Surroundings) (scoping : Scoping)
    (fits : Fits around.owner scoping) (ready : Ready scoping) : (tree : Routine) → tree.Regular →
    Checks (routine around tree) scoping scoping tree.ids (tree.Addressed · scoping)
  | ⟨_, names, body⟩, regular => by
    have this : "this" ∉ names.map (·.text) := by
      simpa using fun name member => (regular.1 name member).ne_this
    have super : "super" ∉ names.map (·.text) := by
      simpa using fun name member => (regular.1 name member).ne_super
    have inside := stmts_checks around (frame (names.map (·.text)) :: scoping)
      (fits.enter _ this super) (ready.enter _) body regular.2
    have opened := Checks.openScope.comp (parameters_checks names .empty scoping)
    rw [← frame_eq] at opened
    refine ((opened.comp inside).comp .closeScope).adjust (by simp) (by simp [Routine.ids])
      fun _ right => ⟨right.1.1.2.1, regular.1, right.1.2⟩

theorem routines_checks (around : Surroundings) (scoping : Scoping)
    (fits : Fits around.owner scoping) (ready : Ready scoping) : (trees : List Routine) →
    Routine.AllRegular trees →
    Checks (routines around trees) scoping scoping (Routine.allIds trees)
      (Routine.AllAddressed · scoping trees)
  | [], _ => .pass
  | first :: rest, regular =>
    (routine_checks { around with routine := methodKind first.name } scoping fits ready first
      regular.1).comp (routines_checks around scoping fits ready rest regular.2)

end

end Analysis

/-- The table of an accepted program is right for it. -/
theorem resolve_addressed (regular : Stmt.AllRegular body) (different : (Stmt.allIds body).Nodup)
    (resolved : resolve body = .ok table) :
    Stmt.AllAddressed (fun id found => id ∈ Stmt.allIds body ∧ table[id]? = found) [] body := by
  obtain ⟨notes, runs, _, right⟩ :=
    Analysis.stmts_checks .topLevel [] (.topLevel []) nofun body regular
  have walked := runs .start rfl
  unfold resolve at resolved
  rw [walked] at resolved
  dsimp only at resolved
  split at resolved
  · rename_i clean
    cases resolved
    refine right (by simpa [Analysis.noting, Analysis.start] using clean) different _ fun id member =>
      ⟨member, ?_⟩
    change (Notes.record ∅ notes.entries)[id]? = _
    rw [Notes.getElem?_record]
    simp
  · cases resolved

end Lox
