import Lox.Machine.Evaluate
import Lox.Report
import Lox.Scope.Resolve
import Lox.Tree.Parse.Statement

/-!
Programs from source to outcome. A source is checked as a whole before any of it runs, and a run
ends with at most one report.
-/

namespace Lox

/-- A program that breaks no rule which can be checked before it runs. -/
structure Program where
  body : List Stmt
  distances : Distances

/-- What one stage makes of a source: its result or else all reports on the source, and the first
identifier that was not handed out. -/
structure Checked (α : Type) where
  outcome : Except (List Report) α
  nextId : NodeId

/-- The statements of a source. Its characters and its grammar are reported on together. -/
def parseSource (source : String) (firstId : NodeId) : Checked (List Stmt) :=
  let scan := Scan.ofSource source
  let parsed := Parsed.ofTokens scan.tokens firstId
  let lexical := scan.errors.map Report.lexical
  let outcome := match parsed.program with
    | .error errors => .error (lexical ++ errors.map .syntactic)
    | .ok body => if lexical.isEmpty then .ok body else .error lexical
  ⟨outcome, parsed.nextId⟩

/-- Checks the scopes of statements. -/
def Program.ofStatements (body : List Stmt) : Except (List Report) Program :=
  match resolve body with
  | .ok distances => .ok ⟨body, distances⟩
  | .error errors => .error (errors.map .scope)

/-- Checks a source. Scopes are checked only if its characters and its grammar are sound. -/
def checkSource (source : String) (firstId : NodeId) : Checked Program :=
  let parsed := parseSource source firstId
  ⟨parsed.outcome.bind Program.ofStatements, parsed.nextId⟩

/-- How a run ends. It is unfinished if the steps it was granted did not suffice. -/
inductive Ending where
  | done
  | rejected (reports : List Report)
  | stopped (report : Report)
  | unfinished

namespace Ending

def reports : Ending → List Report
  | .done | .unfinished => []
  | .rejected reports => reports
  | .stopped report => [report]

def ofHalt : Halt → Ending
  | .fault error => .stopped (.runtime error)
  | .sinkFull => .stopped .sinkFull
  | .outOfFuel => .unfinished

end Ending

/-- Executes statements at the top level, where a return ends its own statement only. -/
def Eval.interpret (setting : Setting) (fuel : Nat) : List Stmt → Eval Unit
  | [] => return ()
  | first :: rest => do
    discard <| execute setting fuel first
    interpret setting fuel rest

namespace Machine

/-- Runs statements from a state on. -/
def interpret (machine : Machine) (setting : Setting) (fuel : Nat) (body : List Stmt) :
    Ending × Machine :=
  match Eval.interpret setting fuel body machine with
  | .ok () after => (.done, after)
  | .error reason after => (.ofHalt reason, after)

end Machine

/-- More steps than a run takes in any lifetime. -/
def ampleFuel : Nat := Nat.pow 2 62

/-- What a source printed and how it ended. -/
structure Outcome where
  output : ByteArray
  ending : Ending

/-- Checks and runs a source on its own. -/
def run (clock : Nat → Float) (fuel : Nat) (capacity : Option Nat) (source : String) : Outcome :=
  match (checkSource source 0).outcome with
  | .error reports => ⟨.empty, .rejected reports⟩
  | .ok program =>
    let (ending, machine) :=
      (Machine.start capacity).interpret ⟨program.distances, clock⟩ fuel program.body
    ⟨machine.sink.written, ending⟩

end Lox
