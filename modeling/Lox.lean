import Lox.Command
import Lox.Main
import Lox.Proofs.Chronicle.Accounts
import Lox.Proofs.Chronicle.Basic
import Lox.Proofs.Chronicle.Construction
import Lox.Proofs.Chronicle.Continues
import Lox.Proofs.Chronicle.Episodes
import Lox.Proofs.Chronicle.Founded
import Lox.Proofs.Chronicle.Heaps
import Lox.Proofs.Chronicle.Orderly
import Lox.Proofs.Chronicle.Program
import Lox.Proofs.Chronicle.Returns
import Lox.Proofs.Course.Basic
import Lox.Proofs.Course.Depth
import Lox.Proofs.Course.Evaluate
import Lox.Proofs.Cursor.Basic
import Lox.Proofs.Cursor.Expression
import Lox.Proofs.Cursor.Expressions
import Lox.Proofs.Cursor.Loops
import Lox.Proofs.Cursor.Mirrors
import Lox.Proofs.Cursor.Program
import Lox.Proofs.Cursor.Statement
import Lox.Proofs.Cursor.Statements
import Lox.Proofs.Dispatch.Evaluate
import Lox.Proofs.Dispatch.Nested
import Lox.Proofs.Dispatch.Program
import Lox.Proofs.Dispatch.Runs
import Lox.Proofs.Dispatch.Sound
import Lox.Proofs.Dispatch.Steps
import Lox.Proofs.Dispatch.Super
import Lox.Proofs.Grammar.Basic
import Lox.Proofs.Grammar.Complete.Basic
import Lox.Proofs.Grammar.Complete.Expression
import Lox.Proofs.Grammar.Complete.Statement
import Lox.Proofs.Grammar.Decided
import Lox.Proofs.Grammar.Local
import Lox.Proofs.Grammar.Program
import Lox.Proofs.Grammar.Relocate
import Lox.Proofs.Grammar.Sound.Basic
import Lox.Proofs.Grammar.Sound.Expression
import Lox.Proofs.Grammar.Sound.Statement
import Lox.Proofs.Heap.Access
import Lox.Proofs.Heap.Chains
import Lox.Proofs.Heap.Classes
import Lox.Proofs.Heap.Founded
import Lox.Proofs.Heap.Later
import Lox.Proofs.Heap.Populated
import Lox.Proofs.Heap.Stays
import Lox.Proofs.Lexical.Basic
import Lox.Proofs.Lexical.Declare
import Lox.Proofs.Lexical.Evaluate
import Lox.Proofs.Lexical.ForLoop
import Lox.Proofs.Lexical.Fuel
import Lox.Proofs.Lexical.Linked
import Lox.Proofs.Lexical.Lockstep
import Lox.Proofs.Lexical.Program
import Lox.Proofs.Lexical.Recorded
import Lox.Proofs.Lexical.Similar
import Lox.Proofs.Lexical.Simulation
import Lox.Proofs.Lexical.Steps
import Lox.Proofs.Lexical.Store
import Lox.Proofs.Machine.Alike
import Lox.Proofs.Machine.Along
import Lox.Proofs.Machine.Composed
import Lox.Proofs.Machine.Founded
import Lox.Proofs.Machine.Labels
import Lox.Proofs.Machine.Methods
import Lox.Proofs.Machine.Names
import Lox.Proofs.Machine.Parts
import Lox.Proofs.Machine.Raised
import Lox.Proofs.Machine.Regime
import Lox.Proofs.Machine.Restored
import Lox.Proofs.Machine.Terminates
import Lox.Proofs.Machine.Truncated
import Lox.Proofs.Numeral.Bits
import Lox.Proofs.Numeral.Display
import Lox.Proofs.Numeral.Nearest
import Lox.Proofs.Numeral.Positional
import Lox.Proofs.Parse.Basic
import Lox.Proofs.Parse.Blind
import Lox.Proofs.Parse.Composed
import Lox.Proofs.Parse.Expression
import Lox.Proofs.Parse.Later
import Lox.Proofs.Parse.Settles
import Lox.Proofs.Parse.Spends
import Lox.Proofs.Parse.Statement
import Lox.Proofs.Parse.Steps
import Lox.Proofs.Program.Accepted
import Lox.Proofs.Program.Alike
import Lox.Proofs.Program.Chained
import Lox.Proofs.Program.Channels
import Lox.Proofs.Program.ForLoop
import Lox.Proofs.Program.Joined
import Lox.Proofs.Program.Layout
import Lox.Proofs.Program.Moved
import Lox.Proofs.Program.Relabelled
import Lox.Proofs.Scope.Accepted
import Lox.Proofs.Scope.Addressed
import Lox.Proofs.Scope.Addresses
import Lox.Proofs.Scope.Alike
import Lox.Proofs.Scope.Balanced
import Lox.Proofs.Scope.Checked
import Lox.Proofs.Scope.Fits
import Lox.Proofs.Scope.Joined
import Lox.Proofs.Scope.Occurrences
import Lox.Proofs.Scope.Returns
import Lox.Proofs.Scope.Sites
import Lox.Proofs.Scope.Survey
import Lox.Proofs.Scope.Violations
import Lox.Proofs.Scope.Walks
import Lox.Proofs.Segment.Basic
import Lox.Proofs.Segment.Declaration
import Lox.Proofs.Segment.Expression
import Lox.Proofs.Segment.Program
import Lox.Proofs.Segment.Statement
import Lox.Proofs.Segment.Unended
import Lox.Proofs.Session.Basic
import Lox.Proofs.Session.Joined
import Lox.Proofs.Session.Numbered
import Lox.Proofs.Session.Rejected
import Lox.Proofs.Steps
import Lox.Proofs.Token.Join
import Lox.Proofs.Token.Longest
import Lox.Proofs.Token.Pieces
import Lox.Proofs.Token.Places
import Lox.Proofs.Token.Shape
import Lox.Proofs.Token.Spaced
import Lox.Proofs.Token.Stray
import Lox.Proofs.Token.Tokens
import Lox.Proofs.Trace.Basic
import Lox.Proofs.Trace.Evaluate
import Lox.Proofs.Trace.Gains
import Lox.Proofs.Trace.Overwrites
import Lox.Proofs.Trace.Sound
import Lox.Proofs.Tree.Ids
import Lox.Proofs.Tree.Inner
import Lox.Proofs.Tree.Receivers
import Lox.Proofs.Tree.Regular
import Lox.Token.Stream
