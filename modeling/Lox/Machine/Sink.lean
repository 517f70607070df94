/-!
Where a program prints. A sink may have a capacity, and a write that exceeds it stores what fits.
-/

namespace Lox

/-- The bytes written so far and the most that may be. -/
structure Sink where
  written : ByteArray
  capacity : Option Nat

namespace Sink

def empty (capacity : Option Nat) : Sink := ⟨.empty, capacity⟩

/-- Whether more bytes have room. -/
def admits (sink : Sink) (bytes : ByteArray) : Bool :=
  match sink.capacity with
  | none => true
  | some capacity => sink.written.size + bytes.size ≤ capacity

/-- Stores the bytes, as far as they have room. -/
def write (sink : Sink) (bytes : ByteArray) : Sink :=
  let stored := match sink.capacity with
    | none => bytes
    | some capacity => bytes.extract 0 (capacity - sink.written.size)
  { sink with written := sink.written ++ stored }

end Sink

end Lox
