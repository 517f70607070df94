import Lox.Command
import Std.Time

/-!
The command line program. It looks up the named file, talks to the standard streams and otherwise
does what the command says.
-/

namespace Lox.Main

/-- A failed system call in words, with its number. -/
def cause : IO.Error → String
  | .noFileOrDirectory _ code details | .permissionDenied _ code details
  | .inappropriateType _ code details | .invalidArgument _ code details
  | .noSuchThing _ code details | .resourceExhausted _ code details
  | .otherError code details | .hardwareFault code details =>
    details ++ " (os error " ++ toString code ++ ")"
  | error => toString error

/-- Reads a file as a whole. -/
def fileContents (name : String) : IO FileRead := do
  match ← (IO.FS.Handle.mk name .read).toBaseIO with
  | .error error => return .notOpened (cause error)
  | .ok handle =>
    match ← handle.readBinToEnd.toBaseIO with
    | .error error => return .notRead (cause error)
    | .ok bytes => return .contents bytes.toList

/-- The clock in seconds since 1970, each reading a millisecond after the one before it. -/
def startClock : IO (Nat → Float) := do
  let now ← Std.Time.Timestamp.now
  let milliseconds := now.toMillisecondsSinceUnixEpoch.val
  return fun reading => Float.ofInt (milliseconds + reading) / 1000

/-- Reads up to a line break or the end of the input. -/
partial def inputLine (input : IO.FS.Stream) (line : ByteArray) : IO ByteArray := do
  let next ← input.read 1
  if next.isEmpty || next.data.contains 10 then
    return line ++ next
  else
    inputLine input (line ++ next)

/-- Prompts for lines and runs each of them, until the input ends. -/
partial def prompt (session : Session) : IO UInt32 := do
  let output ← IO.getStdout
  output.putStr Command.promptMark
  output.flush
  let line ← inputLine (← IO.getStdin) .empty
  if line.isEmpty then
    output.putStr "\n"
    return 0
  match Command.lineSource line.toList with
  | .error fault =>
    IO.eprint fault.text
    return 1
  | .ok source =>
    let (outcome, session) := session.runLine (← startClock) ampleFuel source
    output.write outcome.output
    IO.eprint outcome.ending.stderr
    prompt session

/-- Performs a command that works on a file. -/
def perform (command : Command) (file : Option String) : IO UInt32 := do
  let found ← match file with
    | some name => fileContents name
    | none => pure (.contents [])
  let exit := command.perform (← startClock) ampleFuel (fun _ => found) []
  let output ← IO.getStdout
  output.write exit.stdout
  output.flush
  IO.eprint exit.stderr
  return .ofNat exit.code

end Lox.Main

def main (args : List String) : IO UInt32 := do
  match Lox.Command.ofArguments args with
  | some .prompt => Lox.Main.prompt .start
  | some (.run file) => Lox.Main.perform (.run file) file
  | some (.tokenize asJson file) => Lox.Main.perform (.tokenize asJson file) file
  | none =>
    IO.eprintln "usage: (run [FILE] | tokenize [--json] [FILE] | repl) [--log]"
    return 2
