import Lox.Session
import Lox.Text.Escaped
import Lox.Text.Utf8

/-!
The command line. A command is a request read off the arguments, and performing it is a function
of what the named file and the standard input hold.
-/

namespace Lox

/-- What a command asks for. A file that is not named is one that is not read. -/
inductive Command where
  | run (file : Option String)
  | tokenize (asJson : Bool) (file : Option String)
  | prompt
deriving DecidableEq

namespace Command

/-- The operands among the arguments of a command, and whether `--json` is one of them. Logging may
be asked for anywhere and shows in no output. -/
def operands : (args : List String) → Option (List String × Bool)
  | [] => some ([], false)
  | "--" :: rest => some (rest, false)
  | "--log" :: rest => operands rest
  | "--json" :: rest => (operands rest).map fun (files, _) => (files, true)
  | arg :: rest =>
    if arg.startsWith "-" ∧ arg ≠ "-" then none
    else (operands rest).map fun (files, asJson) => (arg :: files, asJson)

/-- The command that the arguments ask for, unless they are malformed. -/
def ofArguments : (args : List String) → Option Command
  | "--log" :: rest => ofArguments rest
  | "run" :: rest =>
    match operands rest with
    | some ([], false) => some (.run none)
    | some ([file], false) => some (.run (some file))
    | _ => none
  | "tokenize" :: rest =>
    match operands rest with
    | some ([], asJson) => some (.tokenize asJson none)
    | some ([file], asJson) => some (.tokenize asJson (some file))
    | _ => none
  | "repl" :: rest =>
    match operands rest with
    | some ([], false) => some .prompt
    | _ => none
  | _ => none

end Command

/-- What a command leaves behind. -/
structure Exit where
  code : Nat
  stdout : ByteArray
  stderr : String

/-- What an attempt to read a file gives. -/
inductive FileRead where
  | contents (bytes : List UInt8)
  | notOpened (cause : String)
  | notRead (cause : String)

/-- Why there is no source to work on. -/
inductive InputFault where
  | notOpened (file cause : String)
  | notRead (file cause : String)
  | malformed (file : String) (fault : Text.Utf8.Malformed)
  | malformedLine

namespace InputFault

/-- What failed. -/
def message : InputFault → String
  | notOpened file _ => "Failed to open file " ++ Text.escaped file
  | notRead file _ => "Failed to read file " ++ Text.escaped file
  | malformed file _ => "File " ++ Text.escaped file ++ " is not valid UTF-8"
  | malformedLine => "Failed to read from stdin"

/-- Why it failed. -/
def cause : InputFault → String
  | notOpened _ cause | notRead _ cause => cause
  | malformed _ ⟨index, some length⟩ =>
    "invalid utf-8 sequence of " ++ toString length ++ " bytes from index " ++ toString index
  | malformed _ ⟨index, none⟩ => "incomplete utf-8 byte sequence from index " ++ toString index
  | malformedLine => "stream did not contain valid UTF-8"

def text (fault : InputFault) : String :=
  "Error: " ++ fault.message ++ "\n\nCaused by:\n    " ++ fault.cause ++ "\n"

def exit (fault : InputFault) (stdout : ByteArray) : Exit := ⟨1, stdout, fault.text⟩

end InputFault

/-- The source that a file holds. -/
def FileRead.source (file : String) : FileRead → Except InputFault String
  | .notOpened cause => .error (.notOpened file cause)
  | .notRead cause => .error (.notRead file cause)
  | .contents bytes =>
    match Text.Utf8.decode bytes with
    | .ok source => .ok source
    | .error fault => .error (.malformed file fault)

/-- Each text on a line of its own. -/
def inLines (texts : List String) : String :=
  String.join (texts.map (· ++ "\n"))

namespace Ending

/-- A run with a static report exits otherwise than one with other reports. -/
def exitCode (ending : Ending) : Nat :=
  match ending with
  | .done | .unfinished => 0
  | .rejected _ | .stopped _ => if ending.reports.any (·.isStatic) then 65 else 70

/-- The reports on the standard error. -/
def stderr (ending : Ending) : String :=
  inLines (ending.reports.map (·.text))

end Ending

namespace Command

def runSource (clock : Nat → Float) (fuel : Nat) (source : String) : Exit :=
  let outcome := Lox.run clock fuel none source
  ⟨outcome.ending.exitCode, outcome.output, outcome.ending.stderr⟩

/-- Lists the tokens of a source and reports on the rest of it. -/
def tokenizeSource (asJson : Bool) (source : String) : Exit :=
  let scan := Scan.ofSource source
  let lines := scan.tokens.map fun token => if asJson then token.toJson else token.display
  ⟨if scan.errors.isEmpty then 0 else 65, (inLines lines).toUTF8,
    inLines (scan.errors.map (Report.lexical · |>.text))⟩

/-- Works on the source in a file, or says that none was named. -/
def onFile (read : String → FileRead) (file : Option String) (work : String → Exit) : Exit :=
  match file with
  | none => ⟨0, "No input filepath was provided. Exiting...\n".toUTF8, ""⟩
  | some file =>
    match (read file).source file with
    | .ok source => work source
    | .error fault => fault.exit .empty

/-- What stands before each line that is read. -/
def promptMark : String := "> "

/-- The source on a line of input, without the line break. -/
def lineSource (line : List UInt8) : Except InputFault String :=
  match Text.Utf8.decode line with
  | .error _ => .error .malformedLine
  | .ok text =>
    let chars := text.toList.reverse
    match chars with
    | '\n' :: '\r' :: rest | '\n' :: rest => .ok (String.ofList rest.reverse)
    | _ => .ok text

/-- The lines of an input, each with its line break. -/
def inputLines : List UInt8 → List (List UInt8)
  | [] => []
  | byte :: rest =>
    match inputLines rest with
    | [] => [[byte]]
    | line :: later => if byte = 10 then [byte] :: line :: later else (byte :: line) :: later

/-- Runs lines of input in a session, after what was written before them. -/
def runPrompt (clock : Nat → Float) (fuel : Nat) (session : Session) (stdout : ByteArray)
    (stderr : String) : (lines : List (List UInt8)) → Exit
  | [] => ⟨0, stdout ++ (promptMark ++ "\n").toUTF8, stderr⟩
  | line :: later =>
    let stdout := stdout ++ promptMark.toUTF8
    match lineSource line with
    | .error fault => { fault.exit stdout with stderr := stderr ++ fault.text }
    | .ok source =>
      let (outcome, session) := session.runLine clock fuel source
      runPrompt clock fuel session (stdout ++ outcome.output) (stderr ++ outcome.ending.stderr) later

/-- Performs a command, given what files hold and the standard input. -/
def perform (clock : Nat → Float) (fuel : Nat) (read : String → FileRead) (stdin : List UInt8) :
    Command → Exit
  | .run file => onFile read file (runSource clock fuel)
  | .tokenize asJson file => onFile read file (tokenizeSource asJson)
  | .prompt => runPrompt clock fuel .start .empty "" (inputLines stdin)

end Command

end Lox
