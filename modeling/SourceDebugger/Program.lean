import SourceDebugger.CommandLine
import SourceDebugger.Kernel.Basic
import SourceDebugger.Session.Open
import SourceDebugger.Session.Script
import SourceDebugger.Target

/-!
# The program

The debugger as a program: it reads its command line, prepares the target, and lets the operator at
a terminal drive a session.
-/

namespace SourceDebugger

/-- How the program ended. -/
structure ProgramResult where
  /-- The exit status. -/
  status : Nat
  /-- What is on the standard output, of the debugged program as well. -/
  output : ByteArray
  /-- Why the program gave up, if it did. -/
  failure : Option DebugError

namespace Program

/-- The exit status of a program that gives up. -/
def failureStatus : Nat := 1

/-- The exit status of a program that does not understand its command line. -/
def misuseStatus : Nat := 2

/-- The end of a program that has nothing more to do. -/
def done (text : String) : ProgramResult := ⟨0, text.toUTF8, none⟩

/-- The end of a program that gives up. -/
def giveUp (output : ByteArray) (e : DebugError) : ProgramResult := ⟨failureStatus, output, some e⟩

/-- More commands and instructions than any session takes. -/
def patience : Nat := 1000000000

/-- Lets the operator drive a session for a target. There is no result if the session never ends. -/
def debug (system : Kernel) (target : Target) (invocation : Invocation)
    (lines : Option (List String)) : Option ProgramResult :=
  match Session.open_ system.files target.path invocation.arguments system with
  | (.error e, system) => some (giveUp system.output e)
  | (.ok session, _) =>
    let session := { session with listRange := invocation.listRange }
    let written (child : TracedChild Kernel) : ByteArray := child.system.output
    match session.converse written patience (Terminal.ofLines lines) with
    | none => none
    | some (result, terminal, session) =>
      let output := (terminal.catchUp (written session.process)).screen
      match result with
      | .ok () => some ⟨0, output, none⟩
      | .error e => some (giveUp output e)

/-- What the program does for a command line, with the lines that the operator types if there is a
terminal. -/
def run (workshop : Workshop) (system : Kernel) (words : List String)
    (lines : Option (List String)) : Option ProgramResult :=
  match CommandLine.parse words with
  | .help long => some (done (CommandLine.helpText long))
  | .version => some (done CommandLine.versionText)
  | .misuse => some ⟨misuseStatus, .empty, none⟩
  | .debug invocation =>
    match Target.prepare workshop system.files invocation.target invocation.keepBuild with
    | (.error e, _) => some (giveUp .empty e)
    | (.ok target, files) => debug { system with files } target invocation lines

end Program

end SourceDebugger
