import SourceDebugger.Command.Basic
import SourceDebugger.Text.Blank
import SourceDebugger.Text.Numeral
import SourceDebugger.Text.Words

/-!
# Commands from lines

A line of the operator is split into words. The first one names the command, in a short or a long
form.
-/

namespace SourceDebugger.Command

/-- The characters behind the last colon and those before it. -/
def splitLastColon? (cs : List Char) : Option (List Char × List Char) :=
  let line := cs.reverse.takeWhile (· != ':')
  match cs.reverse.drop line.length with
  | _ :: file => some (file.reverse, line.reverse)
  | [] => none

/-- A file and a line with a colon between them. The file can have colons itself and is not
empty. -/
def location? (cs : List Char) : Option (String × UInt64) := do
  let (file, line) ← splitLastColon? cs
  if file.isEmpty then none
  return (String.ofList file, ← Text.Numeral.word? line)

/-- The command that a single word stands for. -/
def ofWord? (word : String) : Option Command :=
  match word with
  | "bl" => some (.listBreakpoints false)
  | "bt" => some .backtrace
  | "c" | "continue" => some .resume
  | "s" | "step" => some .step
  | "n" | "next" => some .next
  | "si" | "stepi" => some .stepInstruction
  | "l" | "list" => some (.list none none)
  | "r" | "restart" => some .restart
  | "disass" => some .disassemble
  | "regs" => some .registers
  | "h" | "help" => some .help
  | "q" | "quit" => some .quit
  | _ => none

/-- The command that a word with an argument stands for. -/
def ofPair? (word : String) (argument : List Char) : Option Command :=
  match word with
  | "b" | "break" =>
    match location? argument with
    | some (file, line) => some (.setBreakpoint file line)
    | none => some (.setFunctionBreakpoint (String.ofList argument))
  | "f" | "find" => (location? argument).map fun (file, line) => .find file line
  | "bc" | "bclear" =>
    if String.ofList argument = "all" then some (.clearBreakpoint .all)
    else (Text.Numeral.word? argument).map fun n => .clearBreakpoint (.number n)
  | "bl" => if String.ofList argument = "all" then some (.listBreakpoints true) else none
  | "l" | "list" => (location? argument).map fun location => .list (some location) none
  | "p" | "print" => some (.print (String.ofList argument))
  | _ => none

/-- The command that some words stand for. -/
def ofWords? (words : List (List Char)) : Option Command :=
  match words with
  | [word] => ofWord? (String.ofList word)
  | [word, argument] => ofPair? (String.ofList word) argument
  | [word, location, range] =>
    let word := String.ofList word
    if word = "l" ∨ word = "list" then do
      return .list (some (← location? location)) (some (← Text.Numeral.word? range))
    else none
  | _ => none

/-- The command in a line; a blank line holds none. -/
def parse (line : String) : Option Command :=
  let trimmed := Text.trim line.toList
  if trimmed.isEmpty then none
  else some (((Text.Words.split trimmed).bind ofWords?).getD (.unsupported (String.ofList trimmed)))

end SourceDebugger.Command
