import SourceDebugger.Listing
import SourceDebugger.Text.Numeral

/-!
# The command line

The options and arguments with which the debugger is started, and the text that explains them.
-/

namespace SourceDebugger

/-- What the debugger is asked to do. -/
structure Invocation where
  /-- The executable or source file. -/
  target : String
  /-- The arguments of the program. -/
  arguments : List String
  /-- How often more messages were asked for. -/
  verbosity : Nat
  /-- Whether an executable that was built is kept. -/
  keepBuild : Bool
  /-- How many lines are listed on each side of a line. -/
  listRange : UInt64
deriving DecidableEq, Inhabited

/-- What a command line asks for. -/
inductive CommandLine where
  /-- To debug a program. -/
  | debug (invocation : Invocation)
  /-- To be told how the debugger is used, at length or in short. -/
  | help (long : Bool)
  /-- To be told the version. -/
  | version
  /-- Nothing that the debugger knows. -/
  | misuse
deriving DecidableEq, Inhabited

namespace CommandLine

/-- What is known after some words. -/
structure Partial where
  /-- The target, if it was given. -/
  target : Option String
  /-- How often more messages were asked for. -/
  verbosity : Nat
  /-- Whether what is built is kept. -/
  keepBuild : Bool
  /-- The list range, if it was given. -/
  listRange : Option UInt64
deriving DecidableEq, Inhabited

namespace Partial

/-- What is known at the start. -/
def empty : Partial := ⟨none, 0, false, none⟩

/-- What a complete command line asks for: it has to name a target. -/
def finish (p : Partial) (arguments : List String) : CommandLine :=
  match p.target with
  | none => .misuse
  | some target =>
    .debug ⟨target, arguments, p.verbosity, p.keepBuild, p.listRange.getD Listing.defaultRange⟩

/-- Takes over the list range, which can be given only once. -/
def takeRange (p : Partial) (text : String) : Option Partial :=
  match p.listRange, Text.Numeral.word? text.toList with
  | none, some n => some { p with listRange := some n }
  | _, _ => none

/-- Takes over the target, which is not empty and can be given only once. -/
def takeTarget (p : Partial) (text : String) : Option Partial :=
  if p.target.isSome ∨ text = "" then none else some { p with target := some text }

/-- Takes over a row of short options: what is known after them, or what one of them asks for. -/
def takeShort (p : Partial) : List Char → Except CommandLine Partial
  | [] => .ok p
  | 'v' :: rest => takeShort { p with verbosity := p.verbosity + 1 } rest
  | 'h' :: _ => .error (.help false)
  | 'V' :: _ => .error .version
  | _ :: _ => .error .misuse

end Partial

/-- The name of an option and the value that is written behind it. -/
def splitValue (word : String) : String × Option String :=
  let name := word.toList.takeWhile (· != '=')
  match word.toList.drop name.length with
  | [] => (word, none)
  | _ :: value => (String.ofList name, some (String.ofList value))

/-- The option that takes a value. -/
def rangeOption : String := "--list-range"

/-- What the words of a command line ask for. What follows `--` belongs to the program. -/
def parseFrom (p : Partial) : List String → CommandLine
  | [] => p.finish []
  | "--" :: arguments => p.finish arguments
  | word :: rest =>
    match splitValue word with
    | ("--verbose", none) => parseFrom { p with verbosity := p.verbosity + 1 } rest
    | ("--keep-build", none) =>
      if p.keepBuild then .misuse else parseFrom { p with keepBuild := true } rest
    | ("--help", none) => .help true
    | ("--version", none) => .version
    | (name, value) =>
      if name = rangeOption then
        match value, rest with
        | some value, rest =>
          match p.takeRange value with
          | some p => parseFrom p rest
          | none => .misuse
        | none, value :: rest =>
          match p.takeRange value with
          | some p => parseFrom p rest
          | none => .misuse
        | none, [] => .misuse
      else if word.startsWith "--" then .misuse
      else if word.startsWith "-" ∧ word ≠ "-" then
        match p.takeShort (word.toList.drop 1) with
        | .ok p => parseFrom p rest
        | .error answer => answer
      else
        match p.takeTarget word with
        | some p => parseFrom p rest
        | none => .misuse

/-- What a command line asks for. -/
def parse (words : List String) : CommandLine := parseFrom .empty words

/-- The name of the program. -/
def programName : String := "tdb"

/-- The version of the program. -/
def programVersion : String := "0.1.0"

/-- The answer to the question for the version. -/
def versionText : String := s!"{programName} {programVersion}\n"

/-- An entry of the explanation: how it is written, what it is for, and what is assumed without
it. -/
structure HelpEntry where
  /-- How it is written. -/
  form : String
  /-- What it is for. -/
  purpose : String
  /-- What is assumed without it. -/
  default : Option String

/-- The arguments. -/
def argumentEntries : List HelpEntry :=
  [⟨"<TARGET>",
      "The executable to debug, or a \x60.go\x60 or \x60.c\x60 file that is built first", none⟩,
   ⟨"[ARGS]...", "Arguments for the debuggee", none⟩]

/-- The options. -/
def optionEntries (long : Bool) : List HelpEntry :=
  let other := if long then "see a summary with '-h'" else "see more with '--help'"
  [⟨"-v, --verbose...", "Log more, repeat for even more", none⟩,
   ⟨"    --keep-build", "Keep the executable built from a source file", none⟩,
   ⟨"    --list-range <LIST_RANGE>", "Lines of source shown around a line by \x60list\x60",
      some (toString Listing.defaultRange.toNat)⟩,
   ⟨"-h, --help", s!"Print help ({other})", none⟩,
   ⟨"-V, --version", "Print version", none⟩]

/-- Entries in short: one line each, with the purposes below each other. -/
def shortEntries (entries : List HelpEntry) : String :=
  let width := entries.foldl (fun n e => max n e.form.length) 0
  "\n".intercalate (entries.map fun e =>
    "  " ++ Text.padRight width e.form ++ "  " ++ e.purpose ++
      (e.default.elim "" fun d => s!" [default: {d}]"))

/-- Entries at length: the purpose stands below the form. -/
def longEntries (entries : List HelpEntry) : String :=
  let indent := "\n          "
  "\n\n".intercalate (entries.map fun e =>
    "  " ++ e.form ++ indent ++ e.purpose ++
      (e.default.elim "" fun d => indent ++ indent ++ s!"[default: {d}]"))

/-- What the program is, in short. -/
def shortPurpose : String :=
  "A source-level debugger for x86-64 Linux driven by DWARF line, frame and subprogram information"

/-- What the program is, at length. -/
def longPurpose : String :=
  "tdb - a source level debugger for x86-64 Linux\n\nLaunches the target under ptrace and lets you " ++
  "set breakpoints on source lines, step by lines or instructions, look at the call stack, " ++
  "disassemble and print variables. Type \x60help\x60 at the prompt for the commands."

/-- The explanation of the command line. -/
def helpText (long : Bool) : String :=
  let entries := if long then longEntries else shortEntries
  (if long then longPurpose else shortPurpose) ++
    s!"\n\nUsage: {programName} [OPTIONS] <TARGET> [-- <ARGS>...]\n" ++
    "Arguments:\n" ++ entries argumentEntries ++
    "\n\nOptions:\n" ++ entries (optionEntries long) ++
    s!"  \n\n{programName}: v{programVersion}\n"

end CommandLine

end SourceDebugger
