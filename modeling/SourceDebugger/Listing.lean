import SourceDebugger.System.FileSystem

/-!
# Source listings

The lines of a source file around a line of interest.
-/

namespace SourceDebugger

/-- The lines of a source file around a line of interest. -/
structure Listing where
  /-- The path of the file. -/
  file : String
  /-- The number of the line of interest. -/
  line : UInt64
  /-- The lines that are kept, each with its number. -/
  lines : List (Nat × String)
deriving DecidableEq, Inhabited

namespace Listing

/-- How many lines are shown on each side unless the operator says otherwise. -/
def defaultRange : UInt64 := 6

/-- The text of one line, without the carriage return that may stand before its line feed. -/
def lineText (cs : List Char) : String :=
  String.ofList (if cs.getLast? = some '\x0d' then cs.dropLast else cs)

/-- The lines of a text. A line ends with a line feed, which the last one need not have;
`line` holds the characters since the last line feed, in reverse. -/
def linesOf (line : List Char) : List Char → List String
  | [] => if line.isEmpty then [] else [String.ofList line.reverse]
  | c :: rest =>
    if c = '\n' then lineText line.reverse :: linesOf [] rest
    else linesOf (c :: line) rest

/-- The lines of a text, numbered from 1. -/
def numberedLines (content : String) : List (Nat × String) :=
  ((linesOf [] content.toList).zipIdx 1).map fun (text, n) => (n, text)

/-- Keeps the lines at most `range` away from `line`. Both bounds are clamped to what a word
holds, and the first line has number 1. -/
def ofSource (file content : String) (line range : UInt64) : Listing :=
  let first := max (line.toNat - range.toNat) 1
  let last := min (line.toNat + range.toNat) (UInt64.size - 1)
  { file, line
    lines := ((numberedLines content).dropWhile (·.1 < first)).takeWhile (·.1 ≤ last) }

/-- Reads a file and keeps the lines around `line`. -/
def read (files : FileSystem) (path : String) (line range : UInt64) : Except DebugError Listing := do
  return ofSource path (← files.readText path) line range

/-- One line of a listing; an arrow marks the line of interest. -/
def rowText (line : UInt64) (row : Nat × String) : String :=
  (if row.1 = line.toNat then "==>" else "   ") ++ Text.padLeft 7 ' ' (toString row.1) ++ ": " ++
    row.2 ++ "\n"

/-- The whole listing with its heading. -/
def text (l : Listing) : String :=
  s!"list {l.file}:{l.line.toNat}\n" ++ String.join (l.lines.map (rowText l.line))

end Listing

end SourceDebugger
