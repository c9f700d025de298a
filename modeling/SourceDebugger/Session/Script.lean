import SourceDebugger.Command.Parse
import SourceDebugger.Session.Dialogue

/-!
# Operators with prepared lines

Operators whose lines are known beforehand: one who keeps the answers, and a terminal into which the
lines are typed and on which the program and the debugger write.
-/

namespace SourceDebugger

/-- The command in the first line that is not blank, and the lines behind it. At the end of the
lines, the operator leaves. -/
def nextCommand : List String → Command × List String
  | [] => (.quit, [])
  | line :: rest =>
    match Command.parse line with
    | some c => (c, rest)
    | none => nextCommand rest

/-- An operator who keeps the answers. -/
structure Typist where
  /-- The lines that are left. -/
  lines : List String
  /-- The answers so far. -/
  answers : List String
  /-- At which answer the operator fails, if ever. -/
  failAt : Option Nat
deriving DecidableEq, Inhabited

instance : Operator Typist where
  next _ f := do
    modify fun t => { t with answers := t.answers ++ [f.render] }
    let t ← get
    if t.failAt = some t.answers.length then throw (.unexpectedStop "the ui failed")
    let (command, lines) := nextCommand t.lines
    set { t with lines }
    return command

/-- A terminal. -/
structure Terminal where
  /-- The lines that are left, unless nothing can be typed. -/
  lines : Option (List String)
  /-- What has been written, by the program and by the debugger. -/
  screen : ByteArray
  /-- How much of what the program has written is on the screen. -/
  seen : Nat
deriving Inhabited

namespace Terminal

/-- A terminal on which nothing has been written. -/
def ofLines (lines : Option (List String)) : Terminal := ⟨lines, .empty, 0⟩

/-- The terminal once all that the program has written is on the screen. -/
def catchUp (t : Terminal) (written : ByteArray) : Terminal :=
  { t with screen := t.screen ++ written.extract t.seen written.size, seen := written.size }

instance : Operator Terminal where
  next written f := do
    modify fun t => t.catchUp written
    modify fun t => { t with screen := t.screen ++ f.render.toUTF8 }
    let t ← get
    match t.lines with
    | none => throw (.io "IO error: not a terminal")
    | some lines =>
      let (command, lines) := nextCommand lines
      set { t with lines := some lines }
      return command

end Terminal

end SourceDebugger
