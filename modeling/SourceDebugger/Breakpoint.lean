import SourceDebugger.Addr
import SourceDebugger.Bytes.Reader

/-!
# Breakpoints

A breakpoint is a trap instruction over the first byte of an instruction of the program. The table
of breakpoints keeps the bytes that the traps replaced, in the order in which they were set. The
operator knows the breakpoints that they set by numbers from 1 on.
-/

namespace SourceDebugger

/-- Who set a breakpoint. -/
inductive BreakpointKind where
  /-- The operator. -/
  | user
  /-- The step engine, for the time of a command. -/
  | internal
deriving DecidableEq, Inhabited

/-- A breakpoint. -/
structure Breakpoint where
  /-- Where it is. -/
  addr : Addr
  /-- The byte of the program that the trap replaced. -/
  saved : UInt8
  /-- The path of the source file. -/
  file : String
  /-- The line of the source file. -/
  line : UInt64
  /-- Who set it. -/
  kind : BreakpointKind
deriving DecidableEq, Inhabited

/-- Address and source line, with a remark if the operator did not set it. -/
def Breakpoint.text (b : Breakpoint) : String :=
  s!"{b.addr.text} at {b.file}:{b.line.toNat}" ++
    match b.kind with
    | .user => ""
    | .internal => " (internal)"

/-- The breakpoints in the order in which they were set. -/
abbrev BreakpointTable := List Breakpoint

namespace BreakpointTable

/-- The breakpoints that the operator set. -/
def user (table : BreakpointTable) : BreakpointTable := table.filter (·.kind = .user)

/-- The breakpoint at an address. -/
def locate? (table : BreakpointTable) (addr : Addr) : Option Breakpoint :=
  table.find? (·.addr = addr)

/-- Whether there is a breakpoint at an address. -/
def isArmed (table : BreakpointTable) (addr : Addr) : Bool := (table.locate? addr).isSome

/-- The table without the breakpoint at an address. -/
def without (table : BreakpointTable) (addr : Addr) : BreakpointTable :=
  table.eraseP (·.addr = addr)

/-- The breakpoint of the operator with a number. -/
def numbered? (table : BreakpointTable) (number : UInt64) : Option Breakpoint :=
  match number.toNat with
  | 0 => none
  | n + 1 => table.user[n]?

/-- Every breakpoint with the number by which the operator knows it, if the operator set it;
`next` is the next number. -/
def numberedFrom (next : Nat) : BreakpointTable → List (Option Nat × Breakpoint)
  | [] => []
  | b :: rest =>
    match b.kind with
    | .user => (some next, b) :: numberedFrom (next + 1) rest
    | .internal => (none, b) :: numberedFrom next rest

/-- The breakpoints that are listed, with their numbers: those of the operator, or all. -/
def listed (table : BreakpointTable) (all : Bool) : List (Option Nat × Breakpoint) :=
  (numberedFrom 1 table).filter fun (number, _) => all || number.isSome

/-- Puts the byte of the program back into bytes that were read from `base` on. -/
def restoreByte (base : Addr) (data : List UInt8) (b : Breakpoint) : List UInt8 :=
  match b.addr.distanceFrom? base with
  | some n => data.set n.toNat b.saved
  | none => data

/-- Bytes of the program that were read from `base` on, without any trap. -/
def unpatch (table : BreakpointTable) (base : Addr) (data : List UInt8) : List UInt8 :=
  table.foldl (restoreByte base) data

end BreakpointTable

end SourceDebugger
