import SourceDebugger.Index.Lookup
import SourceDebugger.X86.Decode
import SourceDebugger.X86.Text

/-!
# Disassembly

The code of the debugged program as text. The bytes come without the traps of armed breakpoints;
each instruction knows whether it has a breakpoint and, once it was looked up, its source line.
-/

namespace SourceDebugger

/-- What the step engine needs to know of an instruction. -/
structure InstructionInfo where
  /-- How many bytes it takes. -/
  length : Nat
  /-- Whether it enters code that comes back to the next instruction. -/
  isCall : Bool
deriving DecidableEq, Inhabited

/-- Decodes the instruction at the start of `data`, which was read from `addr`. -/
def InstructionInfo.decode (data : List UInt8) (addr : Addr) : Except DebugError InstructionInfo :=
  match X86.Instruction.decode? data addr.val with
  | some i => .ok ⟨i.length, i.flow = .call⟩
  | none => .error (.undecodable addr)

/-- A disassembled instruction. -/
structure DisassembledInstruction where
  /-- Its address. -/
  addr : Addr
  /-- Its bytes. -/
  raw : List UInt8
  /-- Its text. -/
  text : String
  /-- Whether it has a breakpoint. -/
  hasBreakpoint : Bool
  /-- Its source line, once it was looked up. -/
  location : Option SourceLocation
deriving DecidableEq, Inhabited

/-- A row of disassembled instructions. -/
structure Disassembly where
  /-- The instructions in the order of their addresses. -/
  instructions : List DisassembledInstruction
  /-- The address at which the program stands. -/
  current : Option Addr
deriving DecidableEq, Inhabited

namespace Disassembly

/-- Nothing. -/
def empty : Disassembly := ⟨[], none⟩

/-- The instructions of `data`, which starts at `addr`. No instruction is empty, so there are at
most as many as bytes. -/
def instructionsOf (breakpoints : List Addr) :
    Nat → List UInt8 → Addr → Except DebugError (List DisassembledInstruction)
  | _, [], _ => .ok []
  | 0, _ :: _, addr => .error (.undecodable addr)
  | fuel + 1, data, addr =>
    match X86.Instruction.decode? data addr.val with
    | none => .error (.undecodable addr)
    | some i => do
      let rest ← instructionsOf breakpoints fuel (data.drop i.length) (addr + UInt64.ofNat i.length)
      return {
        addr
        raw := data.take i.length
        text := i.text
        hasBreakpoint := breakpoints.contains addr
        location := none } :: rest

/-- Disassembles `data`, which starts at `addr`. An invalid instruction fails as a whole: what
follows it cannot be trusted. -/
def disassemble (data : List UInt8) (addr : Addr) (breakpoints : List Addr) :
    Except DebugError Disassembly := do
  return ⟨← instructionsOf breakpoints data.length data addr, none⟩

/-- Looks up the source line of every instruction. -/
def annotate (d : Disassembly) (index : DebugIndex) : Disassembly :=
  { d with
    instructions := d.instructions.map fun i =>
      { i with location := (index.resolveAddress i.addr).toOption } }

/-- Marks the instruction at which the program stands. -/
def markCurrent (d : Disassembly) (pc : Addr) : Disassembly := { d with current := some pc }

/-- The place of an instruction: the name of its file and its line. -/
def placeText : Option SourceLocation → String
  | some l => (Text.Path.fileName? l.file).getD "" ++ s!":{l.line.toNat}"
  | none => "??"

/-- One row; `next` is the address of the next instruction, if there is one. -/
def rowText (current : Option Addr) (i : DisassembledInstruction) (next : Option Addr) : String :=
  let isCurrent :=
    match current with
    | none => false
    | some pc =>
      i.addr ≤ pc &&
        match next with
        | none => pc == i.addr
        | some n => pc < n
  (if i.hasBreakpoint then "." else " ") ++ (if isCurrent then "===> " else "     ") ++
    Text.padRight 16 (placeText i.location) ++ i.addr.text ++ " " ++
    Text.padRight 27 (String.join (i.raw.map fun b => Text.Hex.byte b ++ " ")) ++ i.text ++ "\n"

/-- The rows of some instructions. -/
def rowsText (current : Option Addr) : List DisassembledInstruction → String
  | [] => ""
  | i :: rest => rowText current i (rest.head?.map (·.addr)) ++ rowsText current rest

/-- The text, one row for each instruction. -/
def text (d : Disassembly) : String := rowsText d.current d.instructions

end Disassembly

end SourceDebugger
