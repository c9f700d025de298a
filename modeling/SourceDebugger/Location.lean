import SourceDebugger.Bytes.Reader
import SourceDebugger.Registers

/-!
# Variable locations

The location expressions of a single operation that compilers emit for code that is not optimised:
relative to the frame base, relative to a register, a fixed address or a plain register.
-/

namespace SourceDebugger

/-- A location expression of one operation. -/
inductive LocationOp where
  /-- A fixed address, before relocation. -/
  | address (addr : UInt64)
  /-- The value is in a register. -/
  | register (number : Nat)
  /-- In memory, at an offset from the value of a register. -/
  | registerOffset (number : Nat) (offset : Int64)
  /-- In memory, at an offset from the frame base of the function. -/
  | frameBaseOffset (offset : Int64)
  /-- At the canonical frame address. -/
  | callFrameCfa
deriving DecidableEq, Inhabited

/-- Where a value lives. -/
inductive Place where
  /-- In memory at an address. -/
  | memory (addr : Addr)
  /-- In the register with a number. -/
  | register (number : Nat)
deriving DecidableEq, Inhabited

/-- What the evaluation of a location needs to know about the current frame. -/
structure LocationContext where
  /-- The registers of the frame. -/
  regs : Registers
  /-- The canonical frame address, if it is known. -/
  cfa : Option Addr
  /-- The frame base of the function, if it is known. -/
  frameBase : Option Addr
  /-- How far the program was moved from the addresses in its file. -/
  bias : Addr

namespace LocationOp

/-- The operation code for a register beyond the first 32. -/
def regx : UInt8 := 0x90

/-- Takes a register number, which has to be below 2^16. -/
def registerNumber : Read Nat := do
  let n ← ByteReader.uleb128
  if n.toNat < UInt16.size then return n.toNat else throw (.unsupportedLocation regx)

/-- Takes the operands that belong to an operation code. -/
def operands (op : UInt8) : Read LocationOp := do
  if op = 0x03 then return .address (← ByteReader.uint64)
  else if 0x50 ≤ op ∧ op ≤ 0x6f then return .register (op.toNat - 0x50)
  else if 0x70 ≤ op ∧ op ≤ 0x8f then
    return .registerOffset (op.toNat - 0x70) (← ByteReader.sleb128)
  else if op = regx then return .register (← registerNumber)
  else if op = 0x91 then return .frameBaseOffset (← ByteReader.sleb128)
  else if op = 0x92 then
    let reg ← registerNumber
    return .registerOffset reg (← ByteReader.sleb128)
  else if op = 0x9c then return .callFrameCfa
  else throw (.unsupportedLocation op)

/-- Decodes an expression, which has to be exactly one supported operation. -/
def decode (expr : List UInt8) : Except DebugError LocationOp :=
  match expr with
  | [] => .error (.unexpectedEnd "location expression")
  | op :: data =>
    match operands op (ByteReader.ofList data) with
    | (.error e, _) => .error e
    | (.ok decoded, reader) =>
      -- more than one operation is not supported
      match reader.rest with
      | [] => .ok decoded
      | next :: _ => .error (.unsupportedLocation next)

/-- The failure for a register of which no snapshot holds the value. -/
def untracked (number : Nat) : DebugError :=
  .unresolvableFrame s!"register {number} is not tracked"

/-- Where the value that the operation describes lives. -/
def place (op : LocationOp) (ctx : LocationContext) : Except DebugError Place :=
  match op with
  | address a =>
    match ctx.bias.add? a with
    | some sum => .ok (.memory sum)
    | none => .error (.unresolvableFrame s!"address {Text.Hex.marked a.toNat} overflows")
  | register r => .ok (.register r)
  | registerOffset r offset =>
    match ctx.regs.getDebug? r with
    | some base => .ok (.memory ((Addr.mk base).offset offset))
    | none => .error (untracked r)
  | frameBaseOffset offset =>
    match ctx.frameBase with
    | some base => .ok (.memory (base.offset offset))
    | none => .error (.unresolvableFrame "no frame base")
  | callFrameCfa =>
    match ctx.cfa with
    | some cfa => .ok (.memory cfa)
    | none => .error (.unresolvableFrame "no canonical frame address")

/-- The address that the frame base expression of a function stands for. A register location
means the value of that register. -/
def frameBase (expr : List UInt8) (ctx : LocationContext) : Except DebugError Addr := do
  match ← (← decode expr).place ctx with
  | .memory addr => return addr
  | .register r =>
    match ctx.regs.getDebug? r with
    | some base => return ⟨base⟩
    | none => throw (untracked r)

end LocationOp

end SourceDebugger
