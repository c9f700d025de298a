import SourceDebugger.Bytes.Reader

/-!
# Call frame instructions

The instructions that build up the rules of a frame, and how they are decoded.
-/

namespace SourceDebugger

/-- A call frame instruction. Offsets that are marked as factored count in units of the data
alignment. -/
inductive FrameInstruction where
  /-- Nothing. -/
  | nop
  /-- Moves the location to an address, before relocation. -/
  | setLocation (addr : UInt64)
  /-- Moves the location on by a number of units. -/
  | advance (delta : UInt64)
  /-- A register is saved at a factored offset from the frame address. -/
  | offset (register : Nat) (factor : Int64)
  /-- The value of a register is the frame address plus a factored offset. -/
  | valOffset (register : Nat) (factor : Int64)
  /-- A register gets back its rule from the common entry. -/
  | restore (register : Nat)
  /-- A register is lost. -/
  | undefined (register : Nat)
  /-- A register is not changed. -/
  | sameValue (register : Nat)
  /-- A register is saved in another one. -/
  | register (register other : Nat)
  /-- Keeps the rules for later. -/
  | rememberState
  /-- Takes back the rules that were kept last. -/
  | restoreState
  /-- The frame address is a register plus an offset. -/
  | defCfa (register : Nat) (offset : Int64)
  /-- The frame address is a register plus a factored offset. -/
  | defCfaFactored (register : Nat) (factor : Int64)
  /-- Changes the register of the frame address. -/
  | defCfaRegister (register : Nat)
  /-- Changes the offset of the frame address. -/
  | defCfaOffset (offset : Int64)
  /-- Changes the offset of the frame address to a factored one. -/
  | defCfaOffsetFactored (factor : Int64)
  /-- The frame address is given by an expression. -/
  | defCfaExpression (expr : List UInt8)
  /-- A register is saved where an expression says. -/
  | expression (register : Nat) (expr : List UInt8)
  /-- The value of a register is given by an expression. -/
  | valExpression (register : Nat) (expr : List UInt8)
deriving DecidableEq, Inhabited

namespace FrameInstruction

/-- Takes a register number, which has to be below 2^16. -/
def takeRegister : Read Nat := do
  let n ← ByteReader.uleb128
  if n.toNat < UInt16.size then return n.toNat
  else throw (.unresolvableFrame s!"register {n.toNat}")

/-- Takes an unsigned offset, which has to fit into a signed word. -/
def takeUnsigned : Read Int64 := do
  let n ← ByteReader.uleb128
  if n < 0x8000000000000000 then return n.toInt64 else throw .leb128Overflow

/-- Takes an expression behind its length. -/
def takeExpression : Read (List UInt8) := do
  let len ← ByteReader.uleb128
  ByteReader.bytes len.toNat

/-- Takes the operands of an instruction whose opcode has no operand in itself. -/
def takeExtended (op : UInt8) : Read FrameInstruction := do
  match op with
  | 0x00 => return .nop
  | 0x01 => return .setLocation (← ByteReader.uint64)
  | 0x02 => return .advance (← ByteReader.uint8).toUInt64
  | 0x03 => return .advance (← ByteReader.uint16).toUInt64
  | 0x04 => return .advance (← ByteReader.uint32).toUInt64
  | 0x05 =>
    let reg ← takeRegister
    return .offset reg (← takeUnsigned)
  | 0x06 => return .restore (← takeRegister)
  | 0x07 => return .undefined (← takeRegister)
  | 0x08 => return .sameValue (← takeRegister)
  | 0x09 =>
    let reg ← takeRegister
    return .register reg (← takeRegister)
  | 0x0a => return .rememberState
  | 0x0b => return .restoreState
  | 0x0c =>
    let reg ← takeRegister
    return .defCfa reg (← takeUnsigned)
  | 0x0d => return .defCfaRegister (← takeRegister)
  | 0x0e => return .defCfaOffset (← takeUnsigned)
  | 0x0f => return .defCfaExpression (← takeExpression)
  | 0x10 =>
    let reg ← takeRegister
    return .expression reg (← takeExpression)
  | 0x11 =>
    let reg ← takeRegister
    return .offset reg (← ByteReader.sleb128)
  | 0x12 =>
    let reg ← takeRegister
    return .defCfaFactored reg (← ByteReader.sleb128)
  | 0x13 => return .defCfaOffsetFactored (← ByteReader.sleb128)
  | 0x14 =>
    let reg ← takeRegister
    return .valOffset reg (← takeUnsigned)
  | 0x15 =>
    let reg ← takeRegister
    return .valOffset reg (← ByteReader.sleb128)
  | 0x16 =>
    let reg ← takeRegister
    return .valExpression reg (← takeExpression)
  | op => throw (.unsupportedOpcode op)

/-- Takes an instruction. The two highest bits of the opcode tell the three instructions that hold
an operand in the other bits. -/
def take : Read FrameInstruction := do
  let op ← ByteReader.uint8
  let low := op &&& 0x3f
  match op &&& 0xc0 with
  | 0x40 => return .advance low.toUInt64
  | 0x80 => return .offset low.toNat (← takeUnsigned)
  | 0xc0 => return .restore low.toNat
  | _ => takeExtended op

end FrameInstruction

end SourceDebugger
