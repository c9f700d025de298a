import SourceDebugger.Bytes.Reader
import SourceDebugger.Kernel.Memory
import SourceDebugger.Registers
import SourceDebugger.X86.Flags

/-!
# The processor of a process

Registers and memory as the instructions of a process see them. An instruction that faults leaves
everything as it was: its effect is thrown away together with the state in which it was computed.
-/

namespace SourceDebugger.X86

open Kernel (Memory)

/-- What the instructions of a process work on. -/
structure Processor where
  /-- The registers. -/
  registers : Registers
  /-- The memory. -/
  memory : Memory
deriving Inhabited

/-- A part of the execution of an instruction. Where it cannot go on, there is the signal that the
fault raises, and nothing has changed. -/
abbrev Execution (α : Type) := StateT Processor (Except Signal) α

/-- How an instruction ends that does not fault. -/
inductive Completion where
  /-- Like most instructions. -/
  | plain
  /-- It is the trap instruction. -/
  | breakpoint
  /-- It asks the system for something. -/
  | systemCall
deriving DecidableEq, Inhabited

/-- The general registers, in the order of their numbers. -/
def generalRegisters : List Register :=
  [.rax, .rcx, .rdx, .rbx, .rsp, .rbp, .rsi, .rdi, .r8, .r9, .r10, .r11, .r12, .r13, .r14, .r15]

/-- The general register with a number. -/
def general (number : Nat) : Register := generalRegisters.getD number .rax

/-- The segment register with a number. -/
def segmentRegister (number : Nat) : Register :=
  [Register.es, .cs, .ss, .ds, .fs, .gs].getD number .ds

namespace Processor

/-- The value of a register. -/
def get (r : Register) : Execution UInt64 := return (← getThe Processor).registers.get r

/-- Changes a register. -/
def set (r : Register) (v : UInt64) : Execution Unit :=
  modify fun p => { p with registers := p.registers.set r v }

/-- The signal of a fault. -/
def raise {α : Type} (s : Signal) : Execution α := throw s

/-- Whether the upper bits of an address repeat the highest one that is used. -/
def isCanonical (addr : UInt64) : Bool := addr < 0x800000000000 || addr ≥ 0xffff800000000000

/-- An access to an address that no memory can have is a fault of the stack if it goes by a stack
register. -/
def checkCanonical (onStack : Bool) (addr : UInt64) : Execution Unit :=
  if isCanonical addr then pure () else raise (if onStack then .bus else .segv)

/-- Reads a number from memory. -/
def load (onStack : Bool) (w : Width) (addr : UInt64) : Execution UInt64 := do
  checkCanonical onStack addr
  let bytes ← (((← getThe Processor).memory.load addr.toNat w.bytes : Except Signal _))
  return UInt64.ofNat (littleEndian bytes)

/-- Writes a number to memory. -/
def store (onStack : Bool) (w : Width) (addr v : UInt64) : Execution Unit := do
  checkCanonical onStack addr
  let memory ← ((← getThe Processor).memory.store addr.toNat
    (toLittleEndian w.bytes (w.truncate v).toNat) : Except Signal _)
  modify fun p => { p with memory }

/-- The address of a memory operand. -/
def address (m : MemoryOperand) : Execution UInt64 := do
  let registers := (← getThe Processor).registers
  let part (r : Option Nat) : UInt64 :=
    match r with
    | some n => registers.get (general n)
    | none => 0
  let offset := m.addressWidth.truncate
    (part m.base + part m.index * UInt64.ofNat m.scale + m.displacement)
  let base :=
    match m.segment with
    | some 4 => registers.get .fsBase
    | some _ => registers.get .gsBase
    | none => 0
  return base + offset

/-- Whether a memory operand goes by a stack register. -/
def onStack (m : MemoryOperand) : Bool :=
  m.segment.isNone && (m.base == some 4 || m.base == some 5)

/-- Reads a register by its name. -/
def readRegister : RegisterName → Execution UInt64
  | .general w n => return w.truncate (← get (general n))
  | .highByte n => return Width.byte.truncate ((← get (general n)) >>> 8)
  | .segment n => get (segmentRegister n)
  | .control _ | .debug _ => raise .segv
  | .vector64 _ | .vector128 _ | .vector256 _ | .vector512 _ | .mask _ | .tile _ | .float _ =>
    raise .ill

/-- Writes a register by its name. A value of 32 bits clears the upper half; smaller ones leave the
rest of the register alone. -/
def writeRegister (name : RegisterName) (v : UInt64) : Execution Unit :=
  match name with
  | .general .qword n => set (general n) v
  | .general .dword n => set (general n) (Width.dword.truncate v)
  | .general .word n => do
    set (general n) (((← get (general n)) &&& 0xffffffffffff0000) ||| Width.word.truncate v)
  | .general .byte n => do
    set (general n) (((← get (general n)) &&& 0xffffffffffffff00) ||| Width.byte.truncate v)
  | .highByte n => do
    let rest : UInt64 := (← get (general n)) &&& 0xffffffffffff00ff
    set (general n) (rest ||| (Width.byte.truncate v <<< 8))
  | .segment _ | .control _ | .debug _ => raise .segv
  | .vector64 _ | .vector128 _ | .vector256 _ | .vector512 _ | .mask _ | .tile _ | .float _ =>
    raise .ill

end Processor

/-- The width of an operand in memory, if it is that of a general register. -/
def MemorySize.width? : MemorySize → Option Width
  | .byte => some .byte
  | .word => some .word
  | .dword => some .dword
  | .qword => some .qword
  | .unsized | .fword | .tword | .oword | .yword | .zword => none

namespace Operand

/-- The width of an operand, if it has one. -/
def width? : Operand → Option Width
  | register (.general w _) => some w
  | register (.highByte _) => some .byte
  | register (.segment _) => some .word
  | register _ => none
  | memory size _ => size.width?
  | immediate _ | target _ _ | broadcast _ _ _ | gathered _ _ _ | rounding _ => none

/-- The value of an operand. -/
def read : Operand → Execution UInt64
  | register name => Processor.readRegister name
  | memory size m =>
    match size.width? with
    | some w => do Processor.load (Processor.onStack m) w (← Processor.address m)
    | none => Processor.raise .ill
  | immediate v => return v
  | target _ v => return v
  | broadcast _ _ _ | gathered _ _ _ | rounding _ => Processor.raise .ill

/-- Changes what an operand stands for. -/
def write (o : Operand) (v : UInt64) : Execution Unit :=
  match o with
  | register name => Processor.writeRegister name v
  | memory size m =>
    match size.width? with
    | some w => do Processor.store (Processor.onStack m) w (← Processor.address m) v
    | none => Processor.raise .ill
  | immediate _ | target _ _ | broadcast _ _ _ | gathered _ _ _ | rounding _ =>
    Processor.raise .ill

end Operand

namespace Processor

/-- Changes the flags of a mask. -/
def setFlags (mask new : UInt64) : Execution Unit := do
  set .eflags (Flag.replace mask new (← get .eflags))

/-- Whether a flag is set. -/
def flag (f : UInt64) : Execution Bool := return (← get .eflags) &&& f ≠ 0

/-- Puts a number on the stack. -/
def push (w : Width) (v : UInt64) : Execution Unit := do
  let rsp := (← get .rsp) - UInt64.ofNat w.bytes
  store true w rsp v
  set .rsp rsp

/-- Takes a number from the stack. -/
def pop (w : Width) : Execution UInt64 := do
  let rsp ← get .rsp
  let v ← load true w rsp
  set .rsp (rsp + UInt64.ofNat w.bytes)
  return v

/-- Goes on at another address. -/
def jump (addr : UInt64) : Execution Unit := do
  checkCanonical false addr
  set .rip addr

end Processor

end SourceDebugger.X86
