/-!
# Machine instructions

An instruction of the processor in 64 bit mode, with its operands spelled out: every width, every
address and every immediate is as the instruction uses it.
-/

namespace SourceDebugger.X86

/-- The width of an operand in a general register. -/
inductive Width where
  | byte | word | dword | qword
deriving DecidableEq, Inhabited

namespace Width

/-- The number of bytes of a width. -/
def bytes : Width → Nat
  | byte => 1
  | word => 2
  | dword => 4
  | qword => 8

/-- The number of bits of a width. -/
def bits (w : Width) : Nat := 8 * w.bytes

/-- The number of values of a width. -/
def size (w : Width) : Nat := 1 <<< w.bits

/-- The low bits of a word that a width keeps. -/
def truncate (w : Width) (v : UInt64) : UInt64 :=
  match w with
  | byte => v &&& 0xff
  | word => v &&& 0xffff
  | dword => v &&& 0xffffffff
  | qword => v

/-- A value of this width as a word, with its highest bit repeated. -/
def signExtend (w : Width) (v : UInt64) : UInt64 :=
  match w with
  | byte => v.toUInt8.toInt8.toInt64.toUInt64
  | word => v.toUInt16.toInt16.toInt64.toUInt64
  | dword => v.toUInt32.toInt32.toInt64.toUInt64
  | qword => v

end Width

/-- The size of an operand in memory, as far as an instruction has one. -/
inductive MemorySize where
  | unsized | byte | word | dword | qword | fword | tword | oword | yword | zword
deriving DecidableEq, Inhabited

namespace MemorySize

/-- The number of bytes of an operand in memory, and zero if it has no size. -/
def bytes : MemorySize → Nat
  | unsized => 0
  | byte => 1
  | word => 2
  | dword => 4
  | qword => 8
  | fword => 6
  | tword => 10
  | oword => 16
  | yword => 32
  | zword => 64

/-- The size of so many bytes, where the number is a power of two. -/
def ofBytes (n : Nat) : MemorySize :=
  ([byte, word, dword, qword, oword, yword, zword].find? (·.bytes = n)).getD unsized

end MemorySize

/-- The size in memory of an operand that could also be in a register. -/
def Width.memorySize : Width → MemorySize
  | .byte => .byte
  | .word => .word
  | .dword => .dword
  | .qword => .qword

/-- A register that an instruction names. -/
inductive RegisterName where
  /-- A general register, or the low part of one. -/
  | general (width : Width) (number : Nat)
  /-- The second byte of one of the first four general registers. -/
  | highByte (number : Nat)
  /-- A segment register. -/
  | segment (number : Nat)
  /-- A control register. -/
  | control (number : Nat)
  /-- A debug register. -/
  | debug (number : Nat)
  /-- A register for 64 bit vectors. -/
  | vector64 (number : Nat)
  /-- A register for 128 bit vectors. -/
  | vector128 (number : Nat)
  /-- A register for 256 bit vectors. -/
  | vector256 (number : Nat)
  /-- A register for 512 bit vectors. -/
  | vector512 (number : Nat)
  /-- A register whose bits select elements of vectors. -/
  | mask (number : Nat)
  /-- A register for a tile of a matrix. -/
  | tile (number : Nat)
  /-- A place of the floating point stack. -/
  | float (number : Nat)
deriving DecidableEq, Inhabited

/-- The register for vectors of so many bytes; a register of 128 bits also holds shorter ones. -/
def RegisterName.vector (bytes number : Nat) : RegisterName :=
  if bytes = 64 then vector512 number
  else if bytes = 32 then vector256 number
  else vector128 number

/-- A memory operand: the sum of its parts is the address. -/
structure MemoryOperand where
  /-- The segment register whose base is added, if it is one that has a base. -/
  segment : Option Nat
  /-- The width in which the address is computed. -/
  addressWidth : Width
  /-- The number of the base register. -/
  base : Option Nat
  /-- The number of the index register. -/
  index : Option Nat
  /-- The factor of the index register. -/
  scale : Nat
  /-- The constant part, extended to a word. For an operand relative to the next instruction it is
  the address itself. -/
  displacement : UInt64
  /-- Whether the operand was given relative to the next instruction. -/
  relative : Bool
deriving DecidableEq, Inhabited

/-- How far a branch can reach, if that is part of its name. -/
inductive BranchReach where
  | unmarked | short | near
deriving DecidableEq, Inhabited

/-- How an instruction rounds that does not round as the control register says. -/
inductive Rounding where
  | nearest | down | up | zero
  /-- As the control register says, but without exceptions. -/
  | quiet
deriving DecidableEq, Inhabited

/-- An operand of an instruction. -/
inductive Operand where
  /-- A register. -/
  | register (name : RegisterName)
  /-- Memory of some size. -/
  | memory (size : MemorySize) (operand : MemoryOperand)
  /-- An element in memory that is taken as often as the vector has elements. -/
  | broadcast (size : MemorySize) (operand : MemoryOperand) (count : Nat)
  /-- Elements in memory, each at an address of its own: the index is a register for vectors of so
  many bytes. -/
  | gathered (size : MemorySize) (indexBytes : Nat) (operand : MemoryOperand)
  /-- How the result is rounded. -/
  | rounding (mode : Rounding)
  /-- A constant, cut to the width in which it is used. -/
  | immediate (value : UInt64)
  /-- The address to which a branch goes. -/
  | target (reach : BranchReach) (address : UInt64)
deriving DecidableEq, Inhabited

/-- Where control goes after an instruction. -/
inductive Flow where
  /-- To the next instruction, or wherever a branch leads. -/
  | plain
  /-- Into other code that comes back to the next instruction. -/
  | call
deriving DecidableEq, Inhabited

/-- The selection of the elements of a result. -/
structure ElementMask where
  /-- The number of the register that selects them. -/
  register : Nat
  /-- Whether the others become zero; otherwise they are kept. -/
  zeroing : Bool
deriving DecidableEq, Inhabited

/-- A decoded instruction. -/
structure Instruction where
  /-- Its address. -/
  address : UInt64
  /-- How many bytes it takes. -/
  length : Nat
  /-- The prefixes that are written before its name. -/
  prefixes : List String
  /-- Its name. -/
  mnemonic : String
  /-- Its operands, in the order in which they are written. -/
  operands : List Operand
  /-- Which elements of the first operand are written, if not all. -/
  elements : Option ElementMask
  /-- Where control goes afterwards. -/
  flow : Flow
deriving DecidableEq, Inhabited

end SourceDebugger.X86
