import SourceDebugger.X86.Instruction

/-!
# Instruction forms

An opcode stands for a form: a name and a description of each operand. Which form it is can depend
on the prefixes and on the byte behind the opcode, and how wide an operand is can depend on the
prefixes. The opcode tables are lists of opcodes with a rule that selects the form.
-/

namespace SourceDebugger.X86

/-- How the width of an operand follows from the prefixes. -/
inductive Size where
  /-- Always the same width. -/
  | fixed (width : Width)
  /-- The operand width of the instruction: 16, 32 or 64 bits. -/
  | full
  /-- 64 bits if the instruction is that wide, otherwise 32. -/
  | double
deriving DecidableEq, Inhabited

/-- How many bytes a vector operand has. -/
inductive Span where
  /-- What is left of the vector length after it was halved so often. -/
  | part (halvings : Nat)
  /-- So many bytes, whatever the vector length is. -/
  | bytes (count : Nat)
deriving DecidableEq, Inhabited

namespace Span

/-- The whole vector. -/
abbrev full : Span := .part 0
/-- Half of the vector. -/
abbrev half : Span := .part 1
/-- A quarter of the vector. -/
abbrev quarter : Span := .part 2

/-- The number of bytes, where vectors of 128 bits are the shortest ones and each further length
doubles them. -/
def count (s : Span) (length : Nat) : Nat :=
  match s with
  | part halvings => (16 <<< length) >>> halvings
  | bytes n => n

/-- Whether the number of bytes depends on the vector length. -/
def isPart : Span → Bool
  | part _ => true
  | bytes _ => false

end Span

/-- The description of an operand. -/
inductive OperandForm where
  /-- A general register or memory, as the byte behind the opcode says. -/
  | rm (size : Size)
  /-- A general register of one width or memory of another size. -/
  | rmOr (size : Size) (memory : MemorySize)
  /-- The general register in the middle field of the byte behind the opcode. -/
  | reg (size : Size)
  /-- Memory, never a register. -/
  | mem (memory : MemorySize)
  /-- Memory of the size of an operand. -/
  | memSized (size : Size)
  /-- A general register, never memory. -/
  | rmRegister (size : Size)
  /-- The general register in the low bits of the opcode. -/
  | opcodeRegister (size : Size)
  /-- The first general register. -/
  | accumulator (size : Size)
  /-- A register that the form names itself. -/
  | named (name : RegisterName)
  /-- A byte. -/
  | imm8
  /-- A byte that is extended with its sign. -/
  | imm8Signed (size : Size)
  /-- Two bytes. -/
  | imm16
  /-- Up to four bytes, extended with their sign. -/
  | imm32 (size : Size)
  /-- As many bytes as the operand is wide. -/
  | immFull (size : Size)
  /-- The constant one. -/
  | one
  /-- A branch distance of one byte. -/
  | rel8 (reach : BranchReach)
  /-- A branch distance of four bytes. -/
  | rel32 (reach : BranchReach)
  /-- A branch distance of two or four bytes, as the operands are wide. -/
  | relFull
  /-- Memory at an address of full width. -/
  | absolute (size : Size)
  /-- The segment register in the middle field. -/
  | segmentReg
  /-- The control register in the middle field. -/
  | controlReg
  /-- The debug register in the middle field. -/
  | debugReg
  /-- The 128 bit vector register in the middle field. -/
  | xmm
  /-- A 128 bit vector register or memory. -/
  | xmmRm (memory : MemorySize)
  /-- A 128 bit vector register, never memory. -/
  | xmmRegister
  /-- The 64 bit vector register in the middle field. -/
  | mmx
  /-- A 64 bit vector register or memory. -/
  | mmxRm (memory : MemorySize)
  /-- A 64 bit vector register, never memory. -/
  | mmxRegister
  /-- The place of the floating point stack in the low field. -/
  | stack
  /-- The vector register in the middle field. -/
  | vector (span : Span)
  /-- A vector register or memory. -/
  | vectorRm (register memory : Span)
  /-- A vector register, never memory. -/
  | vectorRegister (span : Span)
  /-- Memory for a vector, never a register. -/
  | vectorMemory (span : Span)
  /-- The vector register that the vector prefix names. -/
  | vectorThird (span : Span)
  /-- The vector register in the upper half of a byte behind the operands. -/
  | vectorFourth (span : Span)
  /-- The same, where the lower half of the byte is an operand too. -/
  | vectorShared (span : Span)
  /-- The lower half of a byte. -/
  | imm4
  /-- The general register that the vector prefix names. -/
  | generalThird (size : Size)
  /-- The mask register in the middle field. -/
  | mask
  /-- A mask register or memory. -/
  | maskRm (memory : MemorySize)
  /-- A mask register, never memory. -/
  | maskRegister
  /-- The mask register that the vector prefix names. -/
  | maskThird
  /-- Elements in memory whose addresses are in a vector register. -/
  | gathered (element : MemorySize) (index : Span)
  /-- The tile in the middle field. -/
  | tile
  /-- The tile in the low field. -/
  | tileRegister
  /-- The tile that the vector prefix names. -/
  | tileThird
  /-- Memory for a tile, which needs an index register for the distance of the rows. -/
  | tileMemory
deriving DecidableEq, Inhabited

namespace OperandForm

/-- Whether the operand is described by the byte behind the opcode. -/
def usesModeByte : OperandForm → Bool
  | rm _ | rmOr _ _ | reg _ | mem _ | memSized _ | rmRegister _ | segmentReg | controlReg
  | debugReg | xmm | xmmRm _ | xmmRegister | mmx | mmxRm _ | mmxRegister | stack | vector _
  | vectorRm _ _ | vectorRegister _ | vectorMemory _ | mask | maskRm _ | maskRegister
  | gathered _ _ | tile | tileRegister | tileMemory => true
  | opcodeRegister _ | accumulator _ | named _ | imm8 | imm8Signed _ | imm16 | imm32 _ | immFull _
  | one | rel8 _ | rel32 _ | relFull | absolute _ | vectorThird _ | vectorFourth _
  | vectorShared _ | imm4 | generalThird _ | maskThird | tileThird => false

/-- Whether the operand is named by the vector prefix. -/
def usesThird : OperandForm → Bool
  | vectorThird _ | generalThird _ | maskThird | tileThird => true
  | _ => false

/-- Whether the operand is made of elements that lie apart in memory. -/
def isGathered : OperandForm → Bool
  | gathered _ _ => true
  | _ => false

/-- Whether it depends on the vector length how many bytes the operand has. -/
def usesLength : OperandForm → Bool
  | vector s | vectorRegister s | vectorMemory s | vectorThird s | vectorFourth s | vectorShared s
  | gathered _ s => s.isPart
  | vectorRm register memory => register.isPart || memory.isPart
  | _ => false

/-- Whether the operand is a constant. -/
def isConstant : OperandForm → Bool
  | imm8 | imm4 => true
  | _ => false

end OperandForm

/-- Which repetition prefixes an instruction shows. -/
inductive Repetition where
  /-- None. -/
  | never
  /-- A string instruction without a comparison. -/
  | string
  /-- A string instruction that compares. -/
  | comparing
  /-- A return. -/
  | ret
  /-- A branch. -/
  | branch
deriving DecidableEq, Inhabited

/-- Which elements of a result a mask register can select. -/
inductive Masking where
  /-- No mask is possible. -/
  | never
  /-- Those that are not selected are kept. -/
  | keeping
  /-- Those that are not selected are kept or become zero. -/
  | zeroing
  /-- There has to be a mask, and those that are not selected are kept. -/
  | required
deriving DecidableEq, Inhabited

/-- Whether an instruction can say how it rounds, and behind how many operands it does. -/
inductive RoundingChoice where
  | never
  /-- It can only suppress exceptions. -/
  | quiet (place : Nat)
  /-- It can name a way of rounding. -/
  | chosen (place : Nat)
deriving DecidableEq, Inhabited

/-- Which registers of an instruction must not be the same. -/
inductive Distinctness where
  /-- All of them may be. -/
  | free
  /-- The first one and any other. -/
  | first
  /-- Any two of them. -/
  | all
deriving DecidableEq, Inhabited

/-- What a vector prefix can choose besides the operands. -/
structure VectorChoices where
  /-- The mask of the first operand. -/
  masking : Masking := .never
  /-- The size of an element in memory that can be taken for all elements. -/
  broadcast : Option MemorySize := none
  /-- The rounding. -/
  rounding : RoundingChoice := .never
  /-- The unit of displacements of one byte, if it is not the size of the memory operand. -/
  unit : Option Nat := none
  /-- The registers that must not be the same. -/
  distinct : Distinctness := .free

/-- What the constant at the end of an instruction stands for. -/
inductive ConstantRole where
  /-- An operand. -/
  | operand
  /-- An operand, but some of its values are part of the name. -/
  | alias (name : Nat → Option String)
  /-- The opcode. -/
  | opcode (name : Nat → Option String)

/-- What an opcode stands for. -/
structure Form where
  /-- The name, which can depend on the operand width. -/
  mnemonic : Width → String
  /-- The operands, in the order in which they are written. -/
  operands : List OperandForm
  /-- Whether a byte follows the opcode that is not described by an operand. -/
  modeByte : Bool := false
  /-- Whether the byte behind the opcode names a register even if it looks like memory. -/
  ignoresMode : Bool := false
  /-- Whether the operand width is 64 bits without any prefix. -/
  wide : Bool := false
  /-- Whether the instruction can be locked when its first operand is in memory. -/
  lockable : Bool := false
  /-- Which repetition prefixes it shows. -/
  repetition : Repetition := .never
  /-- Where control goes afterwards. -/
  flow : Flow := .plain
  /-- What the constant at its end stands for. -/
  constant : ConstantRole := .operand
  /-- What a vector prefix can choose. -/
  vector : VectorChoices := {}

namespace Form

/-- A form with a fixed name and nothing special. -/
def plain (name : String) (operands : List OperandForm) : Form :=
  { mnemonic := fun _ => name, operands }

/-- A form whose name depends on the operand width. -/
def byWidth (word dword qword : String) (operands : List OperandForm) : Form :=
  { plain word operands with
    mnemonic := fun
      | .byte | .word => word
      | .dword => dword
      | .qword => qword }

/-- The form without operands whose opcode takes a second byte. -/
def twoByte (name : String) : Form := { plain name [] with modeByte := true }

/-- The form that is 64 bits wide without any prefix. -/
def asWide (f : Form) : Form := { f with wide := true }

/-- The form that can be locked. -/
def asLockable (f : Form) : Form := { f with lockable := true }

/-- The form with repetition prefixes. -/
def repeated (f : Form) (r : Repetition) : Form := { f with repetition := r }

/-- The form that comes back to the next instruction. -/
def asCall (f : Form) : Form := { f with flow := .call }

/-- The form that takes the byte behind the opcode for a register. -/
def asRegisters (f : Form) : Form := { f with ignoresMode := true }

/-- The form whose constant can be part of the name. -/
def aliased (f : Form) (names : Nat → Option String) : Form :=
  { f with constant := .alias names }

/-- The form that has other choices with a vector prefix. -/
def choosing (f : Form) (choose : VectorChoices → VectorChoices) : Form :=
  { f with vector := choose f.vector }

/-- The form whose first operand can have a mask, with zeros or not. -/
def masked (f : Form) : Form := f.choosing ({ · with masking := .zeroing })

/-- The form whose first operand can have a mask, but not with zeros. -/
def kept (f : Form) : Form := f.choosing ({ · with masking := .keeping })

/-- The form whose first operand has a mask. -/
def selecting (f : Form) : Form := f.choosing ({ · with masking := .required })

/-- The form that can take one element in memory for all. -/
def broadcasting (f : Form) (element : MemorySize) : Form :=
  f.choosing ({ · with broadcast := some element })

/-- The form with another unit of displacements of one byte. -/
def inUnits (f : Form) (unit : Nat) : Form := f.choosing ({ · with unit := some unit })

/-- The form with registers that must not be the same. -/
def distinctly (f : Form) (d : Distinctness) : Form := f.choosing ({ · with distinct := d })

/-- The number of operands before the constants. -/
def valueCount (f : Form) : Nat := f.operands.countP (!·.isConstant)

/-- The form that can name a way of rounding. -/
def rounding (f : Form) : Form := f.choosing ({ · with rounding := .chosen f.valueCount })

/-- The form that can suppress exceptions. -/
def quiet (f : Form) : Form := f.choosing ({ · with rounding := .quiet f.valueCount })

/-- Whether a byte that describes operands follows the opcode. -/
def hasModeByte (f : Form) : Bool := f.modeByte || f.operands.any (·.usesModeByte)

end Form

/-- What selects the form of an opcode besides the opcode. -/
structure Selector where
  /-- Whether the prefix that makes operands 16 bits wide is there. -/
  narrow : Bool
  /-- Whether the operands are 64 bits wide. -/
  wide : Bool
  /-- The last repetition prefix, if there is one. -/
  repetition : Option UInt8
  /-- Whether the register fields are extended. -/
  extended : Bool
  /-- The byte behind the opcode, if there is one. -/
  modeByte : Option UInt8
  /-- Whether the vector prefix is the one that can choose masks and rounding. -/
  extensive : Bool
  /-- The vector length: how often 128 bits are doubled. -/
  length : Nat

/-- A rule that selects the form of an opcode. -/
abbrev Rule := Selector → Option Form

namespace Rule

/-- Always the same form. -/
def always (f : Form) : Rule := fun _ => some f

/-- By the middle field of the byte behind the opcode. -/
def group (forms : List (Option Form)) : Rule := fun s => do
  let b ← s.modeByte
  (← forms[((b >>> 3) &&& 7).toNat]?)

/-- By whether the byte behind the opcode describes memory or a register. -/
def memoryOr (memory register : Rule) : Rule := fun s => do
  let b ← s.modeByte
  if b < 0xc0 then memory s else register s

/-- By the low field of the byte behind the opcode. -/
def low (forms : List (Option Form)) : Rule := fun s => do
  let b ← s.modeByte
  (← forms[(b &&& 7).toNat]?)

/-- By the middle field, where each value has a rule of its own. -/
def fields (rules : List Rule) : Rule := fun s => do
  let b ← s.modeByte
  (← rules[((b >>> 3) &&& 7).toNat]?) s

/-- By the first rule, and by the second one where it has no form. -/
def orElse (first second : Rule) : Rule := fun s => first s <|> second s

/-- Only with this byte behind the opcode. -/
def exact (byte : UInt8) (rule : Rule) : Rule := fun s =>
  if s.modeByte = some byte then rule s else none

/-- No form. -/
def invalid : Rule := fun _ => none

/-- By the prefix that is part of the opcode: none, the one for 16 bits, or one of the repetition
prefixes, which win over the former. -/
def byPrefix (bare narrow rep repne : Option Form) : Rule := fun s =>
  match s.repetition with
  | some 0xf3 => rep
  | some _ => repne
  | none => if s.narrow then narrow else bare

/-- The same, where each prefix has a rule of its own. -/
def prefixed (bare narrow rep repne : Rule) : Rule := fun s =>
  match s.repetition with
  | some 0xf3 => rep s
  | some _ => repne s
  | none => if s.narrow then narrow s else bare s

/-- By whether the operands are 64 bits wide. -/
def byWide (double quad : Rule) : Rule := fun s => if s.wide then quad s else double s

/-- By the vector length. -/
def byLength (rules : List Rule) : Rule := fun s => do (← rules[s.length]?) s

/-- By the vector prefix: the usual one, or the one that can choose masks and rounding. -/
def byEncoding (usual extensive : Rule) : Rule := fun s =>
  if s.extensive then extensive s else usual s

end Rule

/-- An opcode table: the opcodes that have a rule, each with it. -/
abbrev OpcodeTable := List (Nat × Rule)

/-- The rules of a table by opcode; the first entry of an opcode counts. -/
def OpcodeTable.toArray (table : OpcodeTable) : Array Rule :=
  table.foldr (fun (op, rule) rules => rules.setIfInBounds op rule)
    (Array.replicate 256 Rule.invalid)

/-- Shorthand for the sizes of operands. -/
abbrev Size.byte : Size := .fixed .byte
abbrev Size.word : Size := .fixed .word
abbrev Size.dword : Size := .fixed .dword
abbrev Size.qword : Size := .fixed .qword

/-- The endings of the names of conditional instructions, by condition. -/
def conditions : List String :=
  ["o", "no", "b", "ae", "e", "ne", "be", "a", "s", "ns", "p", "np", "l", "ge", "le", "g"]

/-- The names of the comparisons of real numbers. -/
def comparisons : List String :=
  ["eq", "lt", "le", "unord", "neq", "nlt", "nle", "ord", "eq_uq", "nge", "ngt", "false", "neq_oq",
    "ge", "gt", "true", "eq_os", "lt_oq", "le_oq", "unord_s", "neq_us", "nlt_uq", "nle_uq",
    "ord_s", "eq_us", "nge_uq", "ngt_uq", "false_os", "neq_os", "ge_oq", "gt_oq", "true_us"]

/-- The name of an operation that has the name of a comparison in it. -/
def comparisonName (stem ending : String) (names : List String) (n : Nat) : Option String :=
  names[n]?.map (stem ++ · ++ ending)

/-- The names of the products without carries, by the halves that are multiplied. -/
def halvesName (stem : String) : Nat → Option String
  | 0x00 => some (stem ++ "lqlqdq")
  | 0x01 => some (stem ++ "hqlqdq")
  | 0x10 => some (stem ++ "lqhqdq")
  | 0x11 => some (stem ++ "hqhqdq")
  | _ => none

end SourceDebugger.X86
