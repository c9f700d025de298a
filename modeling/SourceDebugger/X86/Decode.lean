import SourceDebugger.Bytes.Reader
import SourceDebugger.X86.Opcode.Float
import SourceDebugger.X86.Opcode.ThreeByte
import SourceDebugger.X86.Opcode.VectorHalf
import SourceDebugger.X86.Opcode.Xop

/-!
# Decoding of instructions

An instruction is a row of prefixes, an opcode of up to three bytes, the bytes that describe its
operands, and its constants: at most fifteen bytes in all. A vector prefix stands for the last of
the other prefixes and for the first bytes of the opcode; besides it names one more register, the
vector length, and what a form lets it choose.
-/

namespace SourceDebugger.X86

/-- The longest instruction. -/
def maxInstructionLength : Nat := 15

/-- What only a vector prefix can say. -/
structure VectorFields where
  /-- Whether it is the prefix that can choose masks and rounding. -/
  extensive : Bool
  /-- The low four bits of the register that it names. -/
  third : Nat
  /-- How often the shortest vector length is doubled. -/
  length : Nat
  /-- The way of rounding, which has the same bits as the vector length. -/
  rounding : Nat
  /-- Whether one element is taken for all or a rounding is chosen. -/
  modified : Bool
  /-- The mask register, or zero if there is no mask. -/
  mask : Nat
  /-- Whether the elements without a mask bit become zero. -/
  zeroing : Bool
  /-- What is added to the register in the middle field. -/
  regHigh : Nat
  /-- What is added to a vector register in the low field. -/
  baseHigh : Nat
  /-- What is added to the register that the prefix names, or to a vector of indices. -/
  thirdHigh : Nat
deriving Inhabited

/-- What is said without a vector prefix. -/
def VectorFields.none : VectorFields := ⟨false, 0, 0, 0, false, 0, false, 0, 0, 0⟩

/-- The prefixes of an instruction. -/
structure Prefixes where
  /-- The segment register that the last segment prefix names. -/
  segment : Option Nat
  /-- Whether operands are 16 bits wide. -/
  narrow : Bool
  /-- Whether addresses are 32 bits wide. -/
  narrowAddress : Bool
  /-- Whether the access to memory is locked. -/
  lock : Bool
  /-- The last repetition prefix. -/
  repetition : Option UInt8
  /-- The low four bits of the extension prefix, if it stands right before the opcode. -/
  extension : Option UInt8
  /-- What a vector prefix says. -/
  vector : VectorFields

namespace Prefixes

/-- No prefixes. -/
def none : Prefixes := ⟨.none, false, false, false, .none, .none, .none⟩

/-- What one more prefix byte adds. An extension prefix that is followed by another prefix has no
effect. -/
def add? (p : Prefixes) (b : UInt8) : Option Prefixes :=
  let p := { p with extension := .none }
  match b with
  -- the segment registers without an effect are prefixes all the same
  | 0x26 | 0x2e | 0x36 | 0x3e => some p
  | 0x64 => some { p with segment := some 4 }
  | 0x65 => some { p with segment := some 5 }
  | 0x66 => some { p with narrow := true }
  | 0x67 => some { p with narrowAddress := true }
  | 0xf0 => some { p with lock := true }
  | 0xf2 | 0xf3 => some { p with repetition := some b }
  | b => if b &&& 0xf0 = 0x40 then some { p with extension := some (b &&& 0x0f) } else .none

/-- The prefixes at the start of `bytes`, and the bytes behind them. -/
def take (p : Prefixes) : List UInt8 → Prefixes × List UInt8
  | [] => (p, [])
  | b :: rest =>
    match p.add? b with
    | some p => take p rest
    | .none => (p, b :: rest)

/-- One of the bits of the extension prefix. -/
def extensionBit (p : Prefixes) (bit : UInt8) : Nat :=
  match p.extension with
  | some e => if e &&& bit = 0 then 0 else 1
  | .none => 0

/-- Whether operands are 64 bits wide. -/
def wide (p : Prefixes) : Bool := p.extensionBit 8 = 1

/-- The extension of the middle field of the byte behind the opcode. -/
def regExtension (p : Prefixes) : Nat := 8 * p.extensionBit 4

/-- The extension of an index register. -/
def indexExtension (p : Prefixes) : Nat := 8 * p.extensionBit 2

/-- The extension of a base register, or of the register in the low field. -/
def baseExtension (p : Prefixes) : Nat := 8 * p.extensionBit 1

/-- The vector register that the middle field names. -/
def vectorReg (p : Prefixes) (number : Nat) : Nat := number + p.regExtension + p.vector.regHigh

/-- The vector register that the low field names. -/
def vectorBase (p : Prefixes) (number : Nat) : Nat := number + p.baseExtension + p.vector.baseHigh

/-- Whether a vector prefix may follow: it stands for the prefixes that are part of the opcode. -/
def allowVector (p : Prefixes) : Bool := !p.narrow && p.repetition.isNone && p.extension.isNone

/-- The prefixes with a vector prefix, whose low two bits stand for the one that is part of the
opcode. -/
def withVector (p : Prefixes) (extension implied : UInt8) (fields : VectorFields) : Prefixes :=
  { p with
    narrow := implied &&& 3 = 1
    repetition := [.none, .none, some 0xf3, some 0xf2][(implied &&& 3).toNat]?.join
    extension := some extension
    vector := fields }

/-- The operand width of a form. -/
def operandWidth (p : Prefixes) (wideForm : Bool) : Width :=
  if p.wide then .qword
  else if p.narrow then .word
  else if wideForm then .qword
  else .dword

end Prefixes

/-- The width that an operand has under an operand width. -/
def Size.width (s : Size) (operandWidth : Width) : Width :=
  match s with
  | .fixed w => w
  | .full => operandWidth
  | .double => if operandWidth = .qword then .qword else .dword

/-- A general register; with an extension prefix the byte registers 4 to 7 are low parts. -/
def Prefixes.general (p : Prefixes) (width : Width) (number : Nat) : RegisterName :=
  if width = .byte ∧ p.extension.isNone ∧ 4 ≤ number ∧ number < 8 then .highByte (number - 4)
  else .general width number

/-- What the byte behind the opcode and the bytes that belong to it describe. -/
structure ModeByte where
  /-- The middle field, not extended. -/
  reg : Nat
  /-- The low field, not extended. -/
  low : Nat
  /-- The memory operand, unless a register is described. -/
  memory : Option MemoryOperand

/-- Takes a little endian constant of `count` bytes and extends it with its sign. -/
def takeSigned (count : Nat) : StateT (List UInt8) Option UInt64 := fun bytes =>
  if bytes.length < count then none
  else
    let raw := bytes.take count
    let value := UInt64.ofNat (littleEndian raw)
    let width : Width := if count = 1 then .byte else if count = 2 then .word
      else if count = 4 then .dword else .qword
    some (width.signExtend value, bytes.drop count)

/-- Takes one byte. -/
def takeByte : StateT (List UInt8) Option UInt8
  | [] => none
  | b :: rest => some (b, rest)

/-- The next byte, if there is one, which is not taken. -/
def peekByte : StateT (List UInt8) Option (Option UInt8) := fun bytes => some (bytes.head?, bytes)

/-- What is said about memory besides its address. -/
structure MemoryReading where
  /-- The unit of displacements of one byte. -/
  unit : UInt64
  /-- Whether the index is a vector register. -/
  gathered : Bool
  /-- Whether there is no memory, whatever the byte behind the opcode says. -/
  registers : Bool

/-- Takes a displacement of one byte that counts units. -/
def takeUnits (unit : UInt64) : StateT (List UInt8) Option UInt64 := do
  return (← takeSigned 1) * unit

namespace ModeByte

/-- Takes the scale, index and base of a memory operand. The base 5 without a displacement stands
for a displacement of four bytes and no base. -/
def takeScaled (p : Prefixes) (r : MemoryReading) (mode : UInt8) :
    StateT (List UInt8) Option MemoryOperand := do
  let b ← takeByte
  let index := ((b >>> 3) &&& 7).toNat + p.indexExtension
  let low := (b &&& 7).toNat
  -- where no displacement would follow, the base 5 stands for none
  let noBase := low = 5 ∧ mode = 0
  let displacement ←
    if noBase then takeSigned 4
    else if mode = 1 then takeUnits r.unit
    else if mode = 2 then takeSigned 4
    else pure 0
  return {
    segment := p.segment
    addressWidth := if p.narrowAddress then .dword else .qword
    base := if noBase then none else some (low + p.baseExtension)
    index :=
      -- a vector register as an index has no number that stands for none
      if r.gathered then some (index + p.vector.thirdHigh)
      else if index = 4 then none else some index
    scale := 1 <<< (b >>> 6).toNat
    displacement
    relative := false }

/-- Takes the byte behind the opcode and what belongs to it. -/
def take (p : Prefixes) (r : MemoryReading) : StateT (List UInt8) Option ModeByte := do
  let b ← takeByte
  let mode := b >>> 6
  let reg := ((b >>> 3) &&& 7).toNat
  let low := (b &&& 7).toNat
  -- a mode byte of registers has no memory behind it
  if mode = 3 ∨ r.registers then return ⟨reg, low, none⟩
  -- the low field 4 announces the scale, the index and the base
  if low = 4 then return ⟨reg, low, some (← takeScaled p r mode)⟩
  -- where no displacement would follow, the low field 5 is relative to the next instruction
  let relative := low = 5 ∧ mode = 0
  let displacement ←
    if relative then takeSigned 4
    else if mode = 1 then takeUnits r.unit
    else if mode = 2 then takeSigned 4
    else pure 0
  return ⟨reg, low, some {
    segment := p.segment
    addressWidth := if p.narrowAddress then .dword else .qword
    base := if relative then none else some (low + p.baseExtension)
    index := none
    scale := 1
    displacement
    relative }⟩

/-- Takes the byte behind the opcode if the form has one. -/
def takeFor (f : Form) (p : Prefixes) (r : MemoryReading) :
    StateT (List UInt8) Option (Option ModeByte) := do
  if f.hasModeByte then return some (← take p r)
  else return none

end ModeByte

/-- What the operands of an instruction are made of. -/
structure OperandContext where
  /-- The prefixes. -/
  prefixes : Prefixes
  /-- The last byte of the opcode. -/
  opcode : UInt8
  /-- The operand width. -/
  width : Width
  /-- The byte behind the opcode, if the form has one. -/
  mode : Option ModeByte
  /-- The size of the element in memory that is taken for all, if one is. -/
  broadcast : Option MemorySize

namespace OperandContext

/-- A register operand in memory or in a register. -/
def rmOperand (c : OperandContext) (memory : MemorySize) (register : Nat → RegisterName) :
    Option Operand := do
  let mode ← c.mode
  match mode.memory with
  | some m => return .memory memory m
  | none => return .register (register mode.low)

/-- An operand that has to be a register. -/
def rmRegister (c : OperandContext) (register : Nat → RegisterName) : Option Operand := do
  let mode ← c.mode
  match mode.memory with
  | some _ => none
  | none => return .register (register mode.low)

/-- An operand that has to be in memory. -/
def rmMemory (c : OperandContext) (size : MemorySize) : Option Operand := do
  return .memory size (← (← c.mode).memory)

/-- The register that the middle field names. -/
def regOperand (c : OperandContext) (register : Nat → RegisterName) : Option Operand := do
  return .register (register (← c.mode).reg)

/-- An operand in memory or in a vector register. -/
def vectorOperand (c : OperandContext) (register memory : Span) : Option Operand := do
  let mode ← c.mode
  let v := c.prefixes.vector
  match mode.memory, c.broadcast with
  | some m, some e => return .broadcast e m (memory.count v.length / e.bytes)
  | some m, none => return .memory (.ofBytes (memory.count v.length)) m
  | none, _ =>
    return .register (.vector (register.count v.length) (c.prefixes.vectorBase mode.low))

/-- Elements in memory, which need an index. -/
def gatheredOperand (c : OperandContext) (element : MemorySize) (index : Span) :
    Option Operand := do
  let mode ← c.mode
  guard (mode.low = 4)
  return .gathered element (index.count c.prefixes.vector.length) (← mode.memory)

/-- A register of a kind of which there are only eight. -/
def oneOfEight (number : Nat) (register : Nat → RegisterName) : Option Operand :=
  if number < 8 then some (.register (register number)) else none

/-- A general register in the low field. -/
def lowGeneral (c : OperandContext) (size : Size) (number : Nat) : RegisterName :=
  c.prefixes.general (size.width c.width) (number + c.prefixes.baseExtension)

/-- Takes an operand of the form. A branch distance becomes an immediate operand here; its
target is known once the whole instruction is. -/
def takeOperand (c : OperandContext) (f : OperandForm) : StateT (List UInt8) Option Operand :=
  let p := c.prefixes
  match f with
  | .rm s => c.rmOperand (s.width c.width).memorySize (c.lowGeneral s)
  | .rmOr s m => c.rmOperand m (c.lowGeneral s)
  | .reg s => do
    -- there is no bit for the upper half of the general registers
    guard (p.vector.regHigh = 0)
    c.regOperand fun n => p.general (s.width c.width) (n + p.regExtension)
  | .mem m => c.rmMemory m
  | .memSized s => c.rmMemory (s.width c.width).memorySize
  | .rmRegister s => c.rmRegister (c.lowGeneral s)
  | .opcodeRegister s => return .register (c.lowGeneral s (c.opcode &&& 7).toNat)
  | .accumulator s => return .register (.general (s.width c.width) 0)
  | .named name => return .register name
  | .imm8 => do return .immediate (← takeByte).toUInt64
  | .imm8Signed s => do return .immediate ((s.width c.width).truncate (← takeSigned 1))
  | .imm16 => do return .immediate (Width.word.truncate (← takeSigned 2))
  | .imm32 s => do
    let width := s.width c.width
    return .immediate (width.truncate (← takeSigned (if width = .word then 2 else 4)))
  | .immFull s => do
    let width := s.width c.width
    return .immediate (width.truncate (← takeSigned width.bytes))
  | .one => return .immediate 1
  -- the distance is kept; the place of the next instruction is not known yet
  | .rel8 reach => do return .target reach (← takeSigned 1)
  | .rel32 reach => do return .target reach (← takeSigned 4)
  | .relFull => do return .target .unmarked (← takeSigned (if c.width = .word then 2 else 4))
  | .absolute s => do
    let address ← takeSigned (if p.narrowAddress then 4 else 8)
    return .memory (s.width c.width).memorySize {
      segment := p.segment
      addressWidth := if p.narrowAddress then .dword else .qword
      base := none
      index := none
      scale := 1
      displacement := if p.narrowAddress then Width.dword.truncate address else address
      relative := false }
  | .segmentReg => do
    let mode ← c.mode
    if mode.reg < 6 then return .register (.segment mode.reg) else failure
  | .controlReg => do
    let number := (← c.mode).reg + p.regExtension
    if [0, 2, 3, 4, 8].contains number then return .register (.control number) else failure
  | .debugReg => do oneOfEight ((← c.mode).reg + p.regExtension) .debug
  | .xmm => c.regOperand fun n => .vector128 (n + p.regExtension)
  | .xmmRm m => c.rmOperand m fun n => .vector128 (n + p.baseExtension)
  | .xmmRegister => c.rmRegister fun n => .vector128 (n + p.baseExtension)
  | .mmx => c.regOperand .vector64
  | .mmxRm m => c.rmOperand m .vector64
  | .mmxRegister => c.rmRegister .vector64
  | .stack => c.rmRegister .float
  | .vector span =>
    c.regOperand fun n => .vector (span.count p.vector.length) (p.vectorReg n)
  | .vectorRm register memory => c.vectorOperand register memory
  | .vectorRegister span =>
    c.rmRegister fun n => .vector (span.count p.vector.length) (p.vectorBase n)
  | .vectorMemory span => c.rmMemory (.ofBytes (span.count p.vector.length))
  | .vectorThird span =>
    return .register (.vector (span.count p.vector.length) (p.vector.third + p.vector.thirdHigh))
  | .vectorFourth span => do
    return .register (.vector (span.count p.vector.length) ((← takeByte) >>> 4).toNat)
  | .vectorShared span => do
    -- the byte is the immediate operand that follows, so it is left for it
    let b ← (← peekByte)
    return .register (.vector (span.count p.vector.length) (b >>> 4).toNat)
  | .imm4 => do return .immediate ((← takeByte) &&& 0x0f).toUInt64
  | .generalThird s => return .register (p.general (s.width c.width) p.vector.third)
  | .mask => do oneOfEight (p.vectorReg (← c.mode).reg) .mask
  | .maskRm m => c.rmOperand m .mask
  | .maskRegister => c.rmRegister .mask
  | .maskThird => oneOfEight p.vector.third .mask
  | .gathered element index => c.gatheredOperand element index
  | .tile => do oneOfEight ((← c.mode).reg + p.regExtension) .tile
  | .tileRegister => do
    guard (p.baseExtension = 0)
    c.rmRegister .tile
  | .tileThird => oneOfEight p.vector.third .tile
  | .tileMemory => do
    guard ((← c.mode).low = 4)
    c.rmMemory .unsized

end OperandContext

/-- The bytes that an operand takes in memory, if it is there. -/
def OperandForm.memoryBytes (width : Width) (length : Nat) : OperandForm → Nat
  | rm s => (s.width width).bytes
  | rmOr _ m | gathered m _ => m.bytes
  | vectorRm _ s | vectorMemory s => s.count length
  | _ => 0

/-- Whether a form lets a vector prefix choose what it chose. A register that no operand stands for
has to be the first one, and there are only three vector lengths. -/
def VectorFields.fits (v : VectorFields) (f : Form) (register : Bool) : Bool :=
  let named := f.operands.any (·.usesThird)
  let gathers := f.operands.any (·.isGathered)
  let masking := f.vector.masking
  (v.length < 3 || !f.operands.any (·.usesLength)) &&
    (named || v.third = 0) && (named || gathers || v.thirdHigh = 0) &&
    -- a mask that is not chosen is the one with the number 0
    (v.mask = 0 || masking ≠ .never) && (v.mask ≠ 0 || masking ≠ .required) &&
    (!v.zeroing || v.mask ≠ 0 && masking = .zeroing) &&
    -- the same bit means rounding among registers and broadcasting from memory
    (!v.modified || if register then f.vector.rounding ≠ .never else f.vector.broadcast.isSome)

/-- The choice of a vector prefix that is made with registers only takes the place of the vector
length, and makes vectors of 512 bits. -/
def VectorFields.settled (v : VectorFields) (register : Bool) : VectorFields :=
  if v.modified && register then { v with length := 2 } else v

/-- The number of a vector register or of a tile that an operand names. -/
def Operand.vectorNumber? : Operand → Option Nat
  | .register (.vector128 n) | .register (.vector256 n) | .register (.vector512 n)
  | .register (.tile n) => some n
  | .gathered _ _ m => m.index
  | _ => none

/-- Whether the registers of operands are as distinct as they have to be. -/
def Distinctness.holds (d : Distinctness) (operands : List Operand) : Bool :=
  match d, operands.filterMap (·.vectorNumber?) with
  | .free, _ | _, [] => true
  | .first, n :: ns => !ns.contains n
  | .all, ns => ns.Nodup

namespace Instruction

/-- Replaces distances from the next instruction by addresses. -/
def Operand.resolve (next : UInt64) : Operand → Operand
  | .target reach distance => .target reach (next + distance)
  | .memory size m => .memory size (absolute m)
  | .broadcast size m count => .broadcast size (absolute m) count
  | o => o
where
  /-- The memory operand with its address. -/
  absolute (m : MemoryOperand) : MemoryOperand :=
    if m.relative then { m with displacement := m.addressWidth.truncate (next + m.displacement) }
    else m

/-- The opcode tables as arrays. -/
def oneByteRules : Array Rule := (Opcode.oneByte ++ Opcode.float).toArray
/-- The opcodes behind the first escape byte. -/
def twoByteRules : Array Rule := Opcode.twoByte.toArray
/-- The opcodes behind the escape bytes `0f 38`. -/
def threeByte38Rules : Array Rule := Opcode.threeByte38.toArray
/-- The opcodes behind the escape bytes `0f 3a`. -/
def threeByte3aRules : Array Rule := Opcode.threeByte3a.toArray

/-- The opcodes behind a vector prefix, by the number of their table. -/
def vectorRules : List (Array Rule) :=
  [#[], Opcode.vectorTable.toArray, Opcode.vectorTable38.toArray,
    Opcode.vectorTable3a.toArray, #[],
    Opcode.halfTable5.toArray, Opcode.halfTable6.toArray, #[], Opcode.xopTable8.toArray,
    Opcode.xopTable9.toArray,
    Opcode.xopTableA.toArray]

/-- Takes the opcode behind a vector prefix. -/
def takeVectorOpcode (p : Prefixes) (table : Nat) :
    StateT (List UInt8) Option (Prefixes × Rule × UInt8) := do
  let b ← takeByte
  return (p, ← (← vectorRules[table]?)[b.toNat]?, b)

/-- Takes what follows the first byte of the short vector prefix. -/
def takeShortVector (p : Prefixes) : StateT (List UInt8) Option (Prefixes × Rule × UInt8) := do
  let b ← takeByte
  -- the fields are stored inverted, apart from the vector length and the implied prefix
  takeVectorOpcode (p.withVector ((~~~b >>> 5) &&& 4) b { VectorFields.none with
    third := ((~~~b >>> 3) &&& 0xf).toNat
    length := ((b >>> 2) &&& 1).toNat }) 1

/-- Takes what follows the first byte of the usual vector prefix, which has some of the tables. -/
def takeLongVector (p : Prefixes) (tables : List UInt8) :
    StateT (List UInt8) Option (Prefixes × Rule × UInt8) := do
  let a ← takeByte
  let b ← takeByte
  guard (tables.contains (a &&& 0x1f))
  takeVectorOpcode (p.withVector ((~~~a >>> 5) ||| ((b >>> 4) &&& 8)) b { VectorFields.none with
    third := ((~~~b >>> 3) &&& 0xf).toNat
    length := ((b >>> 2) &&& 1).toNat }) (a &&& 0x1f).toNat

/-- Takes what follows the first byte of the vector prefix that can choose masks and rounding. -/
def takeExtensiveVector (p : Prefixes) : StateT (List UInt8) Option (Prefixes × Rule × UInt8) := do
  let a ← takeByte
  let b ← takeByte
  let c ← takeByte
  -- one of the bits is always set
  guard ([1, 2, 3, 5, 6].contains (a &&& 0xf) ∧ b &&& 4 ≠ 0)
  takeVectorOpcode (p.withVector ((~~~a >>> 5) ||| ((b >>> 4) &&& 8)) b {
    extensive := true
    third := ((~~~b >>> 3) &&& 0xf).toNat
    length := ((c >>> 5) &&& 3).toNat
    rounding := ((c >>> 5) &&& 3).toNat
    modified := c &&& 0x10 ≠ 0
    mask := (c &&& 7).toNat
    zeroing := c &&& 0x80 ≠ 0
    regHigh := (~~~a &&& 0x10).toNat
    baseHigh := ((~~~a &&& 0x40) >>> 2).toNat
    thirdHigh := ((~~~c &&& 8) <<< 1).toNat }) (a &&& 7).toNat

/-- Takes the opcode: the prefixes together with a vector prefix, the rule it has, and its last
byte. Where the second byte of a `pop` would have to be zero, there can be a vector prefix. -/
def takeOpcode (p : Prefixes) : StateT (List UInt8) Option (Prefixes × Rule × UInt8) := do
  let b ← takeByte
  let next ← peekByte
  if b = 0xc5 then
    guard p.allowVector
    takeShortVector p
  else if b = 0xc4 then
    guard p.allowVector
    takeLongVector p [1, 2, 3]
  else if b = 0x62 then
    guard p.allowVector
    takeExtensiveVector p
  -- as a `pop`, it would have zeros in the bits that tell the tables apart
  else if b = 0x8f ∧ next.any (8 ≤ · &&& 0x1f) then
    guard p.allowVector
    takeLongVector p [8, 9, 10]
  else if b ≠ 0x0f then return (p, ← oneByteRules[b.toNat]?, b)
  else
    let b ← takeByte
    if b = 0x38 then
      let b ← takeByte
      return (p, ← threeByte38Rules[b.toNat]?, b)
    else if b = 0x3a then
      let b ← takeByte
      return (p, ← threeByte3aRules[b.toNat]?, b)
    else return (p, ← twoByteRules[b.toNat]?, b)

/-- The prefixes that are written before the name. -/
def shownPrefixes (p : Prefixes) (f : Form) : List String :=
  let locks := if p.lock then ["lock"] else []
  let elision : List String :=
    if p.lock then
      match p.repetition with
      | some 0xf2 => ["xacquire"]
      | some _ => ["xrelease"]
      | none => []
    else []
  let repetitions : List String :=
    match f.repetition, p.repetition with
    | _, none => []
    | .string, some 0xf3 => ["rep"]
    | .comparing, some 0xf3 => ["repe"]
    | .ret, some 0xf3 => ["rep"]
    | .string, some _ | .comparing, some _ => ["repne"]
    | .branch, some 0xf2 | .ret, some 0xf2 => ["bnd"]
    | _, _ => []
  let segments : List String :=
    match f.repetition, p.segment with
    | .string, some s | .comparing, some s => [if s = 4 then "fs" else "gs"]
    | _, _ => []
  segments ++ elision ++ locks ++ repetitions

/-- Whether the first operand of an instruction is in memory. -/
def writesMemory (operands : List Operand) : Bool :=
  match operands with
  | .memory _ _ :: _ => true
  | _ => false

/-- Takes all operands of a form. -/
def takeOperands (c : OperandContext) :
    List OperandForm → StateT (List UInt8) Option (List Operand)
  | [] => return []
  | f :: fs => do
    let operand ← c.takeOperand f
    return operand :: (← takeOperands c fs)

/-- The width of the operands, as far as the form lets the prefixes choose: branches ignore the
prefix for 16 bits. -/
def formWidth (p : Prefixes) (f : Form) : Width := p.operandWidth f.wide

/-- The way of rounding stands among the operands, if one is chosen. -/
def withRounding (v : VectorFields) (choice : RoundingChoice) (operands : List Operand) :
    List Operand :=
  match choice with
  | .never => operands
  | .quiet place => operands.insertIdx place (.rounding .quiet)
  | .chosen place =>
    operands.insertIdx place (.rounding
      ([Rounding.nearest, .down, .up, .zero][v.rounding]?.getD .quiet))

/-- The name of an instruction and its operands, of which the last one can be part of the name. -/
def named? (f : Form) (width : Width) (operands : List Operand) : Option (String × List Operand) :=
  match f.constant, operands.getLast? with
  | .operand, _ => some (f.mnemonic width, operands)
  | .alias name, some (.immediate n) =>
    match name n.toNat with
    | some name => some (name, operands.dropLast)
    | none => some (f.mnemonic width, operands)
  | .alias _, _ => some (f.mnemonic width, operands)
  | .opcode name, some (.immediate n) => (name n.toNat).map (·, operands.dropLast)
  | .opcode _, _ => none

/-- How the memory of a form is read. -/
def memoryReading (p : Prefixes) (f : Form) (width : Width) (broadcast : Option MemorySize) :
    MemoryReading :=
  -- displacements of one byte count the size of the operand in memory
  let bytes := f.vector.unit.getD (f.operands.foldl (· + ·.memoryBytes width p.vector.length) 0)
  { unit := if p.vector.extensive then UInt64.ofNat ((broadcast.map (·.bytes)).getD bytes) else 1
    gathered := f.operands.any (·.isGathered)
    registers := f.ignoresMode }

/-- Decodes the instruction at the start of `data`, which lies at `address`. There is none if the
data ends inside of it, if it would be longer than the limit, if its opcode has no form, if a vector
prefix chooses what the form does not have, or if it is locked and cannot be. -/
def decode? (data : List UInt8) (address : UInt64) : Option Instruction := do
  let available := data.take maxInstructionLength
  let (p, bytes) := Prefixes.none.take available
  -- a vector prefix stands for other prefixes, so these come back with the opcode
  let ((p, rule, opcode), bytes) ← takeOpcode p bytes
  let register := bytes.head?.any (0xc0 ≤ ·)
  -- among registers, the bits of the vector length choose the rounding
  let v := p.vector.settled register
  let p := { p with vector := v }
  let form ← rule {
    narrow := p.narrow
    wide := p.wide
    repetition := p.repetition
    extended := p.extensionBit 1 = 1
    modeByte := bytes.head?
    extensive := v.extensive
    length := v.length }
  guard (v.fits form register)
  let width := formWidth p form
  let broadcast := if v.modified then form.vector.broadcast else none
  let (mode, bytes) ← ModeByte.takeFor form p (memoryReading p form width broadcast) bytes
  let (operands, bytes) ← takeOperands ⟨p, opcode, width, mode, broadcast⟩ form.operands bytes
  guard (form.vector.distinct.holds operands ∧ ¬ (v.zeroing ∧ writesMemory operands))
  let length := available.length - bytes.length
  if p.lock ∧ ¬ (form.lockable ∧ writesMemory operands) then none
  else
    let next := address + UInt64.ofNat length
    let rounding := if v.modified ∧ register then form.vector.rounding else .never
    let (mnemonic, operands) ← named? form width (withRounding v rounding operands)
    some {
      address, length
      prefixes := shownPrefixes p form
      mnemonic
      operands := operands.map (Operand.resolve next)
      elements := if v.mask = 0 then none else some ⟨v.mask, v.zeroing⟩
      flow := form.flow }

end Instruction

end SourceDebugger.X86
