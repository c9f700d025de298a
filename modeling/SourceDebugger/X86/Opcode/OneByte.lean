import SourceDebugger.X86.Form

/-!
# Opcodes of one byte
-/

namespace SourceDebugger.X86.Opcode

open OperandForm Form Rule

/-- The six forms of an arithmetic operation with two operands, from opcode `start` on. -/
def arithmetic (start : Nat) (name : String) (lockable : Bool) : OpcodeTable :=
  let store (operands : List OperandForm) : Form :=
    { plain name operands with lockable := lockable }
  [(start, always (store [rm .byte, reg .byte])),
   (start + 1, always (store [rm .full, reg .full])),
   (start + 2, always (plain name [reg .byte, rm .byte])),
   (start + 3, always (plain name [reg .full, rm .full])),
   (start + 4, always (plain name [accumulator .byte, imm8])),
   (start + 5, always (plain name [accumulator .full, imm32 .full]))]

/-- The arithmetic operations with two operands, in the order of their numbers. -/
def arithmeticNames : List String := ["add", "or", "adc", "sbb", "and", "sub", "xor", "cmp"]

/-- The arithmetic operations with an immediate operand. -/
def arithmeticGroup (operands : List OperandForm) : Rule :=
  group (arithmeticNames.map fun name =>
    some { plain name operands with lockable := name != "cmp" })

/-- The shifts and rotations, in the order of their numbers. -/
def shiftGroup (operands : List OperandForm) : Rule :=
  group (["rol", "ror", "rcl", "rcr", "shl", "shr", "sal", "sar"].map fun name =>
    some (plain name operands))

/-- The operations with one operand and the test. -/
def unaryGroup (size : Size) (test : OperandForm) : Rule :=
  group [some (plain "test" [rm size, test]), some (plain "test" [rm size, test]),
    some (plain "not" [rm size]).asLockable, some (plain "neg" [rm size]).asLockable,
    some (plain "mul" [rm size]), some (plain "imul" [rm size]),
    some (plain "div" [rm size]), some (plain "idiv" [rm size])]

/-- A string instruction of one byte and its wider form. -/
def stringPair (start : Nat) (name : String) (r : Repetition) : OpcodeTable :=
  [(start, always ((plain (name ++ "b") []).repeated r)),
   (start + 1, always ((byWidth (name ++ "w") (name ++ "d") (name ++ "q") []).repeated r))]

/-- A string instruction that moves data to or from a device. -/
def deviceString (start : Nat) (name : String) : OpcodeTable :=
  [(start, always ((plain (name ++ "b") []).repeated .string)),
   (start + 1, always ((byWidth (name ++ "w") (name ++ "d") (name ++ "d") []).repeated .string))]

/-- An exchange with the accumulator, which with itself does nothing. -/
def exchange (n : Nat) : Rule := fun s =>
  if n = 0 ∧ ¬ s.extended then
    if s.repetition = some 0xf3 then some (plain "pause" [])
    else if s.wide then some (plain "xchg" [opcodeRegister .full, accumulator .full])
    else if s.narrow then some (plain "xchg" [opcodeRegister .full, accumulator .full])
    else some (plain "nop" [])
  else some (plain "xchg" [opcodeRegister .full, accumulator .full])

/-- The register that names a device. -/
def deviceRegister : OperandForm := named (.general .word 2)

/-- The register that counts shifts. -/
def countRegister : OperandForm := named (.general .byte 1)

/-- The move of a constant, which shares its opcode with an instruction of a transaction. -/
def moveOr (move transaction : Form) : Rule :=
  fields [always move, invalid, invalid, invalid, invalid, invalid, invalid,
    exact 0xf8 (always { transaction with modeByte := true })]

/-- The opcodes of one byte. -/
def oneByte : OpcodeTable :=
  ((arithmeticNames.zipIdx).flatMap fun (name, n) => arithmetic (8 * n) name (name != "cmp")) ++
  ((List.range 8).map fun n => (0x50 + n, always (plain "push" [opcodeRegister .full]).asWide)) ++
  ((List.range 8).map fun n => (0x58 + n, always (plain "pop" [opcodeRegister .full]).asWide)) ++
  [(0x63, always (plain "movsxd" [reg .full, rm .dword])),
   (0x68, always (plain "push" [imm32 .full]).asWide),
   (0x69, always (plain "imul" [reg .full, rm .full, imm32 .full])),
   (0x6a, always (plain "push" [imm8Signed .full]).asWide),
   (0x6b, always (plain "imul" [reg .full, rm .full, imm8Signed .full]))] ++
  deviceString 0x6c "ins" ++ deviceString 0x6e "outs" ++
  ((conditions.zipIdx).map fun (c, n) =>
    (0x70 + n, always ((plain ("j" ++ c) [rel8 .short]).repeated .branch))) ++
  [(0x80, arithmeticGroup [rm .byte, imm8]),
   (0x81, arithmeticGroup [rm .full, imm32 .full]),
   (0x83, arithmeticGroup [rm .full, imm8Signed .full]),
   (0x84, always (plain "test" [rm .byte, reg .byte])),
   (0x85, always (plain "test" [rm .full, reg .full])),
   (0x86, always (plain "xchg" [reg .byte, rm .byte]).asLockable),
   (0x87, always (plain "xchg" [reg .full, rm .full]).asLockable),
   (0x88, always (plain "mov" [rm .byte, reg .byte])),
   (0x89, always (plain "mov" [rm .full, reg .full])),
   (0x8a, always (plain "mov" [reg .byte, rm .byte])),
   (0x8b, always (plain "mov" [reg .full, rm .full])),
   (0x8c, always (plain "mov" [rmOr .full .word, segmentReg])),
   (0x8d, always (plain "lea" [reg .full, mem .unsized])),
   (0x8e, always (plain "mov" [segmentReg, rmOr .full .word])),
   (0x8f, group [some (plain "pop" [rm .full]).asWide])] ++
  ((List.range 8).map fun n => (0x90 + n, exchange n)) ++
  [(0x98, always (byWidth "cbw" "cwde" "cdqe" [])),
   (0x99, always (byWidth "cwd" "cdq" "cqo" [])),
   (0x9b, always (plain "wait" [])),
   (0x9c, always (byWidth "pushfw" "pushf" "pushf" []).asWide),
   (0x9d, always (byWidth "popfw" "popf" "popf" []).asWide),
   (0x9e, always (plain "sahf" [])),
   (0x9f, always (plain "lahf" [])),
   (0xa0, always (plain "mov" [accumulator .byte, absolute .byte])),
   (0xa1, always (plain "mov" [accumulator .full, absolute .full])),
   (0xa2, always (plain "mov" [absolute .byte, accumulator .byte])),
   (0xa3, always (plain "mov" [absolute .full, accumulator .full]))] ++
  stringPair 0xa4 "movs" .string ++ stringPair 0xa6 "cmps" .comparing ++
  [(0xa8, always (plain "test" [accumulator .byte, imm8])),
   (0xa9, always (plain "test" [accumulator .full, imm32 .full]))] ++
  stringPair 0xaa "stos" .string ++ stringPair 0xac "lods" .string ++
  stringPair 0xae "scas" .comparing ++
  ((List.range 8).map fun n => (0xb0 + n, always (plain "mov" [opcodeRegister .byte, imm8]))) ++
  ((List.range 8).map fun n =>
    (0xb8 + n, always (plain "mov" [opcodeRegister .full, immFull .full]))) ++
  [(0xc0, shiftGroup [rm .byte, imm8]),
   (0xc1, shiftGroup [rm .full, imm8]),
   (0xc2, always ((plain "ret" [imm16]).repeated .branch)),
   (0xc3, always ((plain "ret" []).repeated .ret)),
   (0xc6, moveOr (plain "mov" [rm .byte, imm8]) (plain "xabort" [imm8])),
   (0xc7, moveOr (plain "mov" [rm .full, imm32 .full]) (plain "xbegin" [relFull])),
   (0xc8, always (plain "enter" [imm16, imm8])),
   (0xc9, always (plain "leave" [])),
   (0xca, always (plain "retf" [imm16])),
   (0xcb, always (plain "retf" [])),
   (0xcc, always (plain "int3" [])),
   (0xcd, always (plain "int" [imm8])),
   (0xcf, always (byWidth "iretw" "iretd" "iretq" [])),
   (0xd0, shiftGroup [rm .byte, one]),
   (0xd1, shiftGroup [rm .full, one]),
   (0xd2, shiftGroup [rm .byte, countRegister]),
   (0xd3, shiftGroup [rm .full, countRegister]),
   (0xd7, always (plain "xlatb" [])),
   (0xe0, always (plain "loopne" [rel8 .unmarked])),
   (0xe1, always (plain "loope" [rel8 .unmarked])),
   (0xe2, always (plain "loop" [rel8 .unmarked])),
   (0xe3, always (plain "jrcxz" [rel8 .unmarked])),
   (0xe4, always (plain "in" [accumulator .byte, imm8])),
   (0xe5, always (plain "in" [accumulator .full, imm8])),
   (0xe6, always (plain "out" [imm8, accumulator .byte])),
   (0xe7, always (plain "out" [imm8, accumulator .full])),
   (0xe8, always ((plain "call" [rel32 .unmarked]).repeated .branch).asCall),
   (0xe9, always ((plain "jmp" [rel32 .unmarked]).repeated .branch)),
   (0xeb, always ((plain "jmp" [rel8 .short]).repeated .branch)),
   (0xec, always (plain "in" [accumulator .byte, deviceRegister])),
   (0xed, always (plain "in" [accumulator .full, deviceRegister])),
   (0xee, always (plain "out" [deviceRegister, accumulator .byte])),
   (0xef, always (plain "out" [deviceRegister, accumulator .full])),
   (0xf1, always (plain "int1" [])),
   (0xf4, always (plain "hlt" [])),
   (0xf5, always (plain "cmc" [])),
   (0xf6, unaryGroup .byte imm8),
   (0xf7, unaryGroup .full (imm32 .full)),
   (0xf8, always (plain "clc" [])),
   (0xf9, always (plain "stc" [])),
   (0xfa, always (plain "cli" [])),
   (0xfb, always (plain "sti" [])),
   (0xfc, always (plain "cld" [])),
   (0xfd, always (plain "std" [])),
   (0xfe, group [some (plain "inc" [rm .byte]).asLockable, some (plain "dec" [rm .byte]).asLockable]),
   (0xff, group [some (plain "inc" [rm .full]).asLockable, some (plain "dec" [rm .full]).asLockable,
      some ((plain "call" [rm .qword]).repeated .branch).asCall,
      some (plain "call far" [mem .dword]).asCall,
      some ((plain "jmp" [rm .qword]).repeated .branch),
      some (plain "jmp far" [mem .dword]),
      some (plain "push" [rm .full]).asWide])]

end SourceDebugger.X86.Opcode
