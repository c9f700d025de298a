import SourceDebugger.X86.Form

/-!
# Opcodes of the floating point stack
-/

namespace SourceDebugger.X86.Opcode

open OperandForm Form Rule

/-- The arithmetic of the floating point stack with an operand in memory. -/
def floatMemory (names : List String) (size : MemorySize) : Rule :=
  group (names.map fun name => if name == "" then none else some (plain name [mem size]))

/-- The names of the arithmetic on real numbers. -/
def realNames : List String :=
  ["fadd", "fmul", "fcom", "fcomp", "fsub", "fsubr", "fdiv", "fdivr"]

/-- An operation with another place of the stack as its only written operand. -/
def stackForm (name : String) : Form := plain name [stack]

/-- An operation whose usual operand, the second place of the stack, is not written. -/
def impliedForm (name : String) : Rule := fun s => do
  let b ← s.modeByte
  return if b &&& 7 = 1 then twoByte name else stackForm name

/-- An operation that leaves its result in the written place of the stack. -/
def towardsForm (name : String) : Form := plain (name ++ " to") [stack]

/-- Forms that are told apart by the low field of the byte behind the opcode. -/
def bare (names : List String) : Rule :=
  low (names.map fun name => if name == "" then none else some (twoByte name))

/-- The opcodes of the floating point stack. -/
def float : OpcodeTable :=
  [(0xd8, memoryOr (floatMemory realNames .dword)
      (fields [always (stackForm "fadd"), always (stackForm "fmul"), impliedForm "fcom",
        impliedForm "fcomp", always (stackForm "fsub"), always (stackForm "fsubr"),
        always (stackForm "fdiv"), always (stackForm "fdivr")])),
   (0xd9, memoryOr
      (group [some (plain "fld" [mem .dword]), none, some (plain "fst" [mem .dword]),
        some (plain "fstp" [mem .dword]), some (plain "fldenv" [mem .unsized]),
        some (plain "fldcw" [mem .word]), some (plain "fnstenv" [mem .unsized]),
        some (plain "fnstcw" [mem .word])])
      (fields [always (stackForm "fld"), impliedForm "fxch", bare ["fnop"],
        always (stackForm "fstpnce"),
        bare ["fchs", "fabs", "", "", "ftst", "fxam"],
        bare ["fld1", "fldl2t", "fldl2e", "fldpi", "fldlg2", "fldln2", "fldz"],
        bare ["f2xm1", "fyl2x", "fptan", "fpatan", "fxtract", "fprem1", "fdecstp", "fincstp"],
        bare ["fprem", "fyl2xp1", "fsqrt", "fsincos", "frndint", "fscale", "fsin", "fcos"]])),
   (0xda, memoryOr
      (floatMemory ["fiadd", "fimul", "ficom", "ficomp", "fisub", "fisubr", "fidiv", "fidivr"] .dword)
      (fields [impliedForm "fcmovb", impliedForm "fcmove", impliedForm "fcmovbe",
        impliedForm "fcmovu", invalid, bare ["", "fucompp"], invalid, invalid])),
   (0xdb, memoryOr
      (group [some (plain "fild" [mem .dword]), some (plain "fisttp" [mem .dword]),
        some (plain "fist" [mem .dword]), some (plain "fistp" [mem .dword]), none,
        some (plain "fld" [mem .tword]), none, some (plain "fstp" [mem .tword])])
      (fields [impliedForm "fcmovnb", impliedForm "fcmovne", impliedForm "fcmovnbe",
        impliedForm "fcmovnu", bare ["fneni", "fndisi", "fnclex", "fninit", "fnsetpm"],
        impliedForm "fucomi", impliedForm "fcomi", invalid])),
   (0xdc, memoryOr (floatMemory realNames .qword)
      (fields [always (towardsForm "fadd"), always (towardsForm "fmul"), impliedForm "fcom",
        impliedForm "fcomp", always (towardsForm "fsubr"), always (towardsForm "fsub"),
        always (towardsForm "fdivr"), always (towardsForm "fdiv")])),
   (0xdd, memoryOr
      (group [some (plain "fld" [mem .qword]), some (plain "fisttp" [mem .qword]),
        some (plain "fst" [mem .qword]), some (plain "fstp" [mem .qword]),
        some (plain "frstor" [mem .unsized]), none, some (plain "fnsave" [mem .unsized]),
        some (plain "fnstsw" [mem .word])])
      (fields [always (stackForm "ffree"), impliedForm "fxch", always (stackForm "fst"),
        always (stackForm "fstp"), impliedForm "fucom", impliedForm "fucomp", invalid, invalid])),
   (0xde, memoryOr
      (floatMemory ["fiadd", "fimul", "ficom", "ficomp", "fisub", "fisubr", "fidiv", "fidivr"] .word)
      (fields [impliedForm "faddp", impliedForm "fmulp", impliedForm "fcomp", bare ["", "fcompp"],
        impliedForm "fsubrp", impliedForm "fsubp", impliedForm "fdivrp", impliedForm "fdivp"])),
   (0xdf, memoryOr
      (group [some (plain "fild" [mem .word]), some (plain "fisttp" [mem .word]),
        some (plain "fist" [mem .word]), some (plain "fistp" [mem .word]),
        some (plain "fbld" [mem .tword]), some (plain "fild" [mem .qword]),
        some (plain "fbstp" [mem .tword]), some (plain "fistp" [mem .qword])])
      (fields [always (stackForm "ffreep"), impliedForm "fxch", always (stackForm "fstp"),
        always (stackForm "fstp"),
        low [some { plain "fnstsw" [named (.general .word 0)] with modeByte := true }],
        impliedForm "fucomip", impliedForm "fcomip", invalid]))]

end SourceDebugger.X86.Opcode
