import SourceDebugger.X86.Opcode.VectorForm

/-!
# Opcodes behind the vector prefixes

The first table behind the vector prefixes, which continues the opcodes behind `0f`. Both prefixes
share it; the rules tell them apart where they differ.
-/

namespace SourceDebugger.X86.Opcode

open OperandForm Form Rule
open RealKind (single)

/-- A move into a register of full length. -/
def load (name : String) : Form := (plain name [target, right]).masked

/-- A move out of a register of full length. -/
def store (name : String) : Form := (plain name [right, target]).masked

/-- A move of real numbers in either precision. -/
def realMove (form : String → Form) (name : String) : Rule :=
  packedRule fun k => form (name ++ k.letter)

/-- The moves of the lowest element: from memory alone, between registers into a copy of the second
operand. -/
def scalarLoad (name : String) (k : RealKind) : Rule :=
  memoryOr (sized k.wide (plain name [vector short, lowest k.size]).masked)
    (sized k.wide (plain name [vector short, vectorThird short, vectorRegister short]).masked)

/-- The moves of the lowest element in the other direction. -/
def scalarStore (name : String) (k : RealKind) : Rule :=
  memoryOr (sized k.wide (plain name [lowest k.size, vector short]).masked)
    (sized k.wide (plain name [vectorRegister short, vectorThird short, vector short]).masked)

/-- The moves of whole integers: one name with the usual prefix, and two with the other one. -/
def integerMove (form : String → Form) (usual double quad : String) : Rule :=
  byVector (some (form usual)) (some (form double)) (some (form quad))

/-- The operands of a move of half of a short vector from memory, which keeps the other half. -/
def halfLoad (name : String) : Form :=
  plain name [vector short, vectorThird short, vectorMemory (.bytes 8)]

/-- The operands of a move of half of a short vector to memory. -/
def halfStore (name : String) : Form := plain name [vectorMemory (.bytes 8), vector short]

/-- A rule for masks: the names by prefix and width. -/
def maskRule (stem : String) (operands : List OperandForm) : Rule :=
  let form (ending : String) : Rule := always (plain (stem ++ ending) operands)
  usual (prefixed (byWide (form "w") (form "q")) (byWide (form "b") (form "d")) invalid invalid)

/-- An operation on two masks. -/
def maskTernary (op : Nat) (stem : String) : Nat × Rule :=
  (op, byLength [invalid, maskRule stem [mask, maskThird, maskRegister]])

/-- An operation on one mask. -/
def maskBinary (op : Nat) (stem : String) : Nat × Rule :=
  (op, shortest (maskRule stem [mask, maskRegister]))

/-- The moves of masks between masks and general registers. -/
def maskMove (operands : Size → List OperandForm) : Rule :=
  let form (name : String) (size : Size) : Form := plain name (operands size)
  shortest (usual (prefixed (double (form "kmovw" .dword)) (double (form "kmovb" .dword)) invalid
    (byWide (always (form "kmovd" .dword)) (always (form "kmovq" .qword)))))

/-- The moves of masks from and to memory. -/
def maskMemory (operands : MemorySize → List OperandForm) : Rule :=
  let form (name : String) (size : MemorySize) : Rule := always (plain name (operands size))
  shortest (usual (prefixed (byWide (form "kmovw" .word) (form "kmovq" .qword))
    (byWide (form "kmovb" .byte) (form "kmovd" .dword)) invalid invalid))

/-- A comparison of integers for equality or for order. -/
def integerComparison (op : Nat) (name : String) (element : Option MemorySize) : Nat × Rule :=
  (op, narrowed <| match element with
    | none => byEncoding (always (ternary name)) (always (compared name))
    | some e =>
      byEncoding (always (ternary name)) (sized (e = .qword) ((compared name).broadcasting e)))

/-- A shift of all elements by the same number, which is in the lowest element of a short vector. -/
def commonShift (op : Nat) (name : String) (rule : Form → Rule) : Nat × Rule :=
  (op, narrowed (rule (plain name [target, left, vectorRm short short]).masked))

/-- A shift by a constant. The usual vector prefix only has it for registers. -/
def constantShift (name : String) (rule : Form → Rule) (element : Option MemorySize) : Rule :=
  let form (operand : OperandForm) : Form := (plain name [left, operand, imm8]).masked
  let wide := form right
  byEncoding (always (form (vectorRegister .full)))
    (rule (match element with
      | none => wide
      | some e => wide.broadcasting e))

/-- A shift of whole lanes by a constant, which has no mask. -/
def laneShift (name : String) : Rule :=
  byEncoding (always (plain name [left, vectorRegister .full, imm8]))
    (always (plain name [left, right, imm8]))

/-- A rotation or shift by a constant that only has the extensive prefix. -/
def newerShift (double quad : Option String) : Rule :=
  let form (name : String) (e : MemorySize) : Form :=
    ((plain name [left, right, imm8]).masked).broadcasting e
  byVector none (double.map (form · .dword)) (quad.map (form · .qword))

/-- A shift of doublewords by a constant; arithmetic shifts of quadwords share the opcode. -/
def doubleShift (name : String) (quad : Option String) : Rule :=
  orElse (constantShift name (sized false) (some .dword)) (newerShift none quad)

/-- A conversion of real numbers to integers, in all its sizes: with rounding, or towards zero
without exceptions. -/
def toUnsigned (stem : String) (choose : Form → Form) : Rule :=
  prefixed
    (extensiveForms (choose (conversion (stem ++ "ps2udq") .full .full .dword))
      (choose (conversion (stem ++ "pd2udq") .half .full .qword)))
    (extensiveForms (choose (conversion (stem ++ "ps2uqq") .full .half .dword))
      (choose (conversion (stem ++ "pd2uqq") .full .full .qword)))
    (extensive (always (choose (toGeneral (stem ++ "ss2usi") .dword))))
    (extensive (always (choose (toGeneral (stem ++ "sd2usi") .qword))))

/-- The conversions of the lowest element to a general register. -/
def toSigned (stem : String) (choose : Form → Form) : Rule :=
  prefixed invalid invalid (always (choose (toGeneral (stem ++ "ss2si") .dword)))
    (always (choose (toGeneral (stem ++ "sd2si") .qword)))

/-- A comparison of lowest elements that sets flags. -/
def flagComparison (name : String) : Rule :=
  let form (k : RealKind) : Form :=
    (plain (name ++ "s" ++ k.letter) [vector short, lowest k.size]).quiet
  packedRule form

/-- An operation on real numbers that only has the usual vector prefix. -/
def usualReals (op : Nat) (name : String) : Nat × Rule :=
  (op, prefixed invalid (usual (always (ternary (name ++ "pd")))) invalid
    (usual (always (ternary (name ++ "ps")))))

/-- An estimate with the usual vector prefix. -/
def estimate (op : Nat) (name : String) : Nat × Rule :=
  (op, prefixed (usual (always (binary (name ++ "ps")))) invalid
    (usual (always (single.scalar name))) invalid)

/-- The opcodes that follow a vector prefix that stands for `0f`. -/
def vectorTable : OpcodeTable :=
  [(0x10, prefixed (sized false (load "vmovups")) (sized true (load "vmovupd"))
      (scalarLoad "vmovss" single) (scalarLoad "vmovsd" RealKind.double)),
   (0x11, prefixed (sized false (store "vmovups")) (sized true (store "vmovupd"))
      (scalarStore "vmovss" single) (scalarStore "vmovsd" RealKind.double)),
   (0x12, prefixed
      (shortest (memoryOr (sized false (halfLoad "vmovlps"))
        (sized false (plain "vmovhlps" [vector short, vectorThird short, vectorRegister short]))))
      (shortest (sized true (halfLoad "vmovlpd"))) (sized false (binary "vmovsldup"))
      (byLength [sized true (plain "vmovddup" [vector short, lowest .qword]).masked,
        sized true (binary "vmovddup"), sized true (binary "vmovddup")])),
   (0x13, prefixed (shortest (sized false (halfStore "vmovlps")))
      (shortest (sized true (halfStore "vmovlpd"))) invalid invalid),
   (0x14, packedRule (·.ternary "vunpckl")),
   (0x15, packedRule (·.ternary "vunpckh")),
   (0x16, prefixed
      (shortest (memoryOr (sized false (halfLoad "vmovhps"))
        (sized false (plain "vmovlhps" [vector short, vectorThird short, vectorRegister short]))))
      (shortest (sized true (halfLoad "vmovhpd"))) (sized false (binary "vmovshdup")) invalid),
   (0x17, prefixed (shortest (sized false (halfStore "vmovhps")))
      (shortest (sized true (halfStore "vmovhpd"))) invalid invalid),
   (0x28, realMove load "vmovap"),
   (0x29, realMove store "vmovap"),
   (0x2a, prefixed invalid invalid (always (fromGeneral "vcvtsi2ss"))
      (always (fromGeneral "vcvtsi2sd"))),
   (0x2b, realMove (plain · [vectorMemory .full, target]) "vmovntp"),
   (0x2c, toSigned "vcvtt" quiet),
   (0x2d, toSigned "vcvt" rounding),
   (0x2e, flagComparison "vucomi"),
   (0x2f, flagComparison "vcomi"),
   maskTernary 0x41 "kand", maskTernary 0x42 "kandn", maskBinary 0x44 "knot",
   maskTernary 0x45 "kor", maskTernary 0x46 "kxnor", maskTernary 0x47 "kxor",
   maskTernary 0x4a "kadd",
   (0x4b, byLength [invalid, usual (prefixed
      (byWide (always (plain "kunpckwd" [mask, maskThird, maskRegister]))
        (always (plain "kunpckdq" [mask, maskThird, maskRegister])))
      (double (plain "kunpckbw" [mask, maskThird, maskRegister])) invalid invalid)]),
   (0x50, usual (packedRule fun k =>
      plain ("vmovmskp" ++ k.letter) [reg .double, vectorRegister .full])),
   (0x51, prefixed (sized false (single.binary "vsqrt").rounding)
      (sized true (RealKind.double.binary "vsqrt").rounding)
      (sized false (single.scalar "vsqrt").rounding)
      (sized true (RealKind.double.scalar "vsqrt").rounding)),
   estimate 0x52 "vrsqrt", estimate 0x53 "vrcp",
   (0x54, packedRule (·.ternary "vand")),
   (0x55, packedRule (·.ternary "vandn")),
   (0x56, packedRule (·.ternary "vor")),
   (0x57, packedRule (·.ternary "vxor")),
   (0x58, arithmeticRule "vadd" rounding),
   (0x59, arithmeticRule "vmul" rounding),
   (0x5a, prefixed (sized false (conversion "vcvtps2pd" .full .half .dword).quiet)
      (sized true (conversion "vcvtpd2ps" .half .full .qword).rounding)
      (sized false
        ((plain "vcvtss2sd" [vector short, vectorThird short, lowest .dword]).masked).quiet)
      (sized true
        ((plain "vcvtsd2ss" [vector short, vectorThird short, lowest .qword]).masked).rounding)),
   (0x5b, prefixed
      (byVector (some (binary "vcvtdq2ps"))
        (some (conversion "vcvtdq2ps" .full .full .dword).rounding)
        (some (conversion "vcvtqq2ps" .half .full .qword).rounding))
      (sized false (conversion "vcvtps2dq" .full .full .dword).rounding)
      (sized false (conversion "vcvttps2dq" .full .full .dword).quiet) invalid),
   (0x5c, arithmeticRule "vsub" rounding),
   (0x5d, arithmeticRule "vmin" quiet),
   (0x5e, arithmeticRule "vdiv" rounding),
   (0x5f, arithmeticRule "vmax" quiet),
   small 0x60 "vpunpcklbw", small 0x61 "vpunpcklwd", doubles 0x62 "vpunpckldq",
   small 0x63 "vpacksswb", integerComparison 0x64 "vpcmpgtb" none,
   integerComparison 0x65 "vpcmpgtw" none, integerComparison 0x66 "vpcmpgtd" (some .dword),
   small 0x67 "vpackuswb", small 0x68 "vpunpckhbw", small 0x69 "vpunpckhwd",
   doubles 0x6a "vpunpckhdq", doubles 0x6b "vpackssdw", quads 0x6c "vpunpcklqdq",
   quads 0x6d "vpunpckhqdq",
   (0x6e, shortest (narrowed (byWide (always (plain "vmovd" [vector short, rm .double]))
      (always (plain "vmovq" [vector short, rm .double]))))),
   (0x6f, prefixed invalid (integerMove load "vmovdqa" "vmovdqa32" "vmovdqa64")
      (integerMove load "vmovdqu" "vmovdqu32" "vmovdqu64")
      (extensiveForms (load "vmovdqu8") (load "vmovdqu16"))),
   (0x70, prefixed invalid (sized false ((binaryConstant "vpshufd").broadcasting .dword))
      (always (binaryConstant "vpshufhw")) (always (binaryConstant "vpshuflw"))),
   (0x71, narrowed (fields [invalid, invalid, constantShift "vpsrlw" always none, invalid,
      constantShift "vpsraw" always none, invalid, constantShift "vpsllw" always none, invalid])),
   (0x72, narrowed (fields [newerShift "vprord" "vprorq", newerShift "vprold" "vprolq",
      doubleShift "vpsrld" none, invalid, doubleShift "vpsrad" "vpsraq", invalid,
      doubleShift "vpslld" none, invalid])),
   (0x73, narrowed (fields [invalid, invalid, constantShift "vpsrlq" (sized true) (some .qword),
      laneShift "vpsrldq", invalid, invalid,
      constantShift "vpsllq" (sized true) (some .qword), laneShift "vpslldq"])),
   integerComparison 0x74 "vpcmpeqb" none, integerComparison 0x75 "vpcmpeqw" none,
   integerComparison 0x76 "vpcmpeqd" (some .dword),
   (0x77, usual (prefixed
      (byLength [always (plain "vzeroupper" []), always (plain "vzeroall" [])])
      invalid invalid invalid)),
   (0x78, toUnsigned "vcvtt" quiet),
   (0x79, toUnsigned "vcvt" rounding),
   (0x7a, prefixed invalid
      (extensiveForms (conversion "vcvttps2qq" .full .half .dword).quiet
        (conversion "vcvttpd2qq" .full .full .qword).quiet)
      (extensiveForms (conversion "vcvtudq2pd" .full .half .dword)
        (conversion "vcvtuqq2pd" .full .full .qword).rounding)
      (extensiveForms (conversion "vcvtudq2ps" .full .full .dword).rounding
        (conversion "vcvtuqq2ps" .half .full .qword).rounding)),
   (0x7b, prefixed invalid
      (extensiveForms (conversion "vcvtps2qq" .full .half .dword).rounding
        (conversion "vcvtpd2qq" .full .full .qword).rounding)
      (extensive (always (fromGeneral "vcvtusi2ss")))
      (extensive (always (fromGeneral "vcvtusi2sd")))),
   usualReals 0x7c "vhadd", usualReals 0x7d "vhsub",
   (0x7e, shortest (prefixed invalid
      (byWide (always (plain "vmovd" [rm .double, vector short]))
        (always (plain "vmovq" [rm .double, vector short])))
      (sized true (plain "vmovq" [vector short, lowest .qword])) invalid)),
   (0x7f, prefixed invalid (integerMove store "vmovdqa" "vmovdqa32" "vmovdqa64")
      (integerMove store "vmovdqu" "vmovdqu32" "vmovdqu64")
      (extensiveForms (store "vmovdqu8") (store "vmovdqu16"))),
   (0x90, maskMemory fun size => [mask, maskRm size]),
   (0x91, maskMemory fun size => [mem size, mask]),
   (0x92, maskMove fun size => [mask, rmRegister size]),
   (0x93, maskMove fun size => [reg size, maskRegister]),
   maskBinary 0x98 "kortest", maskBinary 0x99 "ktest",
   (0xae, shortest (usual (prefixed (memoryOr
      (group [none, none, some (plain "vldmxcsr" [mem .dword]),
        some (plain "vstmxcsr" [mem .dword])])
      invalid) invalid invalid invalid))),
   (0xc2, prefixed (realComparison single "ps" [left, right] true)
      (realComparison RealKind.double "pd" [left, right] true)
      (realComparison single "ss" [vectorThird short, lowest .dword] false)
      (realComparison RealKind.double "sd" [vectorThird short, lowest .qword] false)),
   (0xc4, shortest (narrowed (always
      (plain "vpinsrw" [vector short, vectorThird short, rmOr .double .word, imm8])))),
   (0xc5, shortest (narrowed (always
      (plain "vpextrw" [reg .double, vectorRegister short, imm8])))),
   (0xc6, packedRule (·.ternaryConstant "vshuf")),
   usualReals 0xd0 "vaddsub",
   commonShift 0xd1 "vpsrlw" always, commonShift 0xd2 "vpsrld" (sized false),
   commonShift 0xd3 "vpsrlq" (sized true), quads 0xd4 "vpaddq", small 0xd5 "vpmullw",
   (0xd6, shortest (narrowed (sized true (plain "vmovq" [lowest .qword, vector short])))),
   (0xd7, narrowed (usual (always (plain "vpmovmskb" [reg .double, vectorRegister .full])))),
   small 0xd8 "vpsubusb", small 0xd9 "vpsubusw", small 0xda "vpminub",
   split 0xdb "vpand" "vpandd" "vpandq", small 0xdc "vpaddusb", small 0xdd "vpaddusw",
   small 0xde "vpmaxub", split 0xdf "vpandn" "vpandnd" "vpandnq", small 0xe0 "vpavgb",
   commonShift 0xe1 "vpsraw" always,
   commonShift 0xe2 "vpsrad" (fun f => byVector (some f) (some f)
      (some { f with mnemonic := fun _ => "vpsraq" })),
   small 0xe3 "vpavgw", small 0xe4 "vpmulhuw", small 0xe5 "vpmulhw",
   (0xe6, prefixed invalid (sized true (conversion "vcvttpd2dq" .half .full .qword).quiet)
      (byVector (some (conversion "vcvtdq2pd" .full .half .dword))
        (some (conversion "vcvtdq2pd" .full .half .dword))
        (some (conversion "vcvtqq2pd" .full .full .qword).rounding))
      (sized true (conversion "vcvtpd2dq" .half .full .qword).rounding)),
   (0xe7, narrowed (sized false (plain "vmovntdq" [vectorMemory .full, target]))),
   small 0xe8 "vpsubsb", small 0xe9 "vpsubsw", small 0xea "vpminsw",
   split 0xeb "vpor" "vpord" "vporq", small 0xec "vpaddsb", small 0xed "vpaddsw",
   small 0xee "vpmaxsw", split 0xef "vpxor" "vpxord" "vpxorq",
   (0xf0, prefixed invalid invalid invalid
      (usual (always (plain "vlddqu" [target, vectorMemory .full])))),
   commonShift 0xf1 "vpsllw" always, commonShift 0xf2 "vpslld" (sized false),
   commonShift 0xf3 "vpsllq" (sized true), quads 0xf4 "vpmuludq", small 0xf5 "vpmaddwd",
   (0xf6, narrowed (always (plain "vpsadbw" [target, left, right]))),
   (0xf7, shortest (narrowed (usual (always
      (plain "vmaskmovdqu" [vector short, vectorRegister short]))))),
   small 0xf8 "vpsubb", small 0xf9 "vpsubw", doubles 0xfa "vpsubd", quads 0xfb "vpsubq",
   small 0xfc "vpaddb", small 0xfd "vpaddw", doubles 0xfe "vpaddd"]

end SourceDebugger.X86.Opcode
