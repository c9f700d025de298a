import SourceDebugger.X86.Opcode.Vector
import SourceDebugger.X86.Opcode.VectorThreeByte

/-!
# Vector opcodes for numbers of half precision

Two tables that only the extensive vector prefix selects. They repeat the arithmetic of the other
tables for real numbers of 16 bits.
-/

namespace SourceDebugger.X86.Opcode

open OperandForm Form Rule
open RealKind (half)

/-- An operation on whole vectors and on lowest elements of half precision. -/
def halfArithmetic (op : Nat) (name : String) (choose : Form → Form) : Nat × Rule :=
  (op, prefixed (double (choose (half.ternary name))) invalid
    (double (choose (half.scalar name))) invalid)

/-- A conversion of the lowest element of half precision to a general register. -/
def halfToGeneral (name : String) (choose : Form → Form) : Rule :=
  always (choose (toGeneral name .word))

/-- The conversions to unsigned integers: of 32 bits, of 64 bits, and in a general register. -/
def halfToUnsigned (stem : String) (choose : Form → Form) : Rule :=
  prefixed (double (choose (conversion (stem ++ "ph2udq") .full .half .word)))
    (double (choose (conversion (stem ++ "ph2uqq") .full .quarter .word)))
    (halfToGeneral (stem ++ "sh2usi") choose) invalid

/-- A conversion of the lowest element to or from half precision. -/
def halfScalar (name : String) (size : MemorySize) : Form :=
  (plain name [vector short, vectorThird short, lowest size]).masked

/-- The first table of half precision. -/
def halfTable5 : OpcodeTable :=
  [(0x10, prefixed invalid invalid (double' (scalarLoad "vmovsh" half)) invalid),
   (0x11, prefixed invalid invalid (double' (scalarStore "vmovsh" half)) invalid),
   (0x1d, prefixed (double (halfScalar "vcvtss2sh" .dword).rounding)
      (double (conversion "vcvtps2phx" .half .full .dword).rounding) invalid invalid),
   (0x2a, prefixed invalid invalid (always (fromGeneral "vcvtsi2sh")) invalid),
   (0x2c, prefixed invalid invalid (halfToGeneral "vcvttsh2si" quiet) invalid),
   (0x2d, prefixed invalid invalid (halfToGeneral "vcvtsh2si" rounding) invalid),
   (0x2e, prefixed (double (plain "vucomish" [vector short, lowest .word]).quiet) invalid invalid
      invalid),
   (0x2f, prefixed (double (plain "vcomish" [vector short, lowest .word]).quiet) invalid invalid
      invalid),
   (0x51, prefixed (double (half.binary "vsqrt").rounding) invalid
      (double (half.scalar "vsqrt").rounding) invalid),
   halfArithmetic 0x58 "vadd" rounding, halfArithmetic 0x59 "vmul" rounding,
   (0x5a, prefixed (double (conversion "vcvtph2pd" .full .quarter .word).quiet)
      (quad (conversion "vcvtpd2ph" .quarter .full .qword).rounding)
      (double (halfScalar "vcvtsh2sd" .word).quiet)
      (quad (halfScalar "vcvtsd2sh" .qword).rounding)),
   (0x5b, prefixed
      (extensiveForms (conversion "vcvtdq2ph" .half .full .dword).rounding
        (conversion "vcvtqq2ph" .quarter .full .qword).rounding)
      (double (conversion "vcvtph2dq" .full .half .word).rounding)
      (double (conversion "vcvttph2dq" .full .half .word).quiet) invalid),
   halfArithmetic 0x5c "vsub" rounding, halfArithmetic 0x5d "vmin" quiet,
   halfArithmetic 0x5e "vdiv" rounding, halfArithmetic 0x5f "vmax" quiet,
   (0x6e, shortest (narrowed (always (plain "vmovw" [vector short, rmOr .double .word])))),
   (0x78, halfToUnsigned "vcvtt" quiet),
   (0x79, halfToUnsigned "vcvt" rounding),
   (0x7a, prefixed invalid (double (conversion "vcvttph2qq" .full .quarter .word).quiet) invalid
      (extensiveForms (conversion "vcvtudq2ph" .half .full .dword).rounding
        (conversion "vcvtuqq2ph" .quarter .full .qword).rounding)),
   (0x7b, prefixed invalid (double (conversion "vcvtph2qq" .full .quarter .word).rounding)
      (always (fromGeneral "vcvtusi2sh")) invalid),
   (0x7c, prefixed (double (conversion "vcvttph2uw" .full .full .word).quiet)
      (double (conversion "vcvttph2w" .full .full .word).quiet) invalid invalid),
   (0x7d, prefixed (double (conversion "vcvtph2uw" .full .full .word).rounding)
      (double (conversion "vcvtph2w" .full .full .word).rounding)
      (double (conversion "vcvtw2ph" .full .full .word).rounding)
      (double (conversion "vcvtuw2ph" .full .full .word).rounding)),
   (0x7e, shortest (narrowed (always (plain "vmovw" [rmOr .double .word, vector short]))))]
where
  /-- A rule in a width of 32 bits. -/
  double' (r : Rule) : Rule := byWide r invalid

/-- A product of complex numbers, whose result is in no register that is read. -/
def complexProduct (stem : String) (low : Bool) : Rule :=
  let form (stem : String) : Form :=
    (if low then halfScalar (stem ++ "sh") .dword
      else (ternary (stem ++ "ph")).broadcasting .dword).rounding.distinctly .first
  prefixed invalid invalid (double (form ("vf" ++ stem))) (double (form ("vfc" ++ stem)))

/-- The products with sums of half precision: the opcodes from `start + 6` on. -/
def halfFused (start : Nat) (order : String) : OpcodeTable :=
  (List.range 10).map fun n =>
    (start + 6 + n, narrowed (fusedRule order n fun form => double (form half)))

/-- The second table of half precision. -/
def halfTable6 : OpcodeTable :=
  [(0x13, prefixed (double (halfScalar "vcvtsh2ss" .word).quiet)
      (double (conversion "vcvtph2psx" .full .half .word).quiet) invalid invalid),
   (0x2c, narrowed (double (half.ternary "vscalef").rounding)),
   (0x2d, narrowed (double (half.scalar "vscalef").rounding)),
   (0x42, narrowed (double (half.binary "vgetexp").quiet)),
   (0x43, narrowed (double (half.scalar "vgetexp").quiet)),
   (0x4c, narrowed (double (half.binary "vrcp"))), (0x4d, narrowed (double (half.scalar "vrcp"))),
   (0x4e, narrowed (double (half.binary "vrsqrt"))),
   (0x4f, narrowed (double (half.scalar "vrsqrt"))),
   (0x56, complexProduct "maddc" false), (0x57, complexProduct "maddc" true),
   (0xd6, complexProduct "mulc" false), (0xd7, complexProduct "mulc" true)] ++
  halfFused 0x90 "132" ++ halfFused 0xa0 "213" ++ halfFused 0xb0 "231"

end SourceDebugger.X86.Opcode
