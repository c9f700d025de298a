import SourceDebugger.X86.Opcode.VectorForm

/-!
# Opcodes behind the third vector prefix

Three tables that have a vector prefix of their own, whose first byte it shares with `pop`.
-/

namespace SourceDebugger.X86.Opcode

open OperandForm Form Rule

/-- A rule without a prefix that is part of the opcode. -/
def unprefixed (r : Rule) : Rule := prefixed r invalid invalid invalid

/-- An operation on short vectors in a width of 32 bits. -/
def shortForm (op : Nat) (name : String) (operands : List OperandForm) : Nat × Rule :=
  (op, unprefixed (shortest (double (plain name operands))))

/-- A product with a sum. -/
def multiplied (op : Nat) (name : String) : Nat × Rule :=
  shortForm op name [target, left, right, vectorFourth .full]

/-- An operation on four vectors, of which the last two change places with the width. -/
def exchanged (name : String) : Rule :=
  unprefixed (byWide (always (plain name [target, left, right, vectorFourth .full]))
    (always (plain name [target, left, vectorFourth .full, right])))

/-- The letters of the four sizes of integers, from the shortest on. -/
def integerLetters : List String := ["b", "w", "d", "q"]

/-- The four operations on integers of all sizes, from opcode `start` on. -/
def integerSizes (start : Nat) (row : Nat → String → Nat × Rule) : OpcodeTable :=
  integerLetters.zipIdx.map fun (letter, n) => row (start + n) letter

/-- The comparisons of integers by a constant. -/
def vectorRelations : List String := ["lt", "le", "gt", "ge", "eq", "neq", "false", "true"]

/-- A comparison of integers by a constant, whose result is a vector. -/
def vectorRelation (op : Nat) (ending : String) : Nat × Rule :=
  (op, unprefixed (shortest (double ((plain ("vpcom" ++ ending) [target, left, right, imm8]).aliased
    (comparisonName "vpcom" ending vectorRelations)))))

/-- A shift of each element by the number in another vector; the width says which operand can be in
memory. -/
def vectorShiftBy (op : Nat) (name : String) : Nat × Rule :=
  (op, unprefixed (shortest (byWide (always (plain name [target, right, left]))
    (always (plain name [target, left, right])))))

/-- The first table. -/
def xopTable8 : OpcodeTable :=
  [multiplied 0x85 "vpmacssww", multiplied 0x86 "vpmacsswd", multiplied 0x87 "vpmacssdql",
   multiplied 0x8e "vpmacssdd", multiplied 0x8f "vpmacssdqh", multiplied 0x95 "vpmacsww",
   multiplied 0x96 "vpmacswd", multiplied 0x97 "vpmacsdql", multiplied 0x9e "vpmacsdd",
   multiplied 0x9f "vpmacsdqh", (0xa2, exchanged "vpcmov"), (0xa3, shortest (exchanged "vpperm")),
   multiplied 0xa6 "vpmadcsswd", multiplied 0xb6 "vpmadcswd"] ++
  integerSizes 0xc0 (fun op letter => shortForm op ("vprot" ++ letter) [target, right, imm8]) ++
  integerSizes 0xcc vectorRelation ++
  integerSizes 0xec (fun op letter => vectorRelation op ("u" ++ letter))

/-- The operations on the lowest bits of a general register. -/
def bitGroup (names : List String) : Rule :=
  unprefixed (shortest (group (names.map fun name =>
    if name = "" then none else some (plain name [generalThird .double, rm .double]))))

/-- A sum or difference of neighbours, which is twice as long or longer. -/
def neighbours (op : Nat) (name : String) : Nat × Rule := shortForm op name [target, right]

/-- The second table. -/
def xopTable9 : OpcodeTable :=
  [(0x01, bitGroup ["", "blcfill", "blsfill", "blcs", "tzmsk", "blcic", "blsic", "t1mskc"]),
   (0x02, bitGroup ["", "blcmsk", "", "", "", "", "blci"]),
   (0x12, unprefixed (shortest (group [some (plain "llwpcb" [rmRegister .double]),
      some (plain "slwpcb" [rmRegister .double])]))),
   (0x80, unprefixed (double (plain "vfrczps" [target, right]))),
   (0x81, unprefixed (double (plain "vfrczpd" [target, right]))),
   shortForm 0x82 "vfrczss" [target, lowest .dword],
   shortForm 0x83 "vfrczsd" [target, lowest .qword]] ++
  integerSizes 0x90 (fun op letter => vectorShiftBy op ("vprot" ++ letter)) ++
  integerSizes 0x94 (fun op letter => vectorShiftBy op ("vpshl" ++ letter)) ++
  integerSizes 0x98 (fun op letter => vectorShiftBy op ("vpsha" ++ letter)) ++
  [neighbours 0xc1 "vphaddbw", neighbours 0xc2 "vphaddbd", neighbours 0xc3 "vphaddbq",
   neighbours 0xc6 "vphaddwd", neighbours 0xc7 "vphaddwq", neighbours 0xcb "vphadddq",
   neighbours 0xd1 "vphaddubw", neighbours 0xd2 "vphaddubd", neighbours 0xd3 "vphaddubq",
   neighbours 0xd6 "vphadduwd", neighbours 0xd7 "vphadduwq", neighbours 0xdb "vphaddudq",
   neighbours 0xe1 "vphsubbw", neighbours 0xe2 "vphsubwd", neighbours 0xe3 "vphsubdq"]

/-- The third table. -/
def xopTableA : OpcodeTable :=
  [(0x10, unprefixed (shortest (always (plain "bextr" [reg .double, rm .double, immFull .dword])))),
   (0x12, unprefixed (shortest (group
      [some (plain "lwpins" [generalThird .double, rm .dword, immFull .dword]),
       some (plain "lwpval" [generalThird .double, rm .dword, immFull .dword])])))]

end SourceDebugger.X86.Opcode
