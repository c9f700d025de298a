import SourceDebugger.X86.Form

/-!
# Forms of vector instructions

The tables behind the vector prefixes consist of a few families. An operation has two or three
operands, works on whole vectors or on their lowest elements, and its form can depend on which of
the vector prefixes is there, on the width it says, and on the vector length.
-/

namespace SourceDebugger.X86.Opcode

open OperandForm Form Rule

/-- The bytes of the shortest vectors, whose lowest element an operation can work on. -/
abbrev short : Span := .bytes 16

/-- The register of full length in the middle field. -/
abbrev target : OperandForm := vector .full

/-- The register of full length that the vector prefix names. -/
abbrev left : OperandForm := vectorThird .full

/-- A register of full length or memory. -/
abbrev right : OperandForm := vectorRm .full .full

/-- An element in memory or at the low end of a register. -/
abbrev lowest (size : MemorySize) : OperandForm := vectorRm short (.bytes size.bytes)

/-! ### Selection -/

/-- With the prefix that makes operands 16 bits wide, which is part of most vector opcodes. -/
def narrowed (r : Rule) : Rule := prefixed invalid r invalid invalid

/-- By the vector prefix: the form of the usual prefix, and those of the other one by the width. -/
def byVector (usual double quad : Option Form) : Rule := fun s =>
  if s.extensive then if s.wide then quad else double else usual

/-- The same form with both vector prefixes, where only the other one has to say the width. -/
def sized (wide : Bool) (f : Form) : Rule := fun s =>
  if s.extensive ∧ s.wide ≠ wide then none else some f

/-- With the usual vector prefix only. -/
def usual (r : Rule) : Rule := byEncoding r invalid

/-- With the vector prefix that can choose masks and rounding only. -/
def extensive (r : Rule) : Rule := byEncoding invalid r

/-- The two forms of the prefix that can choose masks and rounding. -/
def extensiveForms (double quad : Form) : Rule := byVector none (some double) (some quad)

/-- Only in a width of 32 bits. -/
def double (f : Form) : Rule := byWide (always f) invalid

/-- Only in a width of 64 bits. -/
def quad (f : Form) : Rule := byWide invalid (always f)

/-- The form of the usual prefix in a width of 32 bits, and those of the other prefix. -/
def doubleOr (f doubleForm quadForm : Form) : Rule :=
  byEncoding (double f) (extensiveForms doubleForm quadForm)

/-- Only for the shortest vectors. -/
def shortest (r : Rule) : Rule := byLength [r]

/-- Not for the shortest vectors. -/
def longer (r : Rule) : Rule := byLength [invalid, r, r]

/-- Only for the longest vectors. -/
def longest (r : Rule) : Rule := byLength [invalid, invalid, r]

/-! ### Whole vectors -/

/-- An operation with one vector that is read. -/
def binary (name : String) : Form := (plain name [target, right]).masked

/-- An operation with two vectors that are read. -/
def ternary (name : String) : Form := (plain name [target, left, right]).masked

/-- An operation with one vector and a constant. -/
def binaryConstant (name : String) : Form := (plain name [target, right, imm8]).masked

/-- An operation with two vectors and a constant. -/
def ternaryConstant (name : String) : Form := (plain name [target, left, right, imm8]).masked

/-- A comparison whose result is a mask. -/
def compared (name : String) : Form := (plain name [mask, left, right]).kept

/-- An operation on each integer of a vector of bytes or words. -/
def small (op : Nat) (name : String) : Nat × Rule := (op, narrowed (always (ternary name)))

/-- An operation on each integer of 32 bits. -/
def doubles (op : Nat) (name : String) : Nat × Rule :=
  (op, narrowed (sized false ((ternary name).broadcasting .dword)))

/-- The rule of an operation on each integer of 64 bits. -/
def quadRule (name : String) : Rule := sized true ((ternary name).broadcasting .qword)

/-- An operation on each integer of 64 bits. -/
def quads (op : Nat) (name : String) : Nat × Rule := (op, narrowed (quadRule name))

/-- An operation that only has the usual vector prefix. -/
def plainOnly (op : Nat) (name : String) : Nat × Rule :=
  (op, narrowed (usual (always (ternary name))))

/-- The rule of an operation of one name behind the usual vector prefix, whose elements the other
prefix names. -/
def splitRule (name double quad : String) : Rule :=
  byVector (some (ternary name)) (some ((ternary double).broadcasting .dword))
    (some ((ternary quad).broadcasting .qword))

/-- An operation of one name behind the usual vector prefix. -/
def split (op : Nat) (name double quad : String) : Nat × Rule :=
  (op, narrowed (splitRule name double quad))

/-- An operation on integers of 32 or 64 bits, by the width in either prefix. -/
def either (op : Nat) (name : String) : Nat × Rule :=
  (op, narrowed (byWide (always ((ternary (name ++ "d")).broadcasting .dword))
    (always ((ternary (name ++ "q")).broadcasting .qword))))

/-- The rule of an operation on integers of 32 or 64 bits that only has the extensive prefix. -/
def newerRule (name : String) : Rule :=
  extensiveForms ((ternary (name ++ "d")).broadcasting .dword)
    ((ternary (name ++ "q")).broadcasting .qword)

/-- An operation on integers of 32 or 64 bits that only has the extensive prefix. -/
def newer (op : Nat) (name : String) : Nat × Rule := (op, narrowed (newerRule name))

/-- The same with one vector that is read. -/
def newerBinary (op : Nat) (name : String) : Nat × Rule :=
  (op, narrowed (extensiveForms ((binary (name ++ "d")).broadcasting .dword)
    ((binary (name ++ "q")).broadcasting .qword)))

/-- An operation on bytes or words that only has the extensive prefix. -/
def newerSmall (op : Nat) (name : String) : Nat × Rule :=
  (op, narrowed (extensiveForms (ternary (name ++ "b")) (ternary (name ++ "w"))))

/-! ### Real numbers -/

/-- The real numbers that are the elements of a vector. -/
structure RealKind where
  /-- The letter that stands for them in names. -/
  letter : String
  /-- Their size. -/
  size : MemorySize
  /-- The width that the vector prefix says. -/
  wide : Bool

namespace RealKind

/-- Numbers of 16 bits. -/
def half : RealKind := ⟨"h", .word, false⟩

/-- Numbers of 32 bits. -/
def single : RealKind := ⟨"s", .dword, false⟩

/-- Numbers of 64 bits. -/
def double : RealKind := ⟨"d", .qword, true⟩

variable (k : RealKind) (name : String)

/-- A form with two vectors that are read. -/
def ternary : Form := (Opcode.ternary (name ++ "p" ++ k.letter)).broadcasting k.size

/-- A form with one vector that is read. -/
def binary : Form := (Opcode.binary (name ++ "p" ++ k.letter)).broadcasting k.size

/-- A form with two vectors and a constant. -/
def ternaryConstant : Form :=
  (Opcode.ternaryConstant (name ++ "p" ++ k.letter)).broadcasting k.size

/-- A form with one vector and a constant. -/
def binaryConstant : Form := (Opcode.binaryConstant (name ++ "p" ++ k.letter)).broadcasting k.size

/-- A form on the lowest elements; the others come from the second operand. -/
def scalar : Form :=
  (plain (name ++ "s" ++ k.letter) [vector short, vectorThird short, lowest k.size]).masked

/-- A form on the lowest elements with a constant. -/
def scalarConstant : Form :=
  (plain (name ++ "s" ++ k.letter) [vector short, vectorThird short, lowest k.size, imm8]).masked

end RealKind

open RealKind (single)

/-- An operation on whole vectors and on lowest elements, of single and of double precision. -/
def arithmeticRule (name : String) (choose : Form → Form) : Rule :=
  prefixed (sized false (choose (single.ternary name)))
    (sized true (choose (RealKind.double.ternary name)))
    (sized false (choose (single.scalar name)))
    (sized true (choose (RealKind.double.scalar name)))

/-- An operation on whole vectors of single and of double precision. -/
def packedRule (form : RealKind → Form) : Rule :=
  prefixed (sized false (form single)) (sized true (form RealKind.double)) invalid invalid

/-- An operation on real numbers whose width says the precision. -/
def realsByWidth (form : RealKind → Form) : Rule :=
  narrowed (byWide (always (form single)) (always (form RealKind.double)))

/-- The same with the extensive prefix only. -/
def newerReals (form : RealKind → Form) : Rule := extensive (realsByWidth form)

/-! ### Conversions -/

/-- A conversion of each element, where the spans of the result and of the operand say how their
sizes compare. -/
def conversion (name : String) (result source : Span) (element : MemorySize) : Form :=
  (plain name [vector result, vectorRm source source]).masked.broadcasting element

/-- A conversion of the lowest element into a general register. -/
def toGeneral (name : String) (element : MemorySize) : Form :=
  plain name [reg .double, lowest element]

/-- A conversion of a general register into the lowest element. -/
def fromGeneral (name : String) : Form :=
  (plain name [vector short, vectorThird short, rm .double]).choosing
    ({ · with rounding := .chosen 2 })

/-! ### Comparisons -/

/-- The names of the comparisons of integers whose result is a mask. -/
def integerComparisons : List String := ["eq", "lt", "le", "false", "neq", "nlt", "nle", "true"]

/-- A comparison of real numbers by a constant, whose result is a vector or, behind the extensive
prefix, a mask. -/
def realComparison (k : RealKind) (ending : String) (operands : List OperandForm)
    (packed : Bool) : Rule :=
  let form (result : OperandForm) : Form :=
    (plain ("vcmp" ++ ending) (result :: operands ++ [imm8])).aliased
      (comparisonName "vcmp" ending comparisons)
  let masking := (form mask).kept.quiet
  byEncoding (always (form (if packed then target else vector short)))
    (sized k.wide (if packed then masking.broadcasting k.size else masking))

end SourceDebugger.X86.Opcode
