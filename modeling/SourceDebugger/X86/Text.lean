import SourceDebugger.Text.Hex
import SourceDebugger.X86.Instruction

/-!
# Assembly text

An instruction as text: the name, padded to a column, and the operands between commas. Numbers
below ten are decimal, others hexadecimal; memory operands always name their size.
-/

namespace SourceDebugger.X86

open SourceDebugger.Text

/-- The column in which the operands start, unless the name is longer. -/
def operandColumn : Nat := 10

/-- A number as it stands in an operand. -/
def numberText (n : UInt64) : String :=
  if n < 10 then toString n.toNat else Hex.marked n.toNat

namespace RegisterName

/-- The names of the first eight general registers without the letter for their width. -/
def stems : List String := ["ax", "cx", "dx", "bx", "sp", "bp", "si", "di"]

/-- The name of a general register. -/
def generalText (width : Width) (n : Nat) : String :=
  match stems[n]? with
  | some stem =>
    match width with
    | .byte => if n < 4 then String.ofList (stem.toList.take 1) ++ "l" else stem ++ "l"
    | .word => stem
    | .dword => "e" ++ stem
    | .qword => "r" ++ stem
  | none =>
    s!"r{n}" ++
      match width with
      | .byte => "b"
      | .word => "w"
      | .dword => "d"
      | .qword => ""

/-- The name of a register. -/
def text : RegisterName → String
  | general width n => generalText width n
  | highByte n => (["ah", "ch", "dh", "bh"][n]?).getD ""
  | segment n => (["es", "cs", "ss", "ds", "fs", "gs"][n]?).getD ""
  | control n => s!"cr{n}"
  | debug n => s!"dr{n}"
  | vector64 n => s!"mm{n}"
  | vector128 n => s!"xmm{n}"
  | vector256 n => s!"ymm{n}"
  | vector512 n => s!"zmm{n}"
  | mask n => s!"k{n}"
  | tile n => s!"tmm{n}"
  | float n => s!"st{n}"

end RegisterName

/-- The word that stands before a memory operand. -/
def MemorySize.text : MemorySize → String
  | unsized => ""
  | byte => "byte "
  | word => "word "
  | dword => "dword "
  | qword => "qword "
  | fword => "fword "
  | tword => "tword "
  | oword => "oword "
  | yword => "yword "
  | zword => "zword "

namespace MemoryOperand

/-- A displacement behind registers, with its sign. -/
def displacementText (m : MemoryOperand) : String :=
  let value := m.addressWidth.signExtend m.displacement
  if value = 0 then ""
  else if value < 0x8000000000000000 then "+" ++ numberText value
  else "-" ++ numberText (0 - value)

/-- The text with the brackets, where `indexText` names the index register. -/
def textWith (indexText : Nat → String) (m : MemoryOperand) : String :=
  let segment := match m.segment with
    | some n => RegisterName.text (.segment n) ++ ":"
    | none => ""
  let register (n : Nat) := RegisterName.generalText m.addressWidth n
  let base := (m.base.map register).toList
  let index := (m.index.map fun n =>
    if m.scale = 1 then indexText n else s!"{indexText n}*{m.scale}").toList
  let registers := base ++ index
  let inner :=
    if m.relative then "rel " ++ numberText m.displacement
    else if registers.isEmpty then numberText (m.addressWidth.truncate m.displacement)
    else String.intercalate "+" registers ++ m.displacementText
  "[" ++ segment ++ inner ++ "]"

/-- The text with the brackets. -/
def text (m : MemoryOperand) : String := m.textWith (RegisterName.generalText m.addressWidth)

end MemoryOperand

/-- The word for the reach of a branch. -/
def BranchReach.text : BranchReach → String
  | unmarked => ""
  | short => "short "
  | near => "near "

/-- The way of rounding as it stands among the operands. -/
def Rounding.text : Rounding → String
  | nearest => "\x7brn-sae\x7d"
  | down => "\x7brd-sae\x7d"
  | up => "\x7bru-sae\x7d"
  | zero => "\x7brz-sae\x7d"
  | quiet => "\x7bsae\x7d"

/-- An operand as text. -/
def Operand.text : Operand → String
  | register name => name.text
  | memory size m => size.text ++ m.text
  | broadcast size m count => size.text ++ m.text ++ s!"\x7b1to{count}\x7d"
  | gathered size indexBytes m =>
    size.text ++ m.textWith fun n => (RegisterName.vector indexBytes n).text
  | rounding mode => mode.text
  | immediate value => numberText value
  | target reach address => reach.text ++ Hex.padded 16 address.toNat

/-- The selection of elements as it stands behind an operand. -/
def ElementMask.text (e : ElementMask) : String :=
  s!"\x7bk{e.register}\x7d" ++ if e.zeroing then "\x7bz\x7d" else ""

namespace Instruction

/-- The second factor stands alone where the first operand is also the first factor. -/
def writtenOperands (i : Instruction) : List Operand :=
  match i.mnemonic, i.operands with
  | "imul", [.register a, .register b, c] =>
    if a = b then [.register a, c] else i.operands
  | _, operands => operands

/-- The texts of the operands; the selection of elements stands behind the first one. -/
def operandTexts (i : Instruction) : List String :=
  match i.writtenOperands.map Operand.text, i.elements with
  | first :: rest, some e => (first ++ e.text) :: rest
  | texts, _ => texts

/-- The text of an instruction. -/
def text (i : Instruction) : String :=
  let head := String.join (i.prefixes.map (· ++ " ")) ++ i.mnemonic
  let operands := i.operandTexts
  if operands.isEmpty then head
  else
    padRight (max operandColumn (head.length + 1)) head ++ String.intercalate "," operands

end Instruction

end SourceDebugger.X86
