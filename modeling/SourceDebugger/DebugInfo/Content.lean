import SourceDebugger.DebugInfo.Entry
import SourceDebugger.Index.Basic
import SourceDebugger.Text.Utf8

/-!
# What entries say

The functions, variables and types that entries of the debug information describe, with their
addresses in the running program.
-/

namespace SourceDebugger.DebugInfo

/-- What an entry adds to the index. -/
inductive EntryContent where
  /-- A compile unit. -/
  | unit (u : CompileUnit)
  /-- A function. -/
  | function (f : FunctionEntry)
  /-- A variable. -/
  | namedVariable (v : VariableEntry)
  /-- A type. -/
  | type (offset : UInt64) (t : TypeEntry)
  /-- Nothing. -/
  | other
deriving DecidableEq, Inhabited

/-- The address that the program has in memory for an address of the debug information. -/
def relocate (bias : Addr) (address : UInt64) : Except DebugError Addr :=
  match bias.add? address with
  | some a => .ok a
  | none =>
    .error (.malformedDebugInfo
      s!"address {Text.Hex.marked address.toNat} + bias {bias.text} overflows")

namespace UnitContext

/-- A text; bytes that are no characters are replaced. -/
def readableText (u : UnitContext) (v : AttributeValue) : Except DebugError String := do
  return Text.Utf8.decode (← u.textOf v)

/-- The text of an attribute, if the entry has it. -/
def textAttribute? (u : UnitContext) (as : Attributes) (name : AttributeName) :
    Except DebugError (Option String) := do
  match ← as.find? name with
  | some v => return some (← u.readableText v)
  | none => return none

end UnitContext

/-- What is known of a function while its attributes are read. -/
structure SubprogramDraft where
  /-- Its name. -/
  name : String
  /-- Its first address. -/
  low : Option UInt64
  /-- Where it ends. -/
  high : Option AttributeValue
  /-- The expression of its frame base. -/
  frameBase : List UInt8
  /-- The number of the file that declares it. -/
  declFile : UInt64
  /-- Whether it is visible outside of its unit. -/
  external : Bool
deriving DecidableEq, Inhabited

namespace SubprogramDraft

/-- Nothing is known. -/
def empty : SubprogramDraft := ⟨"", none, none, [], 0, false⟩

/-- What one attribute adds. -/
def add (u : UnitContext) (d : SubprogramDraft) (a : Attribute) : Except DebugError SubprogramDraft :=
  if a.name = AttributeName.name then do return { d with name := ← u.readableText a.value }
  else if a.name = AttributeName.lowPc then do return { d with low := ← u.addressOf a.value }
  else if a.name = AttributeName.highPc then .ok { d with high := some a.value }
  else if a.name = AttributeName.frameBase then
    match a.value.expression? with
    | some e => .ok { d with frameBase := e }
    | none => .ok d
  else if a.name = AttributeName.declFile then
    .ok { d with declFile := a.value.unsigned?.getD 0 }
  else if a.name = AttributeName.external then .ok { d with external := a.value = .flag true }
  else .ok d

/-- Where a function ends that starts at `low`: at an address, or behind a number of bytes. -/
def endOf (u : UnitContext) (name : String) (low : UInt64) :
    Option AttributeValue → Except DebugError UInt64
  | none => .ok low
  | some (.address a) => .ok a
  | some (.addressIndex i) => do return (← u.addressOf (.addressIndex i)).getD low
  | some v =>
    let size := v.unsigned?.getD 0
    if low.toNat + size.toNat < UInt64.size then .ok (low + size)
    else .error (.malformedDebugInfo
      s!"function {name} at {Text.Hex.marked low.toNat} with size {Text.Hex.marked size.toNat} overflows")

/-- The function. One without a first address has no code, and its range is empty. -/
def function (u : UnitContext) (bias : Addr) (d : SubprogramDraft) :
    Except DebugError FunctionEntry := do
  let f : FunctionEntry :=
    ⟨d.name, .null, .null, d.frameBase, d.declFile, d.external, 0, []⟩
  match d.low with
  | none => return f
  | some low =>
    let high ← endOf u d.name low d.high
    if high < low then
      throw (.malformedDebugInfo s!"function {d.name} ends before it starts")
    return { f with lowPc := ← relocate bias low, highPc := ← relocate bias high }

end SubprogramDraft

namespace Entry

/-- The function that an entry describes. -/
def subprogram (u : UnitContext) (bias : Addr) (e : Entry) : Except DebugError FunctionEntry := do
  let d ← e.attributes.known.foldlM (SubprogramDraft.add u) .empty
  match e.attributes.failure with
  | some err => throw err
  | none => d.function u bias

/-- The variable that an entry describes; one without a name cannot be asked for. -/
def namedVariable? (u : UnitContext) (unitOffset : Nat) (e : Entry) :
    Except DebugError (Option VariableEntry) := do
  let some name ← u.textAttribute? e.attributes AttributeName.name | return none
  let location := (← e.attributes.find? AttributeName.location).bind (·.expression?)
  let typeOffset := match ← e.attributes.find? AttributeName.type with
    | some (.unitReference offset) => some (UInt64.ofNat unitOffset + offset)
    | some (.infoReference offset) => some offset
    | _ => none
  return some ⟨name, location.getD [], typeOffset⟩

/-- The type that an entry describes. The size of a pointer is that of an address. -/
def type (u : UnitContext) (e : Entry) : Except DebugError TypeEntry := do
  let byteSize := match ← e.attributes.find? AttributeName.byteSize with
    | some v => v.unsigned?
    | none =>
      if e.tag = Tag.pointerType then some (UInt64.ofNat u.encoding.addressSize) else none
  return ⟨← u.textAttribute? e.attributes AttributeName.name, byteSize⟩

/-- What an entry adds to the index. -/
def content (u : UnitContext) (unitOffset : Nat) (bias : Addr) (e : Entry) :
    Except DebugError EntryContent := do
  if e.tag = Tag.compileUnit ∨ e.tag = Tag.partialUnit then
    let name ← u.textAttribute? e.attributes AttributeName.name
    let compDir ← u.textAttribute? e.attributes AttributeName.compDir
    return .unit ⟨name, compDir, [], []⟩
  else if e.tag = Tag.subprogram then return .function (← e.subprogram u bias)
  else if e.tag = Tag.plainVariable ∨ e.tag = Tag.formalParameter then
    match ← e.namedVariable? u unitOffset with
    | some v => return .namedVariable v
    | none => return .other
  else if e.tag ∈ Tag.types then return .type (UInt64.ofNat e.offset) (← e.type u)
  else return .other

end Entry

end SourceDebugger.DebugInfo
