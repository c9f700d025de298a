import SourceDebugger.DebugInfo.Attribute
import SourceDebugger.ObjectFile.Contents

/-!
# Sections of the debug information

The sections that entries refer to: texts by their offset or their number, and addresses by their
number.
-/

namespace SourceDebugger.DebugInfo

/-- The contents of the sections. -/
structure Sections where
  /-- The debugging entries. -/
  info : ByteArray
  /-- The descriptions of entries. -/
  abbreviations : ByteArray
  /-- The line tables. -/
  lines : ByteArray
  /-- The strings. -/
  strings : ByteArray
  /-- The strings of the line tables. -/
  lineStrings : ByteArray
  /-- The offsets of strings by number. -/
  stringOffsets : ByteArray
  /-- The addresses by number. -/
  addresses : ByteArray

namespace Sections

/-- The bytes of a section from an offset on. -/
def bytesFrom (data : ByteArray) (offset : Nat) : Except DebugError (List UInt8) :=
  if offset ≤ data.size then .ok (data.extract offset data.size).toList
  else .error (.debugFormat "offset outside of its section")

/-- Runs a reader on the bytes of a section from an offset on. -/
def readAt {α : Type} (data : ByteArray) (offset : Nat) (x : Read α) : Except DebugError α := do
  let bytes ← bytesFrom data offset
  match x (ByteReader.ofList bytes) with
  | (.ok a, _) => return a
  | (.error e, _) => throw (asDebugFormat e)

/-- The number of bytes up to the next NUL from a position on. -/
def lengthToNul? (data : ByteArray) (start : Nat) : Nat → Nat → Option Nat
  | 0, _ => none
  | fuel + 1, n =>
    if h : start + n < data.size then
      if data[start + n] = 0 then some n else lengthToNul? data start fuel (n + 1)
    else none

/-- The text at an offset of a section of strings. -/
def textAt (data : ByteArray) (offset : Nat) : Except DebugError (List UInt8) :=
  match lengthToNul? data offset (data.size + 1) 0 with
  | some n => .ok (data.extract offset (offset + n)).toList
  | none => .error (.debugFormat "text without an end")

/-- The sections that can be read, in the order in which they are loaded; a section that is not
there is empty. -/
def loadOrder : List String :=
  [".debug_abbrev", ".debug_addr", ".debug_aranges", ".debug_line_str", ".debug_str",
   ".debug_str_offsets", ".debug_types", ".debug_loc", ".debug_loclists", ".debug_ranges",
   ".debug_rnglists"]

/-- Loads the sections of a file. The entries and the line tables have to be there. -/
def load (file : ObjectFile) : Except DebugError Sections := do
  let info ← file.requireSection ".debug_info"
  let lines ← file.requireSection ".debug_line"
  let others ← loadOrder.mapM fun name => do
    return (name, (← file.loadSection name).getD [])
  let find (name : String) : ByteArray :=
    ⟨(((others.find? (·.1 == name)).map (·.2)).getD []).toArray⟩
  return {
    info := ⟨info.toArray⟩
    abbreviations := find ".debug_abbrev"
    lines := ⟨lines.toArray⟩
    strings := find ".debug_str"
    lineStrings := find ".debug_line_str"
    stringOffsets := find ".debug_str_offsets"
    addresses := find ".debug_addr" }

end Sections

/-- Where the numbered texts and addresses of a unit start. -/
structure Bases where
  /-- The start of its offsets of strings. -/
  strings : Nat
  /-- The start of its addresses. -/
  addresses : Nat
deriving DecidableEq, Inhabited

/-- What the values of a unit refer to. -/
structure UnitContext where
  /-- The sections. -/
  sections : Sections
  /-- How numbers are stored. -/
  encoding : Encoding
  /-- Where its numbered texts and addresses start. -/
  bases : Bases

namespace UnitContext

/-- The text that a value stands for. -/
def textOf (u : UnitContext) (v : AttributeValue) : Except DebugError (List UInt8) :=
  match v with
  | .text bytes => .ok bytes
  | .stringReference offset => Sections.textAt u.sections.strings offset
  | .lineStringReference offset => Sections.textAt u.sections.lineStrings offset
  | .stringIndex i => do
    let size := if u.encoding.wide then 8 else 4
    let offset ← Sections.readAt u.sections.stringOffsets (u.bases.strings + i * size)
      (takeOffset u.encoding.wide)
    Sections.textAt u.sections.strings offset
  | _ => .error (.debugFormat "expected a text")

/-- The address that a value stands for; none if it is no address. -/
def addressOf (u : UnitContext) (v : AttributeValue) : Except DebugError (Option UInt64) :=
  match v with
  | .address a => .ok (some a)
  | .addressIndex i => do
    let size := u.encoding.addressSize
    return some (← Sections.readAt u.sections.addresses (u.bases.addresses + i * size) (takeAddress size))
  | _ => .ok none

end UnitContext

end SourceDebugger.DebugInfo
