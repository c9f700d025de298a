import SourceDebugger.DebugInfo.Abbreviation
import SourceDebugger.DebugInfo.Sections

/-!
# Entries of the debug information

The debug information is a row of units. A unit is a tree of entries, written depth first: the
children of an entry follow it and end with an empty entry.
-/

namespace SourceDebugger.DebugInfo

/-- What precedes the entries of a unit. -/
structure UnitHeader where
  /-- Where the unit starts in its section. -/
  offset : Nat
  /-- How numbers are stored. -/
  encoding : Encoding
  /-- Where the descriptions of its entries start in their section. -/
  abbreviationOffset : Nat
  /-- The distance from the start of the unit to its first entry. -/
  size : Nat
  /-- The bytes of its entries. -/
  entries : List UInt8
deriving DecidableEq, Inhabited

namespace UnitHeader

/-- Takes what only some kinds of units have. -/
def takeKind (wide : Bool) (kind : Nat) : Read Unit :=
  match kind with
  | 1 | 3 => return
  | 2 | 6 => do
    let _ ← ByteReader.uint64
    let _ ← takeOffset wide
    return
  | 4 | 5 => do
    let _ ← ByteReader.uint64
    return
  | _ => malformed "unknown kind of unit"

/-- Takes the header of a unit without its length, and leaves its entries. -/
def takeFields (wide : Bool) : Read (Encoding × Nat) := do
  let version := (← ByteReader.uint16).toNat
  if 2 ≤ version ∧ version ≤ 4 then
    let abbreviations ← takeOffset wide
    return (⟨wide, version, ← takeAddressSize⟩, abbreviations)
  else if version = 5 then
    let kind := (← ByteReader.uint8).toNat
    if kind = 0 ∨ kind > 6 then malformed "unknown kind of unit"
    let addressSize ← takeAddressSize
    let abbreviations ← takeOffset wide
    takeKind wide kind
    return (⟨wide, version, addressSize⟩, abbreviations)
  else malformed "unknown version"

/-- Takes a unit. -/
def take : Read UnitHeader := do
  let start := (← get).position
  let (length, wide) ← takeLength
  let lengthSize := (← get).position - start
  let body ← ByteReader.bytes length
  let behind ← get
  set (ByteReader.ofList body)
  let (encoding, abbreviationOffset) ← takeFields wide
  let inside ← get
  set behind
  return ⟨start, encoding, abbreviationOffset, lengthSize + inside.position, inside.rest⟩

end UnitHeader

/-- An entry of the debug information. -/
structure Entry where
  /-- Where it starts in its section. -/
  offset : Nat
  /-- What kind of entry it is. -/
  tag : Nat
  /-- Its attributes. -/
  attributes : Attributes
deriving DecidableEq, Inhabited

/-! The kinds of entries that are looked at. -/

namespace Tag

def formalParameter : Nat := 0x05
def compileUnit : Nat := 0x11
def partialUnit : Nat := 0x3c
def subprogram : Nat := 0x2e
def plainVariable : Nat := 0x34
def pointerType : Nat := 0x0f

/-- Base types, structures, unions, enumerations, pointers and type names. -/
def types : List Nat := [0x24, 0x13, 0x17, 0x04, 0x0f, 0x16]

end Tag

/-- An entry behind another one: how much deeper it lies, which is negative if it lies higher. -/
abbrev EntryStep := Int × Entry

/-- The entries in some bytes of a unit and the failure that ends them, if one does. The first
entry lies deeper by `delta`. Each entry takes a byte. -/
def entriesFrom (u : UnitHeader) (abbreviations : List Abbreviation) :
    Nat → Int → ByteReader → List EntryStep × Option DebugError
  | 0, _, _ => ([], none)
  | fuel + 1, delta, r =>
    if r.isEmpty then ([], none)
    else
      match ByteReader.uleb128 r with
      | (.error e, _) => ([], some (asDebugFormat e))
      | (.ok code, after) =>
        if code = 0 then entriesFrom u abbreviations fuel (delta - 1) after
        else
          match abbreviations.find? (·.code == code) with
          | none => ([], some (.debugFormat "entry without a description"))
          | some a =>
            let (attributes, behind) := Attributes.take u.encoding a.attributes after
            let step := (delta, ⟨u.offset + u.size + r.position, a.tag, attributes⟩)
            match attributes.failure with
            | some e => ([step], some e)
            | none =>
              let (steps, failure) :=
                entriesFrom u abbreviations fuel (if a.hasChildren then 1 else 0) behind
              (step :: steps, failure)

/-- The entries of a unit, depth first, and the failure that ends them, if one does. -/
def UnitHeader.steps (u : UnitHeader) (abbreviations : List Abbreviation) :
    List EntryStep × Option DebugError :=
  entriesFrom u abbreviations (u.entries.length + 1) 0 (ByteReader.ofList u.entries)

end SourceDebugger.DebugInfo
