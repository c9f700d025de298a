import SourceDebugger.DebugInfo.Attribute

/-!
# Abbreviations

The descriptions of entries: each entry names one by its code.
-/

namespace SourceDebugger.DebugInfo

/-- The description of an entry. -/
structure Abbreviation where
  /-- Its code. -/
  code : UInt64
  /-- What kind of entry it describes. -/
  tag : Nat
  /-- Whether such an entry has children. -/
  hasChildren : Bool
  /-- The attributes of such an entry. -/
  attributes : List AttributeSpec
deriving DecidableEq, Inhabited

namespace Abbreviation

/-- Takes the descriptions of attributes up to the end mark. Each takes at least two bytes. -/
def takeSpecs : Nat → Read (List AttributeSpec)
  | 0 => malformed "attributes without an end"
  | fuel + 1 => do
    let name ← takeShort
    let form ← takeShort
    if name = 0 then
      if form = 0 then return [] else malformed "form without a name"
    else if form = 0 then malformed "name without a form"
    else
      let constant ← if form = 0x21 then do pure (some (← takeSigned)) else pure none
      return ⟨name, form, constant⟩ :: (← takeSpecs fuel)

/-- Takes descriptions up to the end mark. A code stands for one description only. -/
def takeAll : Nat → List Abbreviation → Read (List Abbreviation)
  | 0, _ => malformed "abbreviations without an end"
  | fuel + 1, known => do
    let code ← ByteReader.uleb128
    if code = 0 then return known.reverse
    let tag ← takeShort
    if tag = 0 then malformed "entry without a tag"
    let children ← ByteReader.uint8
    if children > 1 then malformed "neither with nor without children"
    let attributes ← takeSpecs ((← get).remaining + 1)
    if known.any (·.code == code) then malformed "two descriptions with one code"
    takeAll fuel (⟨code, tag, children = 1, attributes⟩ :: known)

/-- Reads the descriptions at the start of `bytes`. -/
def readAll (bytes : List UInt8) : Except DebugError (List Abbreviation) :=
  match takeAll (bytes.length + 1) [] (ByteReader.ofList bytes) with
  | (.ok as, _) => .ok as
  | (.error e, _) => .error (asDebugFormat e)

end Abbreviation

end SourceDebugger.DebugInfo
