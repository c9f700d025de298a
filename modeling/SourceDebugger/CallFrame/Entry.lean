import SourceDebugger.Bytes.Reader
import SourceDebugger.Text.Utf8

/-!
# Call frame information

The section that describes, for every address of the program, how the caller's registers are found.
It is a row of entries behind their lengths: common entries, and descriptions of address ranges
that belong to the common entry before them.
-/

namespace SourceDebugger

/-- A common entry: what the descriptions that follow share. -/
structure CommonEntry where
  /-- The version of the layout. -/
  version : UInt8
  /-- What the producer added, as text. -/
  augmentation : String
  /-- The unit of location advances. -/
  codeAlignment : UInt64
  /-- The unit of factored offsets. -/
  dataAlignment : Int64
  /-- The number of the register that holds the return address. -/
  returnAddressRegister : Nat
  /-- The instructions that set up the default rules. -/
  initialInstructions : List UInt8
deriving DecidableEq, Inhabited

/-- The description of an address range. -/
structure FrameDescription where
  /-- The first address. -/
  first : Addr
  /-- The length of the range. -/
  size : UInt64
  /-- The instructions that change the rules along the range. -/
  instructions : List UInt8
  /-- The number of its common entry. -/
  commonEntry : Nat
deriving DecidableEq, Inhabited

namespace FrameDescription

/-- The last address covered, at most the highest address there is. -/
def last (d : FrameDescription) : Addr := (d.first.add? d.size).getD ⟨0xffffffffffffffff⟩

/-- Whether the range covers an address; both ends belong to it. -/
def covers (d : FrameDescription) (pc : Addr) : Bool := d.first ≤ pc && pc ≤ d.last

end FrameDescription

/-- The call frame information of a program. -/
structure FrameIndex where
  /-- The common entries, in the order of their numbers. -/
  commonEntries : List CommonEntry
  /-- The descriptions, in the order in which they were read. -/
  descriptions : List FrameDescription
  /-- How far the program was moved from the addresses in its file. -/
  bias : Addr
deriving DecidableEq, Inhabited

namespace FrameIndex

/-- The mark of a common entry. -/
def commonEntryMark : UInt32 := 0xffffffff

/-- The length that announces the wide layout. -/
def wideLength : Nat := 0xffffffff

/-- The failure to read the entry at an offset. -/
def badEntry (offset : Nat) (e : DebugError) : DebugError :=
  .malformedDebugInfo s!"bad frame entry at offset {Text.Hex.marked offset}: {e.message}"

/-- Takes the body of a common entry behind its mark. -/
def takeCommonEntry : Read CommonEntry := do
  let version ← ByteReader.uint8
  let augmentation := Text.Utf8.decode (← ByteReader.string)
  if version ≥ 4 then
    let addressSize ← ByteReader.uint8
    let _segmentSize ← ByteReader.uint8
    if addressSize ≠ 8 then
      throw (.malformedDebugInfo s!"address size {addressSize.toNat} is not supported")
  let codeAlignment ← ByteReader.uleb128
  let dataAlignment ← ByteReader.sleb128
  let register ←
    if version = 1 then pure (← ByteReader.uint8).toNat else pure (← ByteReader.uleb128).toNat
  if register ≥ UInt16.size then
    throw (.malformedDebugInfo s!"return address register {register} is out of range")
  return {
    version, augmentation, codeAlignment, dataAlignment
    returnAddressRegister := register
    initialInstructions := (← get).rest }

/-- Reads the body of an entry that starts at `offset` and adds it to the index. -/
def addEntry (index : FrameIndex) (body : List UInt8) (offset : Nat) :
    Except DebugError FrameIndex := do
  let read {α : Type} (x : Read α) (r : ByteReader) : Except DebugError (α × ByteReader) :=
    match x r with
    | (.ok a, r) => .ok (a, r)
    | (.error e, _) => .error (badEntry offset e)
  let (id, r) ← read ByteReader.uint32 (ByteReader.ofList body)
  if id = commonEntryMark then
    let (entry, _) ← read takeCommonEntry r
    return { index with commonEntries := index.commonEntries ++ [entry] }
  -- a description belongs to the common entry before it
  if index.commonEntries.isEmpty then
    throw (.malformedDebugInfo s!"FDE at offset {Text.Hex.marked offset} comes before any CIE")
  let (first, r) ← read ByteReader.uint64 r
  let (size, r) ← read ByteReader.uint64 r
  -- the end of the range has to be an address as well
  let relocated := do
    let sum ← index.bias.add? first
    let _ ← sum.add? size
    return sum
  match relocated with
  | none =>
    throw (.malformedDebugInfo <|
      s!"FDE at offset {Text.Hex.marked offset} with range {Text.Hex.marked first.toNat}" ++
        s!" + {Text.Hex.marked size.toNat} overflows")
  | some first =>
    let description : FrameDescription :=
      -- the common entry is the last one that was read, whatever the entry itself refers to
      { first, size, instructions := r.rest, commonEntry := index.commonEntries.length - 1 }
    return { index with descriptions := index.descriptions ++ [description] }

/-- Reads the entries in `data`, which starts at `offset`, and adds them to the index. A length of
zero separates entries, and less than a length at the end is ignored. -/
def addEntries (index : FrameIndex) (offset : Nat) (data : List UInt8) :
    Except DebugError FrameIndex :=
  if _h : data.length < 4 then .ok index
  else
    let length := littleEndian (data.take 4)
    let behind := data.drop 4
    if length = wideLength then
      .error (.malformedDebugInfo <|
        s!"64 bit call frame information at offset {Text.Hex.marked offset} is not supported")
    else if length = 0 then addEntries index (offset + 4) behind
    else if behind.length < length then
      .error (.malformedDebugInfo s!"truncated frame entry at offset {Text.Hex.marked offset}")
    else
      match index.addEntry (behind.take length) offset with
      | .error e => .error e
      | .ok index => addEntries index (offset + 4 + length) (behind.drop length)
termination_by data.length
decreasing_by all_goals simp only [List.length_drop]; omega

/-- Reads a whole section. -/
def parse (data : List UInt8) (bias : Addr) : Except DebugError FrameIndex :=
  addEntries ⟨[], [], bias⟩ 0 data

/-- The descriptions that answer for an address: those that cover it, and where several do, those
of them that do not end there. -/
def candidates (index : FrameIndex) (pc : Addr) : List FrameDescription :=
  let all := index.descriptions.filter (·.covers pc)
  -- only where several cover the address does it matter who ends there
  if all.length > 1 then all.filter (pc < ·.last) else all

/-- The single description that answers for an address, with its common entry. -/
def covering (index : FrameIndex) (pc : Addr) : Except DebugError (FrameDescription × CommonEntry) :=
  match index.candidates pc with
  | [] => .error (.noCoveringFrame pc)
  | [d] => .ok (d, index.commonEntries.getD d.commonEntry default)
  | _ => .error (.ambiguousFrame pc)

end FrameIndex

end SourceDebugger
