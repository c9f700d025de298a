import SourceDebugger.DebugInfo.Sections
import SourceDebugger.Text.Path
import SourceDebugger.Text.Utf8

/-!
# Line tables

The program of a unit whose execution gives the rows of its line table, and the paths of the files
that the rows name.
-/

namespace SourceDebugger.DebugInfo

/-- A file of a line table. -/
structure FileEntry where
  /-- Its path, absolute or relative. -/
  path : AttributeValue
  /-- The number of the directory from which the path is seen. -/
  directory : Nat
deriving DecidableEq, Inhabited

/-- What precedes the program of a line table. -/
structure LineHeader where
  /-- How numbers are stored. -/
  encoding : Encoding
  /-- The unit of address advances. -/
  minInstructionLength : Nat
  /-- How many operations an instruction holds. -/
  maxOperations : Nat
  /-- The least line advance of a special opcode. -/
  lineBase : Int
  /-- How many line advances special opcodes have. -/
  lineRange : Nat
  /-- The first special opcode. -/
  opcodeBase : Nat
  /-- How many operands the standard opcodes have. -/
  operandCounts : List UInt8
  /-- The directories. -/
  directories : List AttributeValue
  /-- The files. -/
  files : List FileEntry
  /-- The directory in which the unit was compiled. -/
  compDir : Option (List UInt8)
  /-- The source file of the unit. -/
  compName : Option (List UInt8)
deriving DecidableEq, Inhabited

namespace LineHeader

/-- The directory with a number. Up to version 4 the number zero means the directory in which the
unit was compiled. -/
def directory? (h : LineHeader) (n : Nat) : Option AttributeValue :=
  if h.encoding.version ≤ 4 then
    match n with
    | 0 => h.compDir.map .text
    | n + 1 => h.directories[n]?
  else h.directories[n]?

/-- The file with a number. Up to version 4 the number zero means the source file of the unit. -/
def file? (h : LineHeader) (n : Nat) : Option FileEntry :=
  if h.encoding.version ≤ 4 then
    match n with
    | 0 => h.compName.map fun name => ⟨.text name, 0⟩
    | n + 1 => h.files[n]?
  else h.files[n]?

/-- Takes texts up to an empty one. -/
def takeTexts : Nat → Read (List AttributeValue)
  | 0 => malformed "directories without an end"
  | fuel + 1 => do
    let text ← ByteReader.string
    if text.isEmpty then return []
    return .text text :: (← takeTexts fuel)

/-- Takes what follows the path of a file: its directory, a time and a length. -/
def takeFileBehind (path : List UInt8) : Read FileEntry := do
  let directory ← takeUnsigned
  let _ ← takeUnsigned
  let _ ← takeUnsigned
  return ⟨.text path, directory⟩

/-- Takes files up to an empty path. -/
def takeFiles : Nat → Read (List FileEntry)
  | 0 => malformed "files without an end"
  | fuel + 1 => do
    let path ← ByteReader.string
    if path.isEmpty then return []
    let file ← takeFileBehind path
    return file :: (← takeFiles fuel)

/-- Takes the description of entries, which has to hold exactly one path: pairs of a content and a
form. -/
def takeFormat : Read (List (Nat × Nat)) := do
  let count := (← ByteReader.uint8).toNat
  let format ← (List.range count).mapM fun _ => do
    let content ← takeUnsigned
    return (content, ← takeShort)
  if (format.filter (·.1 == 1)).length ≠ 1 then malformed "entries without a path"
  return format

/-- Takes one entry of a described form: its path and its directory. -/
def takeDescribed (e : Encoding) (format : List (Nat × Nat)) : Read FileEntry :=
  format.foldlM (fun (entry : FileEntry) (content, form) => do
    match ← AttributeValue.takeShared e form with
    | none => malformed "unknown form"
    | some v =>
      if content = 1 then return { entry with path := v }
      else if content = 2 then
        return { entry with directory := (v.unsigned?.map (·.toNat)).getD entry.directory }
      else return entry) ⟨.other, 0⟩

/-- Takes a number of entries of a described form. An entry without bytes can repeat, so `count`
is only trusted as far as there are bytes for the entries. -/
def takeDescribedAll (e : Encoding) (format : List (Nat × Nat)) : Nat → Nat → Read (List FileEntry)
  | _, 0 => return []
  | 0, _ + 1 => malformed "more entries than bytes"
  | fuel + 1, count + 1 => do
    let entry ← takeDescribed e format
    return entry :: (← takeDescribedAll e format fuel count)

/-- Takes the header and the bytes of the program. -/
def take (addressSize : Nat) (compDir compName : Option (List UInt8)) :
    Read (LineHeader × List UInt8) := do
  let (length, wide) ← takeLength
  let body ← ByteReader.bytes length
  -- nothing behind the length belongs to the table, and offsets count from its first byte
  set (ByteReader.ofList body)
  let version := (← ByteReader.uint16).toNat
  if version < 2 ∨ version > 5 then malformed "unknown version"
  -- from version 5 on, the table says itself how long addresses are
  let addressSize ←
    if version ≥ 5 then do
      let size ← takeAddressSize
      if (← ByteReader.uint8) ≠ 0 then malformed "segment selectors"
      pure size
    else pure addressSize
  let encoding : Encoding := ⟨wide, version, addressSize⟩
  let headerLength ← takeOffset wide
  let rest := (← get).rest
  if rest.length < headerLength then malformed "header longer than its table"
  -- the program starts where the header says, whatever else stands in the header
  let program := rest.drop headerLength
  set (ByteReader.ofList (rest.take headerLength))
  let minInstructionLength := (← ByteReader.uint8).toNat
  if minInstructionLength = 0 then malformed "instructions without a length"
  let maxOperations ← if version ≥ 4 then do pure (← ByteReader.uint8).toNat else pure 1
  if maxOperations = 0 then malformed "instructions without operations"
  let _defaultStatement ← ByteReader.uint8
  -- a negative base lets a special opcode go back
  let lineBase := (← ByteReader.uint8).toInt8.toInt
  let lineRange := (← ByteReader.uint8).toNat
  if lineRange = 0 then malformed "no line advances"
  let opcodeBase := (← ByteReader.uint8).toNat
  if opcodeBase = 0 then malformed "no standard opcodes"
  let operandCounts ← ByteReader.bytes (opcodeBase - 1)
  let fuel := (← get).remaining + 1
  let (directories, files) ←
    if version ≤ 4 then do
      let directories ← takeTexts fuel
      pure (directories, ← takeFiles fuel)
    else do
      let format ← takeFormat
      let directories ← takeDescribedAll encoding format fuel (← takeUnsigned)
      let format ← takeFormat
      pure (directories.map (·.path), ← takeDescribedAll encoding format fuel (← takeUnsigned))
  return ({ encoding, minInstructionLength, maxOperations, lineBase, lineRange, opcodeBase,
            operandCounts, directories, files, compDir, compName }, program)

end LineHeader

/-- An instruction of a line table program. -/
inductive LineInstruction where
  /-- Advances address and line and appends a row. -/
  | special (opcode : Nat)
  /-- Appends a row. -/
  | copy
  /-- Advances the address by a number of operations. -/
  | advancePc (operations : UInt64)
  /-- Advances the line. -/
  | advanceLine (delta : Int64)
  /-- Selects a file. -/
  | setFile (file : UInt64)
  /-- Advances the address as the last special opcode does. -/
  | constAddPc
  /-- Advances the address by a number of bytes. -/
  | fixedAddPc (delta : UInt64)
  /-- Marks the end of a prologue. -/
  | prologueEnd
  /-- Ends a sequence of rows. -/
  | endSequence
  /-- Sets the address. -/
  | setAddress (addr : UInt64)
  /-- Adds a file. -/
  | defineFile (file : FileEntry)
  /-- Changes nothing that is looked at. -/
  | other
deriving DecidableEq, Inhabited

namespace LineInstruction

/-- Takes the rest of an extended instruction, whose bytes are framed by a length. -/
def takeExtended (h : LineHeader) : Read LineInstruction := do
  let body ← ByteReader.bytes (← takeUnsigned)
  let after ← get
  set (ByteReader.ofList body)
  let i ← match (← ByteReader.uint8).toNat with
    | 1 => pure endSequence
    | 2 => do pure (setAddress (← takeAddress h.encoding.addressSize))
    | 3 =>
      -- files are not added by the program from version 5 on
      if h.encoding.version ≤ 4 then do
        let path ← ByteReader.string
        pure (defineFile (← LineHeader.takeFileBehind path))
      else pure other
    | 4 => do
      let _ ← ByteReader.uleb128
      pure other
    | _ => pure other
  -- an extended instruction ends where its length says, whatever was read of it
  set after
  return i

/-- Takes an instruction. A standard opcode that is not known has as many operands as the header
says. -/
def take (h : LineHeader) : Read LineInstruction := do
  let opcode := (← ByteReader.uint8).toNat
  if opcode = 0 then takeExtended h
  else if opcode ≥ h.opcodeBase then return special opcode
  else
    match opcode with
    | 1 => return copy
    | 2 => return advancePc (← ByteReader.uleb128)
    | 3 => return advanceLine (← takeSigned)
    | 4 => return setFile (← ByteReader.uleb128)
    | 5 =>
      let _ ← ByteReader.uleb128
      return other
    | 6 | 7 => return other
    | 8 => return constAddPc
    | 9 => return fixedAddPc (← ByteReader.uint16).toUInt64
    | 10 => return prologueEnd
    | 11 => return other
    | 12 =>
      let _ ← ByteReader.uleb128
      return other
    | n =>
      for _ in List.range (h.operandCounts.getD (n - 1) 0).toNat do
        let _ ← ByteReader.uleb128
      return other

end LineInstruction

/-- A row of a line table as its program gives it. -/
structure ProgramRow where
  /-- The address. -/
  address : UInt64
  /-- The line; zero stands for none. -/
  line : UInt64
  /-- The file, if the header lists it. -/
  file : Option FileEntry
  /-- Whether the address ends a prologue. -/
  prologueEnd : Bool
  /-- Whether the row ends its sequence. -/
  endSequence : Bool
deriving DecidableEq, Inhabited

/-- The registers of a line table program. -/
structure LineState where
  /-- Whether rows are dropped because their code was. -/
  dropped : Bool
  /-- The address. -/
  address : UInt64
  /-- The number of the operation inside of an instruction. -/
  operation : UInt64
  /-- The number of the file. -/
  file : UInt64
  /-- The line. -/
  line : UInt64
  /-- Whether the address ends a prologue. -/
  prologueEnd : Bool
deriving DecidableEq, Inhabited

namespace LineState

/-- The registers at the start of a sequence. -/
def start : LineState := ⟨false, 0, 0, 1, 1, false⟩

/-- The sum of an address and a number of bytes, which has to be an address. -/
def addAddress (h : LineHeader) (address delta : UInt64) : Except DebugError UInt64 :=
  if address.toNat + delta.toNat < 1 <<< (8 * h.encoding.addressSize) then .ok (address + delta)
  else .error (.debugFormat "address overflow")

/-- Advances the address by a number of operations. -/
def advance (h : LineHeader) (st : LineState) (operations : UInt64) : Except DebugError LineState :=
  -- the address of code that was dropped means nothing
  if st.dropped then .ok st
  else do
    let length := UInt64.ofNat h.minInstructionLength
    let maxOperations := UInt64.ofNat h.maxOperations
    let total := st.operation + operations
    let (operation, instructions) :=
      if h.maxOperations = 1 then (0, operations) else (total % maxOperations, total / maxOperations)
    return { st with operation, address := ← addAddress h st.address (length * instructions) }

/-- Advances the line; a line before the first becomes zero. -/
def advanceLine (st : LineState) (delta : Int) : LineState :=
  let line := (st.line.toNat : Int) + delta
  { st with line := UInt64.ofNat (if line < 0 then 0 else line.toNat) }

/-- What an instruction does: the header, which can get more files, the registers, and whether a
row is appended and whether that ends the sequence. -/
def step (h : LineHeader) (st : LineState) :
    LineInstruction → Except DebugError (LineHeader × LineState × Option Bool)
  | .special opcode => do
    let adjusted := opcode - h.opcodeBase
    let st := st.advanceLine (h.lineBase + (adjusted % h.lineRange : Nat))
    return (h, ← st.advance h (UInt64.ofNat (adjusted / h.lineRange)), some false)
  | .copy => .ok (h, st, some false)
  | .advancePc n => do return (h, ← st.advance h n, none)
  | .advanceLine n => .ok (h, st.advanceLine n.toInt, none)
  | .setFile n => .ok (h, { st with file := n }, none)
  | .constAddPc => do
    return (h, ← st.advance h (UInt64.ofNat ((255 - h.opcodeBase) / h.lineRange)), none)
  | .fixedAddPc n =>
    if st.dropped then .ok (h, st, none)
    else do return (h, { st with address := ← addAddress h st.address n, operation := 0 }, none)
  | .prologueEnd => .ok (h, { st with prologueEnd := true }, none)
  | .endSequence => .ok (h, st, some true)
  | .setAddress a =>
    -- the linker gives dropped code an address below the last one, or the highest one
    let dropped := a < st.address ∨ a.toNat = 1 <<< (8 * h.encoding.addressSize) - 1
    if dropped then .ok (h, { st with dropped := true }, none)
    else .ok (h, { st with dropped := false, address := a, operation := 0 }, none)
  | .defineFile f => .ok ({ h with files := h.files ++ [f] }, st, none)
  | .other => .ok (h, st, none)

/-- The row that the registers describe. -/
def row (h : LineHeader) (st : LineState) (ends : Bool) : ProgramRow :=
  ⟨st.address, st.line, h.file? st.file.toNat, st.prologueEnd, ends⟩

/-- The registers behind a row. -/
def afterRow (st : LineState) (ends : Bool) : LineState :=
  if ends then start else { st with prologueEnd := false }

end LineState

/-- Executes a program: its rows, and why it could not be executed to its end, if it could not. Each
instruction takes a byte. -/
def lineRows (h : LineHeader) (st : LineState) :
    Nat → List UInt8 → List ProgramRow × Option DebugError
  | 0, _ => ([], none)
  | _, [] => ([], none)
  | fuel + 1, bytes =>
    match LineInstruction.take h (ByteReader.ofList bytes) with
    | (.error e, _) => ([], some (asDebugFormat e))
    | (.ok i, r) =>
      match st.step h i with
      | .error e => ([], some e)
      | .ok (h, st, none) => lineRows h st fuel r.rest
      | .ok (h, st, some ends) =>
        -- the header may have got another file, so the row is made with the new one
        let (rows, failure) := lineRows h (st.afterRow ends) fuel r.rest
        (if st.dropped then rows else st.row h ends :: rows, failure)

/-- Appends a component to a path: an absolute one replaces it, and another one follows behind a
slash. -/
def pushPath (path part : String) : String :=
  if Text.Path.isAbsolute part || path.isEmpty then part
  else if path.toList.getLast? = some '/' then path ++ part
  else path ++ "/" ++ part

/-- The path of a file of a line table: the directory of the compilation, the directory of the file
and its own path, joined. The first directory of version 5 is that of the compilation itself. -/
def renderFile (u : UnitContext) (h : LineHeader) (f : FileEntry) : Except DebugError String := do
  let base := (h.compDir.map Text.Utf8.decode).getD ""
  let directory ←
    -- the directory 0 of version 5 is the base; up to version 4 it is looked up like the others
    if f.directory ≠ 0 ∨ h.encoding.version < 5 then
      match h.directory? f.directory with
      | some v => pure (pushPath base (Text.Utf8.decode (← u.textOf v)))
      | none => pure base
    else pure base
  return pushPath directory (Text.Utf8.decode (← u.textOf f.path))

end SourceDebugger.DebugInfo
