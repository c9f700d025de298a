import SourceDebugger.DebugInfo.Content
import SourceDebugger.DebugInfo.LineTable

/-!
# Building the index

Each unit of the debug information is walked once. The variables below a function, at any depth,
belong to the innermost such function, and those outside of any function are global.
-/

namespace SourceDebugger.DebugInfo

/-- The state of a walk through a unit. -/
structure Walk where
  /-- What was indexed so far. -/
  index : DebugIndex
  /-- The depth of the last entry. -/
  depth : Int
  /-- The functions that contain the last entry, the innermost first, with their depths. -/
  enclosing : List (Nat × Int)

namespace Walk

/-- Moves to an entry that lies deeper by `delta`: functions at that depth or below it are left. -/
def descend (w : Walk) (delta : Int) : Walk :=
  let depth := w.depth + delta
  -- a function ends where an entry stands that is not deeper
  { w with depth, enclosing := w.enclosing.dropWhile fun (_, d) => d ≥ depth }

/-- Adds what an entry below the first one says to the index. -/
def add (unit : Nat) (w : Walk) : EntryContent → Except DebugError Walk
  | .function f =>
    let number := w.index.functions.length
    match w.index.addFunction? { f with unit } with
    | some index => .ok { w with index, enclosing := (number, w.depth) :: w.enclosing }
    | none => .ok w
  | .namedVariable v =>
    let index := match w.enclosing with
      | (function, _) :: _ => w.index.addVariable? function v
      | [] => w.index.addGlobal? unit v
    -- a variable whose owner is not there is left out
    .ok { w with index := index.getD w.index }
  | .type offset t => .ok { w with index := w.index.addType offset t }
  | .unit _ => .error (.malformedDebugInfo "nested compile unit entry")
  | .other => .ok w

/-- Walks over an entry below the first one. -/
def step (u : UnitContext) (unitOffset : Nat) (bias : Addr) (unit : Nat) (w : Walk)
    (s : EntryStep) : Except DebugError Walk := do
  (w.descend s.1).add unit (← s.2.content u unitOffset bias)

end Walk

/-- Adds a row of a line table to the index; `start` is where the sequence started to which the
row belongs, if it did already. Rows without a line or without a known file are left out. -/
def addRow (u : UnitContext) (h : LineHeader) (bias : Addr) :
    DebugIndex × Option UInt64 → ProgramRow → Except DebugError (DebugIndex × Option UInt64)
  | (index, start), row =>
    if row.endSequence then
      match start with
      | some start => do
        return (index.addSequence (← relocate bias start) (← relocate bias row.address), none)
      | none => .ok (index, none)
    else
      -- the sequence starts at its first row, also if that row is left out
      let start := some (start.getD row.address)
      match row.file with
      | some file =>
        if row.line = 0 then .ok (index, start)
        else do
          let path ← renderFile u h file
          return (index.addLineRecord path row.line (← relocate bias row.address) row.prologueEnd, start)
      | none => .ok (index, start)

/-- Adds the rows of a line table to the index. -/
def addLineTable (u : UnitContext) (bias : Addr) (index : DebugIndex)
    (table : LineHeader × List UInt8) : Except DebugError DebugIndex := do
  let (h, program) := table
  let (rows, failure) := lineRows h .start (program.length + 1) program
  let (index, _) ← rows.foldlM (addRow u h bias) (index, none)
  match failure with
  | some e => throw e
  | none => return index

/-- What the first entry of a unit says about the whole unit. -/
structure UnitRoot where
  /-- What the values of the unit refer to. -/
  context : UnitContext
  /-- The line table of the unit, with the bytes of its program. -/
  lineTable : Option (LineHeader × List UInt8)

namespace UnitRoot

/-- The last value of an attribute with one of some names. -/
def last? (as : Attributes) (names : List AttributeName) : Option AttributeValue :=
  (as.known.reverse.find? fun a => names.contains a.name).map (·.value)

/-- The last value of an attribute with one of some names that is an offset. -/
def lastOffset? (as : Attributes) (names : List AttributeName) : Option Nat :=
  (as.known.reverse.filter fun a => names.contains a.name).findSome? (·.value.sectionOffset?)

/-- Reads what the first entry of a unit says about the whole unit. -/
def ofEntry (sections : Sections) (encoding : Encoding) (e : Entry) : Except DebugError UnitRoot := do
  let as := e.attributes
  if let some err := as.failure then throw err
  let bases : Bases :=
    ⟨(lastOffset? as [AttributeName.stringOffsetsBase]).getD 0,
     (lastOffset? as [AttributeName.addressBase, AttributeName.earlyAddressBase]).getD 0⟩
  let context : UnitContext := ⟨sections, encoding, bases⟩
  let text? (name : AttributeName) : Option (List UInt8) :=
    (last? as [name]).bind fun v => (context.textOf v).toOption
  let lineTable ← match lastOffset? as [AttributeName.lineTable] with
    | none => pure none
    | some offset =>
      -- the program behind the header is read later, when the unit is there
      pure (some (← Sections.readAt sections.lines offset
        (LineHeader.take encoding.addressSize (text? AttributeName.compDir) (text? AttributeName.name))))
  -- the value is not kept; what matters is whether it can be read
  if let some v := last? as [AttributeName.lowPc] then
    let _ ← context.addressOf v
  return ⟨context, lineTable⟩

end UnitRoot

/-- Adds a unit to the index. The first entry describes the unit itself. -/
def addUnit (sections : Sections) (bias : Addr) (index : DebugIndex) (h : UnitHeader) :
    Except DebugError DebugIndex := do
  let abbreviations ← Abbreviation.readAll
    (← Sections.bytesFrom sections.abbreviations h.abbreviationOffset)
  match h.steps abbreviations with
  | ([], some e) => throw e
  | ([], none) => throw (.debugFormat "unit without entries")
  | ((delta, root) :: steps, failure) =>
    let r ← UnitRoot.ofEntry sections h.encoding root
    let unit := match ← root.content r.context h.offset bias with
      | .unit u => u
      | _ => ⟨none, none, [], []⟩
    let number := index.units.length
    let index := index.addUnit unit
    let index ← match r.lineTable with
      | some table => addLineTable r.context bias index table
      | none => pure index
    let w ← steps.foldlM (Walk.step r.context h.offset bias number) ⟨index, delta, []⟩
    -- the cursor fails behind the last entry that it gave
    match failure with
    | some e => throw e
    | none => return w.index

/-- Adds the units in the rest of the section of entries; each takes at least a byte. -/
def addUnits (sections : Sections) (bias : Addr) :
    Nat → DebugIndex → ByteReader → Except DebugError DebugIndex
  | 0, index, _ => .ok index
  | fuel + 1, index, r =>
    if r.isEmpty then .ok index
    else
      match UnitHeader.take r with
      | (.error e, _) => .error (asDebugFormat e)
      | (.ok h, r) => do addUnits sections bias fuel (← addUnit sections bias index h) r

end SourceDebugger.DebugInfo

namespace SourceDebugger

/-- The index of the debug information of a program that is loaded with a bias. -/
def DebugIndex.build (workingDirectory : String) (file : ObjectFile) (bias : Addr) :
    Except DebugError DebugIndex := do
  let sections ← DebugInfo.Sections.load file
  DebugInfo.addUnits sections bias (sections.info.size + 1) (.empty workingDirectory)
    (ByteReader.ofList sections.info.toList)

end SourceDebugger
