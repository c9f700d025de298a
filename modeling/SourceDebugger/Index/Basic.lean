import SourceDebugger.Error
import SourceDebugger.Index.SortedMap
import SourceDebugger.Symbol.Demangle

/-!
# The index of the debug information

Compile units, functions with their variables, types, and the table that relates source lines to
addresses. The index is filled once, while the debug information is read; all its addresses are
those of the running program. The line table is kept three times: by file and line, in the order
in which it was filled, and by address.
-/

namespace SourceDebugger

/-- An address that the line table lists for a line. -/
structure LineRecord where
  /-- The address. -/
  addr : Addr
  /-- Whether the compiler marked it as the first one behind the prologue of a function. -/
  prologueEnd : Bool
deriving DecidableEq, Inhabited

/-- A line of a source file. -/
structure SourceLocation where
  /-- The path of the file. -/
  file : String
  /-- The number of the line. -/
  line : UInt64
deriving DecidableEq, Inhabited

/-- File and line with a colon between them. -/
def SourceLocation.text (l : SourceLocation) : String := s!"{l.file}:{l.line.toNat}"

/-- A variable of the program, as the debug information describes it. -/
structure VariableEntry where
  /-- Its name. -/
  name : String
  /-- The expression of its location, empty if it has no single one. -/
  location : List UInt8
  /-- Where the debug information describes its type. -/
  typeOffset : Option UInt64
deriving DecidableEq, Inhabited

/-- What is known of a type. -/
structure TypeEntry where
  /-- Its name, if it has one. -/
  name : Option String
  /-- The number of bytes of its values, if it is known. -/
  byteSize : Option UInt64
deriving DecidableEq, Inhabited

/-- A function of the program. -/
structure FunctionEntry where
  /-- The name, as it stands in the debug information. -/
  name : String
  /-- Its first address. -/
  lowPc : Addr
  /-- The first address behind it. -/
  highPc : Addr
  /-- The expression of its frame base. -/
  frameBase : List UInt8
  /-- The number of the file that declares it. -/
  declFile : UInt64
  /-- Whether it is visible outside of its compile unit. -/
  external : Bool
  /-- The number of its compile unit. -/
  unit : Nat
  /-- Its parameters and local variables. -/
  locals : List VariableEntry
deriving DecidableEq, Inhabited

namespace FunctionEntry

/-- Whether an address lies in the function. -/
def contains (f : FunctionEntry) (pc : Addr) : Bool := f.lowPc ≤ pc && pc < f.highPc

/-- The readable form of its name. -/
def displayName (f : FunctionEntry) : String := Symbol.displayName f.name

end FunctionEntry

/-- A compile unit of the program. -/
structure CompileUnit where
  /-- The path of its source file. -/
  name : Option String
  /-- The directory in which it was compiled. -/
  compDir : Option String
  /-- The numbers of its functions. -/
  functions : List Nat
  /-- The variables outside of any function. -/
  globals : List VariableEntry
deriving DecidableEq, Inhabited

/-- A row of the line table. -/
structure LineRow where
  /-- The address at which the line starts. -/
  addr : Addr
  /-- The number of the file. -/
  file : Nat
  /-- The number of the line. -/
  line : UInt64
  /-- Whether the address is marked as the end of a prologue. -/
  prologueEnd : Bool
deriving DecidableEq, Inhabited

/-- Whether a row counts less than another one, or the same: a lower address, at the same address
no end of a prologue, and otherwise a higher line. -/
def LineRow.le (a b : LineRow) : Bool :=
  -- of two rows for an address, the one behind a prologue counts more, then the lower line
  if a.addr = b.addr then
    if a.prologueEnd = b.prologueEnd then b.line ≤ a.line
    else b.prologueEnd
  else a.addr < b.addr

/-- For every file and every line of it the addresses of the line, in the order in which they were
recorded. -/
abbrev SourceMap := SortedMap String (SortedMap UInt64 (List LineRecord))

/-- The index of the debug information of a program. -/
structure DebugIndex where
  /-- The line table by file and line. -/
  sources : SourceMap
  /-- The functions, in the order of their numbers. -/
  functions : List FunctionEntry
  /-- The compile units, in the order of their numbers. -/
  units : List CompileUnit
  /-- The types by their place in the debug information; a later entry stands before an earlier
  one of the same place. -/
  types : List (UInt64 × TypeEntry)
  /-- The address ranges that the line table covers. -/
  sequences : List (Addr × Addr)
  /-- The paths of the files, in the order of their numbers. -/
  files : List String
  /-- The rows of the line table, in the order in which they were recorded. -/
  rows : List LineRow
  /-- The rows of the line table from the one that counts most to the one that counts least. -/
  rowsByAddr : List LineRow
  /-- The directory from which relative file names are seen. -/
  workingDirectory : String
deriving DecidableEq, Inhabited

namespace DebugIndex

/-- The index without entries. -/
def empty (workingDirectory : String) : DebugIndex :=
  ⟨[], [], [], [], [], [], [], [], workingDirectory⟩

/-- Adds a compile unit. -/
def addUnit (index : DebugIndex) (unit : CompileUnit) : DebugIndex :=
  { index with units := index.units ++ [unit] }

/-- Adds a function to its compile unit, which has to be there. -/
def addFunction? (index : DebugIndex) (f : FunctionEntry) : Option DebugIndex :=
  if f.unit < index.units.length then
    some { index with
      units := index.units.modify f.unit fun u =>
        { u with functions := u.functions ++ [index.functions.length] }
      functions := index.functions ++ [f] }
  else none

/-- Adds a variable to a function, which has to be there. -/
def addVariable? (index : DebugIndex) (function : Nat) (v : VariableEntry) : Option DebugIndex :=
  if function < index.functions.length then
    some { index with
      functions := index.functions.modify function fun f => { f with locals := f.locals ++ [v] } }
  else none

/-- Adds a variable to a compile unit, which has to be there. -/
def addGlobal? (index : DebugIndex) (unit : Nat) (v : VariableEntry) : Option DebugIndex :=
  if unit < index.units.length then
    some { index with
      units := index.units.modify unit fun u => { u with globals := u.globals ++ [v] } }
  else none

/-- Adds a type, in place of an earlier one with the same place. -/
def addType (index : DebugIndex) (offset : UInt64) (entry : TypeEntry) : DebugIndex :=
  { index with types := (offset, entry) :: index.types }

/-- Enters a row among rows that are ordered from the one that counts most: before all that do
not count more. -/
def insertRow (row : LineRow) : List LineRow → List LineRow
  | [] => [row]
  | r :: rest => if r.le row then row :: r :: rest else r :: insertRow row rest

/-- The number of a file, and the files with it. -/
def internFile (files : List String) (file : String) : List String × Nat :=
  match files.findIdx? (· == file) with
  | some id => (files, id)
  | none => (files ++ [file], files.length)

/-- Records one row of the line table. -/
def addLineRecord (index : DebugIndex) (file : String) (line : UInt64) (addr : Addr)
    (prologueEnd : Bool) : DebugIndex :=
  let (files, id) := internFile index.files file
  let row : LineRow := ⟨addr, id, line, prologueEnd⟩
  { index with
    files
    sources := SortedMap.update index.sources file [] fun lines =>
      SortedMap.update lines line [] (· ++ [⟨addr, prologueEnd⟩])
    rows := index.rows ++ [row]
    rowsByAddr := insertRow row index.rowsByAddr }

/-- Records that the line table covers the addresses from `first` up to, but not including,
`behind`. -/
def addSequence (index : DebugIndex) (first behind : Addr) : DebugIndex :=
  { index with sequences := index.sequences ++ [(first, behind)] }

end DebugIndex

end SourceDebugger
