import SourceDebugger.Error
import SourceDebugger.Text.Utf8

/-!
# Object files

The layout of an executable file: a header, the segments from which a program is loaded, and the
named sections. Files of both word sizes and both byte orders are read.
-/

namespace SourceDebugger

/-- The word size and the byte order of an object file. -/
structure ObjectLayout where
  /-- Whether words have 64 bits instead of 32. -/
  wide : Bool
  /-- Whether the highest byte of a number comes first. -/
  bigEndian : Bool
deriving DecidableEq, Inhabited

/-- A part of an object file that is loaded into memory or describes the program. -/
structure Segment where
  /-- What the segment is for. -/
  type : Nat
  /-- Whether its memory may be read, written and executed. -/
  flags : Nat
  /-- Where its contents start in the file. -/
  offset : Nat
  /-- Where it starts in memory. -/
  address : Nat
  /-- The length of its contents in the file. -/
  fileSize : Nat
  /-- Its length in memory. -/
  memorySize : Nat
deriving DecidableEq, Inhabited

/-- A named part of an object file. -/
structure Section where
  /-- Its name, if it has a valid one. -/
  name : Option String
  /-- What it holds. -/
  type : Nat
  /-- Its flags. -/
  flags : Nat
  /-- Its contents, unless they lie outside of the file. -/
  data : Option (List UInt8)
deriving DecidableEq, Inhabited

/-- An object file. -/
structure ObjectFile where
  /-- Its layout. -/
  layout : ObjectLayout
  /-- Whether it is an executable, a library or something else. -/
  type : Nat
  /-- The processor it is for. -/
  machine : Nat
  /-- Where the program starts. -/
  entry : Nat
  /-- Its segments. -/
  segments : List Segment
  /-- Its sections without the first one, which stands for none. -/
  sections : List Section
deriving DecidableEq, Inhabited

namespace ObjectFile

/-- The type of a program that can be loaded at any address. -/
def dynamicType : Nat := 3

/-- Whether the program can be loaded at any address. -/
def isDynamic (file : ObjectFile) : Bool := file.type = dynamicType

/-- The failure to read a file. -/
def malformed {α : Type} (what : String) : Except DebugError α := .error (.objectFormat what)

/-- The bytes of a file at an offset, if they all are there. -/
def slice? (data : ByteArray) (offset size : Nat) : Option ByteArray :=
  if offset ≤ data.size ∧ offset + size ≤ data.size then some (data.extract offset (offset + size))
  else none

/-- The number in some bytes. -/
def number (layout : ObjectLayout) (bytes : List UInt8) : Nat :=
  let ordered := if layout.bigEndian then bytes else bytes.reverse
  ordered.foldl (fun n b => 256 * n + b.toNat) 0

/-- A record of fields with fixed lengths, which has to lie inside of the file. -/
def fields? (layout : ObjectLayout) (data : ByteArray) (offset : Nat) (lengths : List Nat) :
    Option (Array Nat) := do
  let bytes := (← slice? data offset (lengths.foldl (· + ·) 0)).toList
  let rec go : List Nat → List UInt8 → List Nat
    | [], _ => []
    | n :: ns, bytes => number layout (bytes.take n) :: go ns (bytes.drop n)
  return (go lengths bytes).toArray

/-- A section as its header describes it. -/
structure SectionHeader where
  /-- The place of its name among the names. -/
  name : Nat
  /-- What it holds. -/
  type : Nat
  /-- Its flags. -/
  flags : Nat
  /-- Where its contents start in the file. -/
  offset : Nat
  /-- The length of its contents. -/
  size : Nat
  /-- The number of a section that belongs to it. -/
  link : Nat
  /-- Another number, the meaning of which depends on the type. -/
  info : Nat
deriving DecidableEq, Inhabited

/-- The types of sections that are looked at. -/
def noBits : Nat := 8
def symbolTable : Nat := 2
def stringTable : Nat := 3
def relocationsWithAddend : Nat := 4
def relocations : Nat := 9
def dynamicSymbols : Nat := 11
def symbolSections : Nat := 18

/-- The lengths of the fields of a section header. -/
def sectionFieldLengths (layout : ObjectLayout) : List Nat :=
  if layout.wide then [4, 4, 8, 8, 8, 8, 4, 4, 8, 8] else [4, 4, 4, 4, 4, 4, 4, 4, 4, 4]

/-- The lengths of the fields of a segment header. -/
def segmentFieldLengths (layout : ObjectLayout) : List Nat :=
  if layout.wide then [4, 4, 8, 8, 8, 8, 8, 8] else [4, 4, 4, 4, 4, 4, 4, 4]

/-- The header of the section at an offset. -/
def sectionHeader? (layout : ObjectLayout) (data : ByteArray) (offset : Nat) :
    Option SectionHeader := do
  let f ← fields? layout data offset (sectionFieldLengths layout)
  return ⟨f.getD 0 0, f.getD 1 0, f.getD 2 0, f.getD 4 0, f.getD 5 0, f.getD 6 0, f.getD 7 0⟩

/-- The header of the segment at an offset. -/
def segment? (layout : ObjectLayout) (data : ByteArray) (offset : Nat) : Option Segment := do
  let f ← fields? layout data offset (segmentFieldLengths layout)
  let g (i : Nat) := f.getD i 0
  return if layout.wide then ⟨g 0, g 1, g 2, g 3, g 5, g 6⟩ else ⟨g 0, g 6, g 1, g 2, g 4, g 5⟩

/-- The headers of a table that has to lie inside of the file. -/
def table? {α : Type} (data : ByteArray) (offset count size : Nat) (readAt : Nat → Option α) :
    Option (List α) :=
  if offset ≤ data.size ∧ offset + count * size ≤ data.size then
    (List.range count).mapM fun i => readAt (offset + i * size)
  else none

/-- The contents of a section: none that has none in the file, and a failure where they lie outside
of it. -/
def contents? (data : ByteArray) (h : SectionHeader) : Option (List UInt8) :=
  if h.type = noBits then some [] else (slice? data h.offset h.size).map ByteArray.toList

/-- The name at a place of a table of names: up to the next NUL before the end of the table. -/
def nameAt? (data : ByteArray) (names : Option (Nat × Nat)) (place : Nat) : Option String := do
  let (first, behind) ← names
  let start := first + place
  if start > data.size ∨ behind < start then none
  else
    let bytes := (data.extract start behind).toList
    let len ← bytes.findIdx? (· == 0)
    String.fromUTF8? ⟨(bytes.take len).toArray⟩

/-- The checks on a symbol table: its contents and its names have to be there. -/
def checkSymbols (data : ByteArray) (headers : List SectionHeader) (type : Nat) :
    Except DebugError Nat :=
  match headers.findIdx? (·.type == type) with
  | none => .ok 0
  | some i =>
    let h := headers.getD i default
    let namesValid :=
      h.link == 0 ||
        match headers[h.link]? with
        | some names => names.type == stringTable
        | none => false
    let indexesValid := headers.all fun s =>
      s.type != symbolSections || s.link != i || (contents? data s).isSome
    if (contents? data h).isNone then malformed "Invalid ELF symbol table data"
    else if !namesValid then malformed "Invalid ELF section index"
    else if !indexesValid then malformed "Invalid ELF symtab_shndx data"
    else .ok i

/-- The checks on relocations: those for the symbol table have to be for an existing section. -/
def checkRelocations (headers : List SectionHeader) (symbols : Nat) : Except DebugError Unit :=
  if headers.all fun h =>
      (h.type != relocations && h.type != relocationsWithAddend) || h.link != symbols || h.info = 0 ||
        h.info < headers.length then .ok ()
  else malformed "Invalid ELF sh_info for relocation section"

/-- Reads a table whose headers have to have the right size. -/
def readTable {α : Type} (data : ByteArray) (what : String) (offset count given size : Nat)
    (readAt : Nat → Option α) : Except DebugError (List α) :=
  if offset = 0 ∨ count = 0 then .ok []
  else if given ≠ size then malformed s!"Invalid ELF {what} header entry size"
  else
    match table? data offset count size readAt with
    | some entries => .ok entries
    | none => malformed s!"Invalid ELF {what} header offset/size/alignment"

/-- Reads an object file. -/
def parse (data : ByteArray) : Except DebugError ObjectFile := do
  if data.size < 16 then malformed "File too short"
  let ident := (data.extract 0 16).toList
  let wide := ident.getD 4 0 = 2
  if ident.take 4 ≠ [0x7f, 0x45, 0x4c, 0x46] ∨ ¬ (ident.getD 4 0 = 1 ∨ wide) then
    malformed "Unknown file magic"
  let layout : ObjectLayout := ⟨wide, ident.getD 5 0 = 2⟩
  let w := if wide then 8 else 4
  let some f := fields? layout data 16 [2, 2, 4, w, w, w, 4, 2, 2, 2, 2, 2, 2]
    | malformed "Invalid ELF header size or alignment"
  if ¬ (ident.getD 5 0 = 1 ∨ ident.getD 5 0 = 2) ∨ ident.getD 6 0 ≠ 1 then
    malformed "Unsupported ELF header"
  let segmentOffset := f.getD 4 0
  let sectionOffset := f.getD 5 0
  let sectionSize := (sectionFieldLengths layout).foldl (· + ·) 0
  let first : Except DebugError (Option SectionHeader) :=
    if sectionOffset = 0 then .ok none
    else if f.getD 10 0 ≠ sectionSize then malformed "Invalid ELF section header entry size"
    else
      match sectionHeader? layout data sectionOffset with
      | some h => .ok (some h)
      | none => malformed "Invalid ELF section header offset or size"
  let segmentCount ←
    -- a count that does not fit stands in the first section header
    if segmentOffset = 0 ∨ f.getD 9 0 < 0xffff then pure (f.getD 9 0)
    else
      match ← first with
      | some h => pure h.info
      | none => malformed "Missing ELF section headers for e_phnum overflow"
  let segments ← readTable data "program" segmentOffset segmentCount (f.getD 8 0)
    ((segmentFieldLengths layout).foldl (· + ·) 0) (segment? layout data)
  let sectionCount ←
    if sectionOffset = 0 ∨ f.getD 11 0 > 0 then pure (f.getD 11 0)
    else
      match ← first with
      | some h => pure h.size
      | none => pure 0
  let headers ← readTable data "section" sectionOffset sectionCount (f.getD 10 0) sectionSize
    (sectionHeader? layout data)
  let names ←
    if headers.isEmpty then pure none
    else do
      let index ←
        if f.getD 12 0 ≠ 0xffff then pure (f.getD 12 0)
        else
          match ← first with
          | some h => pure h.link
          -- a number of a section that does not fit stands there as well
          | none => malformed "Missing ELF section headers for e_shstrndx overflow"
      if index = 0 then malformed "Missing ELF e_shstrndx"
      match headers[index]? with
      | none => malformed "Invalid ELF e_shstrndx"
      | some h =>
        if h.type = noBits then pure none
        -- the end of the names has to be an offset
        else if h.offset + h.size ≥ UInt64.size then malformed "Invalid ELF shstrtab size"
        else pure (some (h.offset, h.offset + h.size))
  let symbols ← checkSymbols data headers symbolTable
  let _ ← checkSymbols data headers dynamicSymbols
  checkRelocations headers symbols
  return {
    layout
    type := f.getD 0 0
    machine := f.getD 1 0
    entry := f.getD 3 0
    segments
    sections := (headers.drop 1).map fun h =>
      ⟨nameAt? data names h.name, h.type, h.flags, contents? data h⟩ }

end ObjectFile

end SourceDebugger
