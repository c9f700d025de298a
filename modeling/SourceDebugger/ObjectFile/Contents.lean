import SourceDebugger.Compression.Section
import SourceDebugger.ObjectFile.Basic

/-!
# Section contents

The plain contents of a section by its name, whichever way it is compressed.
-/

namespace SourceDebugger.ObjectFile

/-- The flag of a section with a compression header. -/
def compressedFlag : Nat := 0x800

/-- The plain contents of a compressed stream that announces their size: at most that many bytes. -/
def inflateAnnounced (stream : List UInt8) (size : Nat) : Except DebugError (List UInt8) :=
  match Compression.inflate stream (some size) .nothing with
  | (output, .finished) | (output, .full) => .ok output
  | _ => malformed "Invalid zlib compressed data"

/-- The plain contents of a section. -/
def plainContents (layout : ObjectLayout) (s : Section) : Except DebugError (List UInt8) := do
  let some data := s.data | malformed "Invalid ELF section size or offset"
  if s.flags / compressedFlag % 2 = 1 then
    let lengths := if layout.wide then [4, 4, 8, 8] else [4, 4, 4]
    match fields? layout ⟨data.toArray⟩ 0 lengths with
    | none => malformed "Invalid ELF compressed section offset"
    | some f =>
      if s.type = noBits then malformed "Invalid ELF compressed section type"
      else if f.getD 0 0 ≠ 1 then malformed "Unsupported ELF compression type"
      else inflateAnnounced (data.drop (lengths.foldl (· + ·) 0)) (f.getD (if layout.wide then 2 else 1) 0)
  else if (s.name.map fun n => ".zdebug_".toList.isPrefixOf n.toList).getD false then
    if s.type = noBits ∨ data.length < Compression.sectionHeaderLength ∨
        data.take 8 ≠ Compression.sectionMark ++ [0, 0, 0, 0] then
      malformed "Invalid GNU compressed section header"
    else
      inflateAnnounced (data.drop Compression.sectionHeaderLength)
        (Compression.bigEndian ((data.drop 8).take 4))
  else return data

/-- The first section with a name. -/
def sectionNamed? (file : ObjectFile) (name : String) : Option Section :=
  file.sections.find? (·.name == some name)

/-- The plain contents of a section, which may be stored under the name of its compressed form;
none if it is not there in either form. -/
def loadSection (file : ObjectFile) (name : String) : Except DebugError (Option (List UInt8)) :=
  match file.sectionNamed? name with
  | some s => (plainContents file.layout s).map some
  | none =>
    match (Compression.compressedName? name).bind file.sectionNamed? with
    | none => .ok none
    | some s =>
      match s.data with
      | none => malformed "Invalid ELF section size or offset"
      | some data => (Compression.inflateSection data).map some

/-- The plain contents of a section that has to be there. -/
def requireSection (file : ObjectFile) (name : String) : Except DebugError (List UInt8) := do
  match ← file.loadSection name with
  | some data => return data
  | none => throw (.missingSection name)

end SourceDebugger.ObjectFile
