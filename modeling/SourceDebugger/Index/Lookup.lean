import SourceDebugger.Index.Basic
import SourceDebugger.Text.Path

/-!
# Lookups in the index

From a file and a line to addresses, from an address to its line and its function, and from a name
to what is visible under it.
-/

namespace SourceDebugger.DebugIndex

/-- The type at a place of the debug information. -/
def typeAt? (index : DebugIndex) (offset : UInt64) : Option TypeEntry :=
  (index.types.find? (·.1 == offset)).map (·.2)

/-- Cuts off every `./` at the start of a path. -/
def withoutDots : List Char → List Char
  | '.' :: '/' :: rest => withoutDots rest
  | cs => cs

/-- The path under which the line table knows a file: the path itself, the path seen from the
working directory, or the only known path that ends with it. -/
def resolveFile? (index : DebugIndex) (file : String) : Option String :=
  let known := SortedMap.keys index.sources
  let joined := Text.Path.join index.workingDirectory file
  if known.contains file then some file
  else if known.contains joined then some joined
  else
    -- a suffix has to start at a directory, so that `b.c` does not name `ab.c`
    let suffix := '/' :: withoutDots file.toList
    match known.filter fun k => suffix.isSuffixOf k.toList with
    | [k] => some k
    | _ => none

/-- The addresses recorded for a line. -/
def recordsOf (index : DebugIndex) (file : String) (line : UInt64) : List LineRecord :=
  match index.resolveFile? file with
  | none => []
  | some known =>
    match SortedMap.find? index.sources known with
    | none => []
    | some lines => (SortedMap.find? lines line).getD []

/-- The first address recorded for a line. -/
def lookupLineAddress (index : DebugIndex) (file : String) (line : UInt64) :
    Except DebugError Addr :=
  match index.recordsOf file line with
  | [] => .error (.noSuchSourceLine file line)
  | r :: _ => .ok r.addr

/-- The lowest address of some records. -/
def lowestAddr? : List LineRecord → Option Addr
  | [] => none
  | r :: rest => some (rest.foldl (fun a r => if r.addr < a then r.addr else a) r.addr)

/-- The address at which a breakpoint on a line traps: the first one that ends a prologue, so that
the frame is set up there, and otherwise the lowest one, if that is not null. -/
def lookupBreakpointAddress (index : DebugIndex) (file : String) (line : UInt64) :
    Except DebugError Addr :=
  let records := index.recordsOf file line
  match records.find? (·.prologueEnd) with
  | some r => .ok r.addr
  | none =>
    match lowestAddr? records with
    -- a null address belongs to code that was left out of the program
    | some a => if a.isNull then .error (.noSuchSourceLine file line) else .ok a
    | none => .error (.noSuchSourceLine file line)

/-- The first function that contains an address. -/
def functionContaining? (index : DebugIndex) (pc : Addr) : Option FunctionEntry :=
  index.functions.find? (·.contains pc)

/-- The first function that contains an address, or the failure to find one. -/
def functionContaining (index : DebugIndex) (pc : Addr) : Except DebugError FunctionEntry :=
  match index.functionContaining? pc with
  | some f => .ok f
  | none => .error (.noSuchFunction pc)

/-- The functions with code that have a name, in either of its forms. -/
def functionsNamed (index : DebugIndex) (name : String) : List FunctionEntry :=
  index.functions.filter fun f => !f.lowPc.isNull && (f.name == name || f.displayName == name)

/-- The failure to find a line for an address, or the line. An address belongs to the nearest row
at or below it; between rows of one address the order of the rows decides. An address outside of
every range that the line table covers belongs to no line. -/
def resolveAddress (index : DebugIndex) (pc : Addr) : Except DebugError SourceLocation :=
  -- without any range, as in an index built by hand, every address is looked at
  if !index.sequences.isEmpty && !index.sequences.any (fun (s, e) => s ≤ pc && pc < e) then
    .error (.noLineInfo pc)
  else
    match index.rowsByAddr.find? (·.addr ≤ pc) with
    | none => .error (.noLineInfo pc)
    | some row => .ok ⟨index.files.getD row.file "", row.line⟩

/-- All records of the line table with their places, by file, line and order of recording. -/
def allRecords (index : DebugIndex) : List (SourceLocation × LineRecord) :=
  index.sources.flatMap fun (file, lines) =>
    lines.flatMap fun (line, records) => records.map fun r => (⟨file, line⟩, r)

/-- The entry with the lowest address; of several the first. -/
def lowestRecord? : List (SourceLocation × LineRecord) → Option (SourceLocation × LineRecord)
  | [] => none
  | e :: rest => some (rest.foldl (fun m e => if e.2.addr < m.2.addr then e else m) e)

/-- The line on which a breakpoint for a function belongs: that of the first address that ends a
prologue in it, and otherwise that of its first address. -/
def functionEntry (index : DebugIndex) (f : FunctionEntry) : Except DebugError SourceLocation :=
  match lowestRecord? (index.allRecords.filter fun (_, r) => r.prologueEnd && f.contains r.addr) with
  | some (location, _) => .ok location
  | none => index.resolveAddress f.lowPc

/-- The first global variable of some units with a name. -/
def globalNamed? (units : List CompileUnit) (name : String) : Option VariableEntry :=
  (units.flatMap (·.globals)).find? (·.name == name)

/-- The variable that a name means at an address: the last such local one of the function, then
a global one of its unit, then one of any unit; with the function at the address. -/
def variableInScope (index : DebugIndex) (pc : Addr) (name : String) :
    Except DebugError (VariableEntry × Option FunctionEntry) :=
  let function := index.functionContaining? pc
  let own := function.bind fun f =>
    -- the innermost block comes last among the locals
    (f.locals.reverse.find? (·.name == name)) <|>
      globalNamed? (index.units[f.unit]?).toList name
  match own <|> globalNamed? index.units name with
  | some v => .ok (v, function)
  | none => .error (.unknownVariable name)

end SourceDebugger.DebugIndex
