import SourceDebugger.SourceKind
import SourceDebugger.System.FileSystem
import SourceDebugger.Text.Blank
import SourceDebugger.Text.Utf8

/-!
# Targets

What the operator names on the command line is an executable or a source file. A source file is
built first, without optimizations, into a temporary file, which is removed again in the end.
-/

namespace SourceDebugger

/-- How a tool ended: its exit status, and what it wrote to the standard error output. -/
structure ToolResult where
  /-- The exit status; zero for success. -/
  status : Nat
  /-- What it wrote to the standard error output. -/
  errorOutput : List UInt8
deriving DecidableEq, Inhabited

/-- The surroundings in which source files are built. -/
structure Workshop where
  /-- The directories in which tools are looked for, in this order. -/
  searchPath : List String
  /-- The directory of temporary files. -/
  temporaryDirectory : String
  /-- The number of the process of the debugger. -/
  processId : Nat
  /-- Executes the tool at a path with arguments, which can change files. -/
  execute : String → List String → FileSystem → ToolResult × FileSystem

/-- An executable that is ready to be debugged. -/
structure Target where
  /-- Its path. -/
  path : String
  /-- Whether it was built, and is to be removed again. -/
  isTemporary : Bool
deriving DecidableEq, Inhabited

namespace SourceKind

/-- The tool that builds source files of a kind. -/
def tool : SourceKind → String
  | go => "go"
  | c => "cc"

/-- The arguments with which the tool builds without optimizations. -/
def arguments (kind : SourceKind) (source output : String) : List String :=
  let options :=
    match kind with
    | go => ["build", "-gcflags", "all=-N -l"]
    | c =>
      ["-g", "-O0", "-fno-omit-frame-pointer", "-fno-asynchronous-unwind-tables", "-no-pie"]
  options ++ ["-o", output, source]

end SourceKind

namespace Target

/-- Fails unless there is a regular file at a path. -/
def checkFile (fs : FileSystem) (path : String) : Except DebugError Unit :=
  if !fs.existsAt path then .error (.executableDoesNotExist path)
  else if !fs.isFile path then .error (.executableIsNotAFile path)
  else .ok ()

/-- The first executable file with a name in the directories of a search path. -/
def findTool? (fs : FileSystem) (searchPath : List String) (name : String) : Option String :=
  (searchPath.map (Text.Path.join · name)).find? fun path =>
    fs.node? path matches some (.file _ true)

/-- The path into which a source file is built. -/
def outputPath (w : Workshop) (source : String) : String :=
  let stem := (Text.Path.stem? source).getD "target"
  Text.Path.join w.temporaryDirectory s!"tdb-{stem}-{w.processId}"

/-- The failure of a tool. -/
def toolFailure (name : String) (r : ToolResult) : DebugError :=
  let words := String.ofList (Text.trim (Text.Utf8.decode r.errorOutput).toList)
  .build s!"{name} failed with exit status: {r.status}: {words}"

/-- Builds a source file. -/
def build (w : Workshop) (fs : FileSystem) (kind : SourceKind) (source output : String) :
    Except DebugError Unit × FileSystem :=
  match findTool? fs w.searchPath kind.tool with
  | none => (.error (.build s!"{kind.tool} is not installed: cannot find binary path"), fs)
  | some tool =>
    let (r, fs) := w.execute tool (kind.arguments source output) fs
    if r.status = 0 then (.ok (), fs) else (.error (toolFailure kind.tool r), fs)

/-- Makes the file that the operator names ready to be debugged: a source file is built, and removed
again in the end unless it is kept. -/
def prepare (w : Workshop) (fs : FileSystem) (path : String) (keep : Bool) :
    Except DebugError Target × FileSystem :=
  match checkFile fs path with
  | .error e => (.error e, fs)
  | .ok () =>
    match SourceKind.ofPath? path with
    | none => (.ok ⟨path, false⟩, fs)
    | some kind =>
      let output := outputPath w path
      match build w fs kind path output with
      | (.error e, fs) => (.error e, fs)
      | (.ok (), fs) => (.ok ⟨output, !keep⟩, fs)

/-- Leaves a target: what was built is removed unless it is kept. -/
def release (t : Target) (fs : FileSystem) : FileSystem :=
  if t.isTemporary then fs.remove t.path else fs

end Target

end SourceDebugger
