import SourceDebugger.Program

/-!
# The debugger as a command

Reads the files that a session needs and the lines that the operator types, runs the program on
them, and writes what it wrote.
-/

namespace SourceDebugger.Main

/-- Puts the file at a path into a tree of files, if it can be read. -/
def addFile (fs : FileSystem) (path : String) : IO FileSystem := do
  try
    let content ← IO.FS.readBinFile path
    return fs.put path (.file content.toList true)
  catch _ => return fs

/-- The source files that the debug information of an executable names. -/
def sourcePaths (fs : FileSystem) (path : String) : List String :=
  let index : Except DebugError DebugIndex := do
    let file ← ObjectFile.parse ⟨(← fs.read path).toArray⟩
    DebugIndex.build fs.workingDirectory file .null
  index.toOption.elim [] fun index => index.sources.map (·.1)

/-- The files that a command line needs. -/
def neededFiles (words : List String) : IO FileSystem := do
  let directory ← IO.currentDir
  let fs := FileSystem.ofWorkingDirectory directory.toString
  match CommandLine.parse words with
  | .debug invocation =>
    let fs ← addFile fs invocation.target
    (sourcePaths fs invocation.target).foldlM addFile fs
  | _ => return fs

/-- The lines of a text. -/
def linesOf (text : String) : List String :=
  let lines := text.splitOn "\n"
  if lines.getLast? = some "" then lines.dropLast else lines

/-- A workshop without any tools. -/
def emptyWorkshop : Workshop := ⟨[], "/tmp", 0, fun _ _ fs => (default, fs)⟩

/-- Runs the program for a command line and answers its exit status. -/
def execute (words : List String) : IO UInt32 := do
  let stdin ← IO.getStdin
  let files ← neededFiles words
  let lines ← if ← stdin.isTty then some <$> (linesOf <$> stdin.readToEnd) else pure none
  match Program.run emptyWorkshop (.ofFiles files) words lines with
  | none => return UInt32.ofNat Program.failureStatus
  | some result =>
    let stdout ← IO.getStdout
    stdout.write result.output
    if let some e := result.failure then IO.eprintln ("Error: " ++ e.tag ++ ": " ++ e.message)
    return UInt32.ofNat result.status

end SourceDebugger.Main

/-- Runs the debugger. -/
def main (words : List String) : IO UInt32 := SourceDebugger.Main.execute words
