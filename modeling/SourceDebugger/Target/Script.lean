import SourceDebugger.Target

/-!
# Scripted tools

Tools that do what a script says, on which building can be rehearsed. They leave behind the
arguments with which they were executed.
-/

namespace SourceDebugger

/-- A tool that does what a script says. -/
structure ScriptedTool where
  /-- Its name. -/
  name : String
  /-- How it ends. -/
  result : ToolResult
  /-- Whether it creates the file that it is asked for. -/
  creates : Bool
deriving DecidableEq, Inhabited

namespace ScriptedTool

/-- Where the arguments of the last tool are kept. -/
def recordPath : String := "/arguments"

/-- The file that arguments ask for. -/
def wantedOutput (arguments : List String) : String :=
  (arguments.dropWhile (· != "-o")).getD 1 ""

/-- Executes the tool of some that lies at a path. -/
def execute (directory : String) (tools : List ScriptedTool) (path : String)
    (arguments : List String) (fs : FileSystem) : ToolResult × FileSystem :=
  match tools.find? fun t => Text.Path.join directory t.name == path with
  | none => (default, fs)
  | some t =>
    let record := ("\x00".intercalate arguments).toUTF8.toList
    let fs := fs.put recordPath (.file record false)
    (t.result, if t.creates then fs.put (wantedOutput arguments) (.file [] true) else fs)

/-- The arguments of the last tool that was executed; none if there was none. -/
def recorded (fs : FileSystem) : List String :=
  match fs.readText recordPath with
  | .ok text => text.splitOn "\x00"
  | .error _ => []

/-- A workshop with some tools in a directory, and the files with these tools in it. -/
def workshop (directory temporaryDirectory : String) (processId : Nat) (tools : List ScriptedTool)
    (fs : FileSystem) : Workshop × FileSystem :=
  let fs := (fs.put directory .directory).put temporaryDirectory .directory
  (⟨[directory], temporaryDirectory, processId, execute directory tools⟩,
    tools.foldl (fun fs t => fs.put (Text.Path.join directory t.name) (.file [] true)) fs)

end ScriptedTool

end SourceDebugger
