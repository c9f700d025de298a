import SourceDebugger.Error
import SourceDebugger.Text.Path

/-!
# Files

The files that the debugger can see: a tree of directories and files, and the directory from which
relative paths start.
-/

namespace SourceDebugger

/-- What is at a path. -/
inductive FileNode where
  /-- A directory. -/
  | directory
  /-- A regular file, and whether it may be executed. -/
  | file (content : List UInt8) (executable : Bool)
deriving DecidableEq, Inhabited

/-- A tree of directories and files. -/
structure FileSystem where
  /-- The directory from which relative paths start. -/
  workingDirectory : String
  /-- What is at the absolute paths, given by their components. -/
  nodes : List (List String × FileNode)
deriving DecidableEq, Inhabited

namespace FileSystem

/-- Takes the steps of a path from a directory on: `.` stays, `..` goes up. Every step has to start
in a directory. -/
def walk (fs : FileSystem) (at_ : List String) : List String → Except Errno (List String × FileNode)
  | [] =>
    if at_.isEmpty then .ok ([], .directory)
    else
      match fs.nodes.find? (·.1 == at_) with
      | some (_, node) => .ok (at_, node)
      | none => .error .enoent
  | step :: rest => do
    let here ←
      if at_.isEmpty then pure FileNode.directory
      else
        match fs.nodes.find? (·.1 == at_) with
        | some (_, node) => pure node
        | none => throw .enoent
    match here with
    | .file _ _ => throw ⟨20⟩
    | .directory =>
      if step = "." ∨ step = "" then walk fs at_ rest
      else if step = ".." then walk fs at_.dropLast rest
      else walk fs (at_ ++ [step]) rest

/-- The steps of a path; a slash at the end asks for a directory. -/
def steps (path : String) : List String :=
  let pieces := (Text.Path.splitChars '/' path.toList).map String.ofList
  let named := pieces.filter (· != "")
  if named.isEmpty then named
  else if pieces.getLast? = some "" then named ++ ["."] else named

/-- Finds what is at a path. -/
def lookup (fs : FileSystem) (path : String) : Except Errno (List String × FileNode) :=
  if path = "" then .error .enoent
  else if Text.Path.isAbsolute path then fs.walk [] (steps path)
  else fs.walk [] (steps fs.workingDirectory ++ steps path)

/-- What is at a path, if there is anything. -/
def node? (fs : FileSystem) (path : String) : Option FileNode :=
  match fs.lookup path with
  | .ok (_, node) => some node
  | .error _ => none

/-- Whether there is anything at a path. -/
def existsAt (fs : FileSystem) (path : String) : Bool := (fs.node? path).isSome

/-- Whether there is a regular file at a path. -/
def isFile (fs : FileSystem) (path : String) : Bool :=
  match fs.node? path with
  | some (.file _ _) => true
  | _ => false

/-- The failure of an operation on files, as it is reported. -/
def failure (e : Errno) : DebugError := .io e.reason

/-- The bytes of the file at a path. -/
def read (fs : FileSystem) (path : String) : Except DebugError (List UInt8) :=
  if path.toList.contains '\x00' then .error (.io "file name contained an unexpected NUL byte")
  else
    match fs.lookup path with
    | .error e => .error (failure e)
    | .ok (_, .directory) => .error (failure ⟨21⟩)
    | .ok (_, .file content _) => .ok content

/-- The text of the file at a path, which has to be valid UTF-8. -/
def readText (fs : FileSystem) (path : String) : Except DebugError String := do
  match String.fromUTF8? ⟨(← fs.read path).toArray⟩ with
  | some text => return text
  | none => throw (.io "stream did not contain valid UTF-8")

/-- The absolute components of a path, without looking at what is there. -/
def absolute (fs : FileSystem) (path : String) : List String :=
  let all := if Text.Path.isAbsolute path then steps path else steps fs.workingDirectory ++ steps path
  all.foldl (fun acc s =>
    if s = "." then acc else if s = ".." then acc.dropLast else acc ++ [s]) []

/-- Puts something at a path, in place of what was there, and the directories that lead to it. -/
def put (fs : FileSystem) (path : String) (node : FileNode) : FileSystem :=
  let target := fs.absolute path
  let parents := (List.range target.length).map target.take |>.filter fun p =>
    !p.isEmpty && (fs.nodes.find? (·.1 == p)).isNone
  { fs with
    nodes := (fs.nodes.filter (·.1 != target)) ++ parents.map (·, FileNode.directory) ++ [(target, node)] }

/-- Removes what is at a path. -/
def remove (fs : FileSystem) (path : String) : FileSystem :=
  let target := fs.absolute path
  { fs with nodes := fs.nodes.filter (·.1 != target) }

/-- The tree that holds only a working directory. -/
def ofWorkingDirectory (path : String) : FileSystem :=
  let fs : FileSystem := ⟨path, []⟩
  fs.put path .directory

end FileSystem

end SourceDebugger
