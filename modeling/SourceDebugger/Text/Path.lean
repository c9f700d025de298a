/-!
# Paths

The parts of a path that the debugger looks at. Repeated and trailing slashes and the component
`.` name nothing of their own.
-/

namespace SourceDebugger.Text.Path

/-- The pieces of `cs` between the occurrences of `sep`: always at least one. -/
def splitChars (sep : Char) : List Char → List (List Char)
  | [] => [[]]
  | c :: rest =>
    if c = sep then [] :: splitChars sep rest
    else
      match splitChars sep rest with
      | [] => [[c]]
      | piece :: pieces => (c :: piece) :: pieces

/-- Whether a path starts at the root. -/
def isAbsolute (path : String) : Bool := path.toList.head? == some '/'

/-- The components of a path that name something. A leading `.` names the working directory. -/
def components (path : String) : List String :=
  let pieces := (splitChars '/' path.toList).map String.ofList
  match pieces with
  | [] => []
  | first :: rest =>
    let named := rest.filter fun s => s != "" && s != "."
    if first == "" then named else first :: named

/-- The last component of a path, unless it leads upwards or the path names no file. -/
def fileName? (path : String) : Option String :=
  match (components path).getLast? with
  | none => none
  | some last =>
    if last == ".." || last == "." then none else some last

/-- What follows the last dot of the file name, if the name does not start with that dot. -/
def extension? (path : String) : Option String := do
  let name := (← fileName? path).toList
  let after := name.reverse.takeWhile (· != '.')
  if after.length + 1 < name.length then some (String.ofList after.reverse) else none

/-- The file name without its last dot and what follows it, unless the name starts with that dot. -/
def stem? (path : String) : Option String := do
  let name ← fileName? path
  match extension? path with
  | some e => return String.ofList (name.toList.take (name.length - e.length - 1))
  | none => return name

/-- `join base path` is `path` seen from `base`: an absolute path stands for itself, and another
one follows `base` behind a slash, which is only written if `base` does not end with one. -/
def join (base path : String) : String :=
  if isAbsolute path then path
  else if base.isEmpty || base.toList.getLast? == some '/' then base ++ path
  else base ++ "/" ++ path

end SourceDebugger.Text.Path
