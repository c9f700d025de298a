import SourceDebugger.Text.Path

/-!
# Kinds of source files

The source files that the debugger can build by itself before it debugs them.
-/

namespace SourceDebugger

/-- A kind of source file that can be built. -/
inductive SourceKind where
  | go | c
deriving DecidableEq, Inhabited

namespace SourceKind

/-- The kind that the extension of a path stands for. -/
def ofPath? (path : String) : Option SourceKind :=
  match Text.Path.extension? path with
  | some "go" => some go
  | some "c" => some c
  | _ => none

end SourceKind

end SourceDebugger
