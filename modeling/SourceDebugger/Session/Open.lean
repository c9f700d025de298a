import SourceDebugger.CallFrame.Build
import SourceDebugger.DebugInfo.Build
import SourceDebugger.Session.Basic
import SourceDebugger.TracedChild

/-!
# Opening sessions

From an executable to a session: the file is read, its program is started, and its debug information
is indexed for the addresses at which the program lies.
-/

namespace SourceDebugger.Session

variable {ω : Type} [System ω]

/-- How far the program of a child was moved. -/
def biasOf (file : ObjectFile) : Action (TracedChild ω) Addr :=
  if file.isDynamic then TracedChild.loadBias else return .null

/-- The call frame information of a program, if it has any. -/
def framesOf (file : ObjectFile) (bias : Addr) : Except DebugError (Option FrameIndex) :=
  match FrameIndex.build file bias with
  | .ok frames => .ok (some frames)
  | .error (.missingSection _) => .ok none
  | .error e => .error e

/-- A session for a child that was started from an executable. -/
def ofChild (files : FileSystem) (file : ObjectFile) (child : TracedChild ω) :
    Except DebugError (Session (TracedChild ω)) × ω :=
  match biasOf file child with
  | (.error e, child) => (.error e, child.release)
  | (.ok bias, child) =>
    let known := do
      let index ← DebugIndex.build files.workingDirectory file bias
      return (index, ← framesOf file bias)
    match known with
    | .error e => (.error e, child.release)
    | .ok (index, frames) => (.ok (start child index frames bias files), child.system)

/-- Opens a session for the executable at a path. If that fails, the system is left as it then is. -/
def open_ (files : FileSystem) (path : String) (arguments : List String) (system : ω) :
    Except DebugError (Session (TracedChild ω)) × ω :=
  match (do ObjectFile.parse ⟨(← files.read path).toArray⟩ : Except DebugError ObjectFile) with
  | .error e => (.error e, system)
  | .ok file =>
    match TracedChild.launch path arguments system with
    | (.error e, system) => (.error e, system)
    | (.ok child, _) => ofChild files file child

end SourceDebugger.Session
