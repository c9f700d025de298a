import SourceDebugger.CallFrame.Unwind
import SourceDebugger.ObjectFile.Contents

/-!
# Call frame information of a program

The call frame information of a program stands in a section of its own.
-/

namespace SourceDebugger

/-- The call frame information of a program that is loaded with a bias. -/
def FrameIndex.build (file : ObjectFile) (bias : Addr) : Except DebugError FrameIndex := do
  FrameIndex.parse (← file.requireSection ".debug_frame") bias

end SourceDebugger
