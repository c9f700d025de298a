import SourceDebugger.Session.Handle

/-!
# Dialogues

A session takes commands from whoever drives it until they leave. Each command is answered, also
one that fails; the process is ended at the end.
-/

namespace SourceDebugger

/-- Someone who drives a session and whose state is described by `υ`. -/
class Operator (υ : Type) where
  /-- The next command, after what the program has written so far and the answer to the last
  command. -/
  next : ByteArray → Feedback → Action υ Command

namespace Session

variable {σ υ : Type} [Tracee σ] [Operator υ]

/-- Takes commands after an answer until the operator leaves. It fails if the operator does, or if
the process cannot be ended. What the program has written is seen by `written`. -/
def converseFrom (written : σ → ByteArray) (stepFuel : Nat) : Nat → Feedback → υ → Session σ →
    Option (Except DebugError Unit × υ × Session σ)
  | 0, _, _, _ => none
  | fuel + 1, feedback, operator, s =>
    match Operator.next (written s.process) feedback operator with
    | (.error e, operator) => some (.error e, operator, s)
    | (.ok .quit, operator) =>
      match (cleanup : Task σ Unit) s with
      | none => none
      | some (result, s) => some (result, operator, s)
    | (.ok command, operator) =>
      match (handle stepFuel command : Task σ Feedback) s with
      | none => none
      | some (result, s) => converseFrom written stepFuel fuel (.ofResult result) operator s

/-- A whole dialogue. -/
def converse (written : σ → ByteArray) (fuel : Nat) (operator : υ) (s : Session σ) :
    Option (Except DebugError Unit × υ × Session σ) :=
  converseFrom written fuel fuel .done operator s

end Session

end SourceDebugger
