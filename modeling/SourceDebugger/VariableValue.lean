import SourceDebugger.CallFrame.Unwind
import SourceDebugger.Index.Lookup
import SourceDebugger.Location
import SourceDebugger.Tracee

/-!
# Values of variables

The bytes of a variable, found by its name: a local one of the current function or a global one.
-/

namespace SourceDebugger

/-- The value of a variable. -/
structure VariableValue where
  /-- The name of the variable. -/
  name : String
  /-- The name of its type. -/
  typeName : Option String
  /-- Where it lives. -/
  place : Place
  /-- Its bytes. -/
  bytes : List UInt8
deriving DecidableEq, Inhabited

namespace VariableValue

/-- The value as a number without a sign, if it has between one and eight bytes. -/
def unsigned? (v : VariableValue) : Option UInt64 :=
  if 1 ≤ v.bytes.length ∧ v.bytes.length ≤ wordBytes then
    some (UInt64.ofNat (littleEndian v.bytes))
  else none

/-- The value as a number with a sign, if it has between one and eight bytes. -/
def signed? (v : VariableValue) : Option Int64 :=
  v.unsigned?.map fun n => Int64.ofInt ((n.toNat : Int).bmod (1 <<< (8 * v.bytes.length)))

/-- The place of a value. -/
def placeText : Place → String
  | .memory addr => " at " ++ addr.text
  | .register r =>
    match Register.ofDebugNumber? r with
    | some reg => " in " ++ reg.name
    | none => s!" in register {r}"

/-- Name, value, type and place. -/
def text (v : VariableValue) : String :=
  let value := match v.signed?, v.unsigned? with
    | some s, some u => s!"{s.toInt} (unsigned {u.toNat}, {Text.Hex.marked u.toNat})"
    | _, _ => String.join (v.bytes.map fun b => Text.Hex.byte b ++ " ")
  v.name ++ " = " ++ value ++ " [" ++ v.typeName.getD "?" ++ placeText v.place ++ "]"

/-- The number of bytes of a variable whose type has no known size. -/
def defaultSize : Nat := 8

/-- The expression of the frame base that a location needs, if it needs one. -/
def frameBaseExpr (name : String) (op : LocationOp) (f : Option FunctionEntry) :
    Except DebugError (Option (List UInt8)) :=
  match op, f with
  | .frameBaseOffset _, some f => .ok (some f.frameBase)
  | .frameBaseOffset _, none => .error (.noLocation name)
  | _, _ => .ok none

/-- Whether a location needs the canonical frame address. -/
def needsCfa (op : LocationOp) (frameBase : Option (List UInt8)) : Bool :=
  op = .callFrameCfa ||
    match frameBase.map LocationOp.decode with
    | some (.ok .callFrameCfa) => true
    | _ => false

/-- The canonical frame address at the current instruction. -/
def currentCfa (frames : Option FrameIndex) (regs : Registers) : Except DebugError Addr :=
  match frames with
  | none => .error (.missingSection ".debug_frame")
  | some frames => do return (← frames.unwind regs.pc regs).frameBase

variable {σ : Type} [Tracee σ]

/-- The bytes at a place; a register holds at most a word. -/
def bytesAt (p : σ) (regs : Registers) (size : Nat) : Place → Except DebugError (List UInt8)
  | .memory addr => Tracee.readExact p addr size
  | .register r =>
    match regs.getDebug? r with
    | some value => .ok (toLittleEndian (min size wordBytes) value.toNat)
    | none => .error (LocationOp.untracked r)

/-- The value of the variable that a name means at the current instruction. -/
def read (p : σ) (index : DebugIndex) (frames : Option FrameIndex) (bias : Addr) (name : String) :
    Except DebugError VariableValue := do
  let regs ← Tracee.registers p
  let (v, f) ← index.variableInScope regs.pc name
  if v.location.isEmpty then throw (.noLocation name)
  let op ← LocationOp.decode v.location
  let expr ← frameBaseExpr name op f
  let cfa ← if needsCfa op expr then do pure (some (← currentCfa frames regs)) else pure none
  let ctx : LocationContext := ⟨regs, cfa, none, bias⟩
  let frameBase ← match expr with
    | some e => do pure (some (← LocationOp.frameBase e ctx))
    | none => pure none
  let place ← op.place { ctx with frameBase }
  let type := v.typeOffset.bind index.typeAt?
  let size := ((type.bind (·.byteSize)).map (·.toNat)).getD defaultSize
  return ⟨name, type.bind (·.name), place, ← bytesAt p regs size place⟩

end VariableValue

end SourceDebugger
