import SourceDebugger.Machine.Execute
import SourceDebugger.Proofs.Unwind
import SourceDebugger.Proofs.UnitWalk
import SourceDebugger.Proofs.WordMemory
import SourceDebugger.VariableValue

/-!
# The place of a variable

Where a variable is, in terms of what its location expression says: relations between operations,
frame bases and places, which know nothing of the order in which the evaluation asks for registers,
frame bases and the canonical frame address.

* `LocationOp.place_eq_ok_iff`, `LocationOp.frameBase_eq_ok_iff`: the evaluation finds the places
  that the operations mean.
* `VariableValue.placeAsked_eq`: to unwind the frame only for a location that asks for it comes to
  the same place as to unwind it for every location.
* `VariableValue.read_located`: what is read of a variable is the contents of its place.
-/

namespace SourceDebugger

/-- An address lies at an offset from another one, in an address space that wraps around. -/
def Addr.LiesAt (addr base : Addr) (offset : Int64) : Prop :=
  (addr.toNat : Int) = (base.toNat + offset.toInt) % 2 ^ 64

/-- An address at an offset is the one that lies there, around the end of the address space. -/
theorem Addr.offset_eq_iff {addr base : Addr} {offset : Int64} :
    base.offset offset = addr ↔ addr.LiesAt base offset := by
  have hword : (offset.toUInt64.toNat : Int) = offset.toInt % 2 ^ 64 := by
    show (offset.toBitVec.toNat : Int) = offset.toBitVec.toInt % 2 ^ 64
    have hlt := offset.toBitVec.isLt
    rw [BitVec.toInt_eq_toNat_cond]
    split <;> omega
  have hoffset : ((base.offset offset).toNat : Int) = (base.toNat + offset.toInt) % 2 ^ 64 := by
    show ((base.val + offset.toUInt64).toNat : Int) = (base.val.toNat + offset.toInt) % 2 ^ 64
    rw [UInt64.toNat_add]
    omega
  rw [LiesAt, ← hoffset, Int.natCast_inj, toNat_inj]
  exact eq_comm

/-- The first bytes of a number are those of its word. -/
theorem toLittleEndian_min (size : Nat) (value : UInt64) :
    toLittleEndian (min size wordBytes) value.toNat = (wordBytesOf value).take size := by
  have htake : ∀ count n size, toLittleEndian (min size count) n =
      (toLittleEndian count n).take size := by
    intro count
    induction count with
    | zero => intro n size; simp [toLittleEndian]
    | succ count ih =>
      intro n size
      rcases size with _ | size
      · simp [toLittleEndian]
      · rw [Nat.succ_min_succ, toLittleEndian, toLittleEndian, ih, List.take_succ_cons]
  exact htake wordBytes value.toNat size

namespace LocationOp

variable {regs : Registers} {bias : Addr} {cfa : Option Addr} {place : Place}

/-- The places that an operation can mean in a frame: with the registers `regs`, the canonical frame
address `cfa` if it is known, and a frame base. -/
inductive Means (regs : Registers) (bias : Addr) (cfa : Option Addr) (IsBase : Addr → Prop) :
    LocationOp → Place → Prop where
  /-- A fixed address was moved with the program, and not beyond the end of the address space. -/
  | address {a : UInt64} {addr : Addr} : addr.toNat = bias.toNat + a.toNat →
      Means regs bias cfa IsBase (.address a) (.memory addr)
  /-- The register itself. -/
  | register (number : Nat) : Means regs bias cfa IsBase (.register number) (.register number)
  /-- An offset from the value of a register. -/
  | registerOffset {number : Nat} {value : UInt64} {offset : Int64} {addr : Addr} :
      regs.getDebug? number = some value → addr.LiesAt ⟨value⟩ offset →
      Means regs bias cfa IsBase (.registerOffset number offset) (.memory addr)
  /-- An offset from the frame base. -/
  | frameBaseOffset {base addr : Addr} {offset : Int64} : IsBase base → addr.LiesAt base offset →
      Means regs bias cfa IsBase (.frameBaseOffset offset) (.memory addr)
  /-- The canonical frame address. -/
  | callFrameCfa {addr : Addr} : cfa = some addr →
      Means regs bias cfa IsBase .callFrameCfa (.memory addr)

/-- The evaluation of an operation finds the place that it means. -/
theorem place_eq_ok_iff {op : LocationOp} {frameBase : Option Addr} :
    op.place ⟨regs, cfa, frameBase, bias⟩ = .ok place ↔
      op.Means regs bias cfa (frameBase = some ·) place := by
  constructor
  · intro h
    cases op with
    | address a =>
      -- a sum that overflows is no place
      rcases hsum : bias.add? a with _ | sum <;> simp only [LocationOp.place, hsum] at h
      · cases h
      · cases h
        exact .address (Addr.toNat_add?_of_eq_some hsum)
    | register number =>
      cases h
      exact .register number
    | registerOffset number offset =>
      -- a register without a number in the debug format has no value
      rcases hvalue : regs.getDebug? number with _ | value <;>
        simp only [LocationOp.place, hvalue] at h
      · cases h
      · cases h
        exact .registerOffset hvalue (Addr.offset_eq_iff.1 rfl)
    | frameBaseOffset offset =>
      rcases frameBase with _ | base
      · cases h
      · cases h
        exact .frameBaseOffset rfl (Addr.offset_eq_iff.1 rfl)
    | callFrameCfa =>
      rcases cfa with _ | addr
      · cases h
      · cases h
        exact .callFrameCfa rfl
  · intro h
    cases h with
    | @address a addr hsum =>
      -- the sum is an address, hence it does not overflow
      have hlt : bias.val.toNat + a.toNat < UInt64.size := by
        show bias.toNat + a.toNat < _
        rw [← hsum]
        exact addr.val.toNat_lt
      have hadd : bias.add? a = some (bias + a) := if_pos hlt
      have heq : bias + a = addr := by
        rw [← Addr.toNat_inj, Addr.toNat_add?_of_eq_some hadd, hsum]
      simp only [LocationOp.place, hadd, heq]
    | register => rfl
    | registerOffset hvalue haddr =>
      simp only [LocationOp.place, hvalue, Addr.offset_eq_iff.2 haddr]
    | frameBaseOffset hbase haddr =>
      simp only [LocationOp.place, hbase, Addr.offset_eq_iff.2 haddr]
    | callFrameCfa hcfa => simp only [LocationOp.place, hcfa]

/-- What the frame base expression of a function stands for: a place in memory, or the value of a
register. -/
def FrameBaseIs (regs : Registers) (bias : Addr) (cfa : Option Addr) (expr : List UInt8)
    (base : Addr) : Prop :=
  ∃ op place, decode expr = .ok op ∧ op.Means regs bias cfa (fun _ => False) place ∧
    (place = .memory base ∨ ∃ number, place = .register number ∧
      regs.getDebug? number = some base.val)

/-- The evaluation of a frame base expression finds what it stands for. -/
theorem frameBase_eq_ok_iff {expr : List UInt8} {base : Addr} :
    frameBase expr ⟨regs, cfa, none, bias⟩ = .ok base ↔ FrameBaseIs regs bias cfa expr base := by
  -- the frame base of a function is never relative to a frame base itself
  have hnone : (fun base : Addr => none = some base) = fun _ => False := by
    funext base
    exact eq_false nofun
  rw [frameBase, DebugInfo.bind_eq_ok]
  simp only [DebugInfo.bind_eq_ok, place_eq_ok_iff, hnone]
  constructor
  · rintro ⟨op, hop, place, hplace, h⟩
    refine ⟨op, place, hop, hplace, ?_⟩
    -- a register as a frame base stands for its value, memory for its address
    rcases place with addr | number
    · cases h
      exact .inl rfl
    · rcases hvalue : regs.getDebug? number with _ | value <;> simp only [hvalue] at h
      · cases h
      · cases h
        exact .inr ⟨number, rfl, hvalue⟩
  · rintro ⟨op, place, hop, hplace, rfl | ⟨number, rfl, hvalue⟩⟩
    · exact ⟨op, hop, _, hplace, rfl⟩
    · refine ⟨op, hop, _, hplace, ?_⟩
      simp only [hvalue]
      rfl

end LocationOp

open LocationOp in
/-- A variable of a function, if it is one of a function, is at a place. -/
def VariableEntry.LiesIn (v : VariableEntry) (f : Option FunctionEntry) (regs : Registers)
    (bias : Addr) (cfa : Option Addr) (place : Place) : Prop :=
  ∃ op, decode v.location = .ok op ∧
    op.Means regs bias cfa (fun base => ∃ g ∈ f, FrameBaseIs regs bias cfa g.frameBase base) place

namespace VariableValue

variable {frames : Option FrameIndex} {regs : Registers} {bias : Addr} {op : LocationOp}
  {expr : Option (List UInt8)} {place : Place}

/-! ### The canonical frame address -/

/-- The canonical frame address of the frame at the current instruction, if it can be unwound. -/
def unwoundCfa (frames : Option FrameIndex) (regs : Registers) : Option Addr := do
  let frame ← ((← frames).unwind regs.pc regs).toOption
  return frame.frameBase

/-- The frame address is that of the unwound frame, if it can be computed. -/
theorem currentCfa_toOption (frames : Option FrameIndex) (regs : Registers) :
    (currentCfa frames regs).toOption = unwoundCfa frames regs := by
  rcases frames with _ | frames
  · rfl
  · show (frames.unwind regs.pc regs >>= fun frame => pure frame.frameBase).toOption =
      (frames.unwind regs.pc regs).toOption.bind fun frame => some frame.frameBase
    rcases frames.unwind regs.pc regs with e | frame <;> rfl

/-- The place of a location with a frame base expression, if it needs one, where `cfa` is all that
is known of the canonical frame address. -/
def placeKnowing (cfa : Option Addr) (bias : Addr) (regs : Registers) (op : LocationOp)
    (expr : Option (List UInt8)) : Except DebugError Place := do
  let ctx : LocationContext := ⟨regs, cfa, none, bias⟩
  let frameBase ← match expr with
    | some e => do pure (some (← LocationOp.frameBase e ctx))
    | none => pure none
  op.place { ctx with frameBase }

/-- The place of a location, when the frame is unwound only for one that asks for it. -/
def placeAsked (frames : Option FrameIndex) (bias : Addr) (regs : Registers) (op : LocationOp)
    (expr : Option (List UInt8)) : Except DebugError Place := do
  let cfa ← if needsCfa op expr then do pure (some (← currentCfa frames regs)) else pure none
  placeKnowing cfa bias regs op expr

/-- With a frame base the place is computed from it. -/
theorem placeKnowing_some (cfa : Option Addr) (e : List UInt8) :
    placeKnowing cfa bias regs op (some e) = LocationOp.frameBase e ⟨regs, cfa, none, bias⟩ >>=
      fun base => op.place ⟨regs, cfa, some base, bias⟩ := rfl

/-- The failure of a location that asks for the canonical frame address where it is not known. -/
def noCfa : DebugError := .unresolvableFrame "no canonical frame address"

/-- A frame base that is not the frame address does not depend on it. -/
theorem frameBase_eq_of_decode {e : List UInt8} {cfa cfa' : Option Addr}
    (h : LocationOp.decode e ≠ .ok .callFrameCfa) :
    LocationOp.frameBase e ⟨regs, cfa, none, bias⟩ =
      LocationOp.frameBase e ⟨regs, cfa', none, bias⟩ := by
  unfold LocationOp.frameBase
  rcases hdecode : LocationOp.decode e with err | op
  · rfl
  · cases op with
    | callFrameCfa => exact absurd hdecode h
    | _ => rfl

/-- A location that does not ask for the canonical frame address has a place that does not depend on
it. -/
theorem placeKnowing_of_not_needsCfa (h : needsCfa op expr = false) (cfa cfa' : Option Addr) :
    placeKnowing cfa bias regs op expr = placeKnowing cfa' bias regs op expr := by
  rw [needsCfa, Bool.or_eq_false_iff, decide_eq_false_iff_not] at h
  obtain ⟨hop, hexpr⟩ := h
  -- the frame's address is looked at only by one operation, which is excluded twice: for the
  -- location and for the frame base
  have hplace : ∀ frameBase, op.place ⟨regs, cfa, frameBase, bias⟩ =
      op.place ⟨regs, cfa', frameBase, bias⟩ := by
    intro frameBase
    cases op with
    | callFrameCfa => exact absurd rfl hop
    | _ => rfl
  rcases expr with _ | e
  · exact hplace none
  · have hdecode : LocationOp.decode e ≠ .ok .callFrameCfa := by
      intro hdecode
      rw [Option.map_some, hdecode] at hexpr
      cases hexpr
    rw [placeKnowing_some, placeKnowing_some, frameBase_eq_of_decode hdecode]
    exact congrArg _ (funext fun base => hplace (some base))

/-- A location that asks for the canonical frame address has no place without it. -/
theorem placeKnowing_none_of_needsCfa {name : String} {f : Option FunctionEntry}
    (hexpr : frameBaseExpr name op f = .ok expr) (h : needsCfa op expr = true) :
    placeKnowing none bias regs op expr = .error noCfa := by
  rw [needsCfa, Bool.or_eq_true, decide_eq_true_eq] at h
  rcases h with rfl | h
  · obtain rfl : expr = none := (Except.ok.inj hexpr).symm
    rfl
  · rcases expr with _ | e
    · cases h
    · have hdecode : LocationOp.decode e = .ok .callFrameCfa := by
        rw [Option.map_some] at h
        split at h
        · rename_i heq
          exact Option.some.inj heq
        · cases h
      rw [placeKnowing_some, LocationOp.frameBase, hdecode]
      rfl

/-- To unwind the frame only for a location that asks for it comes to the same place as to unwind it
for every location. If it asks for it in vain, the failure is that of the unwinding. -/
theorem placeAsked_eq {name : String} {f : Option FunctionEntry}
    (hexpr : frameBaseExpr name op f = .ok expr) :
    placeAsked frames bias regs op expr = placeKnowing (unwoundCfa frames regs) bias regs op expr ∨
      ∃ e, currentCfa frames regs = .error e ∧ placeAsked frames bias regs op expr = .error e ∧
        placeKnowing (unwoundCfa frames regs) bias regs op expr = .error noCfa := by
  rw [← currentCfa_toOption]
  rcases hneeds : needsCfa op expr with _ | _
  · left
    rw [placeAsked, hneeds]
    exact placeKnowing_of_not_needsCfa hneeds _ _
  · rcases hcfa : currentCfa frames regs with e | cfa
    · refine .inr ⟨e, rfl, ?_, placeKnowing_none_of_needsCfa hexpr hneeds⟩
      rw [placeAsked, hneeds, hcfa]
      rfl
    · left
      rw [placeAsked, hneeds, hcfa]
      rfl

/-! ### The place -/

/-- A location has a place if its frame base expression, where it needs one, has a value and the
operation means the place. -/
theorem exists_placeKnowing_iff {cfa : Option Addr} (name : String) (f : Option FunctionEntry)
    (v : VariableEntry) :
    (∃ op expr, LocationOp.decode v.location = .ok op ∧ frameBaseExpr name op f = .ok expr ∧
      placeKnowing cfa bias regs op expr = .ok place) ↔ v.LiesIn f regs bias cfa place := by
  constructor
  · rintro ⟨op, expr, hop, hexpr, hplace⟩
    refine ⟨op, hop, ?_⟩
    -- without an expression, every place is that of the location by itself
    rcases expr with _ | e
    · have hmeans := LocationOp.place_eq_ok_iff.1 (hplace : op.place ⟨regs, cfa, none, bias⟩ = _)
      cases hmeans with
      | address h => exact .address h
      | register number => exact .register number
      | registerOffset hvalue haddr => exact .registerOffset hvalue haddr
      | frameBaseOffset hbase => cases hbase
      | callFrameCfa h => exact .callFrameCfa h
    · -- only a location relative to the frame base has a frame base expression
      obtain ⟨offset, g, rfl, rfl, rfl⟩ : ∃ offset g, op = .frameBaseOffset offset ∧ f = some g ∧
          e = g.frameBase := by
        cases op with
        | frameBaseOffset offset =>
          rcases f with _ | g
          · cases hexpr
          · cases hexpr
            exact ⟨offset, g, rfl, rfl, rfl⟩
        | _ => cases hexpr
      -- the frame base is a place of its own, computed before the offset is added
      rw [placeKnowing_some, DebugInfo.bind_eq_ok] at hplace
      obtain ⟨base, hbase, hplace⟩ := hplace
      cases hplace
      exact .frameBaseOffset ⟨g, rfl, LocationOp.frameBase_eq_ok_iff.1 hbase⟩
        (Addr.offset_eq_iff.1 rfl)
  · rintro ⟨op, hop, hmeans⟩
    cases hmeans with
    | frameBaseOffset hbase haddr =>
      obtain ⟨g, rfl, hbase⟩ := hbase
      refine ⟨_, some g.frameBase, hop, rfl, ?_⟩
      rw [placeKnowing_some, DebugInfo.bind_eq_ok]
      exact ⟨_, LocationOp.frameBase_eq_ok_iff.2 hbase,
        LocationOp.place_eq_ok_iff.2 (.frameBaseOffset rfl haddr)⟩
    | address h => exact ⟨_, none, hop, rfl, LocationOp.place_eq_ok_iff.2 (.address h)⟩
    | register number => exact ⟨_, none, hop, rfl, rfl⟩
    | registerOffset hvalue haddr =>
      exact ⟨_, none, hop, rfl, LocationOp.place_eq_ok_iff.2 (.registerOffset hvalue haddr)⟩
    | callFrameCfa h => exact ⟨_, none, hop, rfl, LocationOp.place_eq_ok_iff.2 (.callFrameCfa h)⟩

/-- A variable has one place at most. -/
theorem liesIn_unique {cfa : Option Addr} {f : Option FunctionEntry} {v : VariableEntry}
    {place' : Place} (h : v.LiesIn f regs bias cfa place) (h' : v.LiesIn f regs bias cfa place') :
    place = place' := by
  obtain ⟨op, expr, hop, hexpr, hplace⟩ := (exists_placeKnowing_iff v.name f v).2 h
  obtain ⟨op', expr', hop', hexpr', hplace'⟩ := (exists_placeKnowing_iff v.name f v).2 h'
  obtain rfl : op = op' := Except.ok.inj (hop.symm.trans hop')
  obtain rfl : expr = expr' := Except.ok.inj (hexpr.symm.trans hexpr')
  exact Except.ok.inj (hplace.symm.trans hplace')

/-! ### The bytes -/

variable {σ : Type} [Tracee σ]

/-- The type of a variable, if it is known. -/
def typeOf? (index : DebugIndex) (v : VariableEntry) : Option TypeEntry :=
  v.typeOffset.bind index.typeAt?

/-- The number of bytes of a variable: those of its type, and otherwise eight. -/
def sizeOf (index : DebugIndex) (v : VariableEntry) : Nat :=
  match typeOf? index v with
  | some ⟨_, some size⟩ => size.toNat
  | _ => 8

/-- The contents of a place: as many bytes as wanted in memory, and of a register at most the eight
that it holds. -/
inductive Contents (p : σ) (regs : Registers) (size : Nat) : Place → List UInt8 → Prop where
  /-- The bytes in memory. -/
  | memory {addr : Addr} {bytes : List UInt8} : Tracee.readExact p addr size = .ok bytes →
      Contents p regs size (.memory addr) bytes
  /-- The low bytes of a register. -/
  | register {number : Nat} {value : UInt64} : regs.getDebug? number = some value →
      Contents p regs size (.register number) ((wordBytesOf value).take size)

/-- The bytes that are read are the contents of the place. -/
theorem bytesAt_eq_ok_iff {p : σ} {size : Nat} {bytes : List UInt8} :
    bytesAt p regs size place = .ok bytes ↔ Contents p regs size place bytes := by
  rcases place with addr | number
  · exact ⟨.memory, fun | .memory h => h⟩
  · constructor
    · intro h
      rcases hvalue : regs.getDebug? number with _ | value <;> simp only [bytesAt, hvalue] at h
      · cases h
      · cases h
        rw [toLittleEndian_min]
        exact .register hvalue
    · rintro ⟨⟩
      rename_i value hvalue
      simp only [bytesAt, hvalue, toLittleEndian_min]

/-- What a name means: a variable, and what is needed to find its place. -/
structure Sought where
  /-- The registers. -/
  regs : Registers
  /-- The variable. -/
  entry : VariableEntry
  /-- The function at the current instruction. -/
  function : Option FunctionEntry
  /-- The operation of the location. -/
  op : LocationOp
  /-- The frame base expression of the function, if the location needs it. -/
  expr : Option (List UInt8)

/-- What a name means at the current instruction. -/
def seek (p : σ) (index : DebugIndex) (name : String) : Except DebugError Sought := do
  let regs ← Tracee.registers p
  let (v, f) ← index.variableInScope regs.pc name
  if v.location.isEmpty then throw (.noLocation name)
  let op ← LocationOp.decode v.location
  return ⟨regs, v, f, op, ← frameBaseExpr name op f⟩

/-- A variable is found with its registers, its scope, its location and its frame base. -/
theorem seek_eq_ok_iff {p : σ} {index : DebugIndex} {name : String} {s : Sought} :
    seek p index name = .ok s ↔
      Tracee.registers p = .ok s.regs ∧
      index.variableInScope s.regs.pc name = .ok (s.entry, s.function) ∧
      LocationOp.decode s.entry.location = .ok s.op ∧
      frameBaseExpr name s.op s.function = .ok s.expr := by
  constructor
  · intro h
    obtain ⟨regs, hregs, h⟩ := DebugInfo.bind_eq_ok.1 h
    obtain ⟨⟨v, f⟩, hfound, h⟩ := DebugInfo.bind_eq_ok.1 h
    dsimp only at h
    split at h
    · cases h
    obtain ⟨op, hop, h⟩ := DebugInfo.bind_eq_ok.1 h
    obtain ⟨expr, hexpr, h⟩ := DebugInfo.bind_eq_ok.1 h
    cases h
    exact ⟨hregs, hfound, hop, hexpr⟩
  · obtain ⟨regs, v, f, op, expr⟩ := s
    rintro ⟨hregs, hfound, hop, hexpr⟩
    -- an empty location would not have been decoded
    have hlocation : v.location.isEmpty = false := by
      rw [← Bool.not_eq_true, List.isEmpty_iff]
      rintro hempty
      rw [hempty] at hop
      cases hop
    refine DebugInfo.bind_eq_ok.2 ⟨regs, hregs, DebugInfo.bind_eq_ok.2 ⟨(v, f), hfound, ?_⟩⟩
    dsimp only
    rw [hlocation, if_neg Bool.false_ne_true]
    exact DebugInfo.bind_eq_ok.2 ⟨op, hop, DebugInfo.bind_eq_ok.2 ⟨expr, hexpr, rfl⟩⟩

/-- The value of a variable, with a way to find the place of its location. -/
def readVia (locate : Registers → LocationOp → Option (List UInt8) → Except DebugError Place)
    (p : σ) (index : DebugIndex) (name : String) : Except DebugError VariableValue := do
  let s ← seek p index name
  let place ← locate s.regs s.op s.expr
  return ⟨name, (typeOf? index s.entry).bind (·.name), place,
    ← bytesAt p s.regs (sizeOf index s.entry) place⟩

/-- It is read if it is found, and has a place with contents. -/
theorem readVia_eq_ok_iff
    {locate : Registers → LocationOp → Option (List UInt8) → Except DebugError Place} {p : σ}
    {index : DebugIndex} {name : String} {value : VariableValue} :
    readVia locate p index name = .ok value ↔
      ∃ s, seek p index name = .ok s ∧ locate s.regs s.op s.expr = .ok value.place ∧
        Contents p s.regs (sizeOf index s.entry) value.place value.bytes ∧ value.name = name ∧
        value.typeName = (typeOf? index s.entry).bind (·.name) := by
  simp only [readVia, DebugInfo.bind_eq_ok, bytesAt_eq_ok_iff]
  constructor
  · rintro ⟨s, hs, place, hplace, bytes, hbytes, h⟩
    cases h
    exact ⟨s, hs, hplace, hbytes, rfl, rfl⟩
  · rintro ⟨s, hs, hplace, hbytes, rfl, htype⟩
    refine ⟨s, hs, _, hplace, _, hbytes, ?_⟩
    rw [← htype]
    rfl

/-- Variables are read with the frame address computed on demand. -/
theorem read_eq_readVia (p : σ) (index : DebugIndex) (name : String) :
    read p index frames bias name = readVia (placeAsked frames bias) p index name := by
  -- both ask for the same things in the same order, up to the place
  unfold read readVia seek
  simp only [bind_assoc]
  refine congrArg _ (funext fun regs => congrArg _ (funext fun ⟨v, f⟩ => ?_))
  have hsize : (((typeOf? index v).bind (·.byteSize)).map (·.toNat)).getD defaultSize =
      sizeOf index v := by
    rw [sizeOf]
    rcases typeOf? index v with _ | ⟨_, _ | size⟩ <;> rfl
  rcases v.location.isEmpty with _ | _
  · simp only [Bool.false_eq_true, if_false, bind_assoc, pure_bind, ← hsize]
    refine congrArg _ (funext fun op => congrArg _ (funext fun expr => ?_))
    unfold placeAsked placeKnowing
    rcases needsCfa op expr with _ | _ <;> rcases expr with _ | e <;>
      simp only [Bool.false_eq_true, if_false, if_true, bind_assoc, pure_bind] <;> rfl
  · rfl

/-- `read`, except that the frame is unwound for every location, if that is possible. -/
def readUnwound (p : σ) (index : DebugIndex) (frames : Option FrameIndex) (bias : Addr)
    (name : String) : Except DebugError VariableValue :=
  readVia (fun regs => placeKnowing (unwoundCfa frames regs) bias regs) p index name

/-- To unwind the frame only for a location that asks for it does not change what is read. -/
theorem read_eq_readUnwound (p : σ) (index : DebugIndex) (frames : Option FrameIndex) (bias : Addr)
    (name : String) :
    read p index frames bias name = readUnwound p index frames bias name ∨
      ∃ regs e, Tracee.registers p = .ok regs ∧ currentCfa frames regs = .error e ∧
        read p index frames bias name = .error e ∧
        readUnwound p index frames bias name = .error noCfa := by
  rw [read_eq_readVia, readUnwound]
  unfold readVia
  rcases hseek : seek p index name with e | s
  · exact .inl rfl
  obtain ⟨hregs, -, -, hexpr⟩ := seek_eq_ok_iff.1 hseek
  -- the frame's address is computed only if it is asked for, so only its failure can be seen
  have hplaces : placeAsked frames bias s.regs s.op s.expr = _ ∨ _ := placeAsked_eq hexpr
  rcases hplaces with hplace | ⟨e, hcfa, hasked, hknowing⟩
  · left
    show (placeAsked frames bias s.regs s.op s.expr >>= _) = (placeKnowing _ _ _ _ _ >>= _)
    rw [hplace]
  · refine .inr ⟨s.regs, e, hregs, hcfa, ?_, ?_⟩
    · show (placeAsked frames bias s.regs s.op s.expr >>= _) = _
      rw [hasked]
      rfl
    · show (placeKnowing _ _ _ _ _ >>= _) = _
      rw [hknowing]
      rfl

/-- A read succeeds if and only if the variable that the name means has a place when the frame was
unwound, and this can be read. -/
theorem read_eq_ok_iff {p : σ} {index : DebugIndex} {name : String} {value : VariableValue} :
    read p index frames bias name = .ok value ↔
      ∃ regs v f, Tracee.registers p = .ok regs ∧
        index.variableInScope regs.pc name = .ok (v, f) ∧
        v.LiesIn f regs bias (unwoundCfa frames regs) value.place ∧
        Contents p regs (sizeOf index v) value.place value.bytes ∧ value.name = name ∧
        value.typeName = (typeOf? index v).bind (·.name) := by
  -- where both fail, neither gives a value, so the error does not matter here
  have hunwound : read p index frames bias name = .ok value ↔
      readUnwound p index frames bias name = .ok value := by
    rcases read_eq_readUnwound p index frames bias name with heq | ⟨regs, e, -, -, hasked, hunwound⟩
    · rw [heq]
    · rw [hasked, hunwound]
      exact iff_of_false nofun nofun
  rw [hunwound, readUnwound, readVia_eq_ok_iff]
  constructor
  · rintro ⟨s, hs, hplace, hbytes, hname, htype⟩
    obtain ⟨hregs, hfound, hop, hexpr⟩ := seek_eq_ok_iff.1 hs
    exact ⟨s.regs, s.entry, s.function, hregs, hfound,
      (exists_placeKnowing_iff name _ _).1 ⟨s.op, s.expr, hop, hexpr, hplace⟩, hbytes, hname, htype⟩
  · rintro ⟨regs, v, f, hregs, hfound, hplace, hbytes, hname, htype⟩
    obtain ⟨op, expr, hop, hexpr, hplace⟩ := (exists_placeKnowing_iff name f v).2 hplace
    exact ⟨⟨regs, v, f, op, expr⟩, seek_eq_ok_iff.2 ⟨hregs, hfound, hop, hexpr⟩, hplace, hbytes,
      hname, htype⟩

/-- What is read of a variable is the contents of its place. The variable is the one that the name
means at the current instruction, and its place is what the location means when the frame was
unwound: a read succeeds if and only if there is such a place and it can be read. To unwind the
frame only for a location that asks for it changes nothing but the failure where it asks in
vain. -/
theorem read_located (p : σ) (index : DebugIndex) (frames : Option FrameIndex) (bias : Addr)
    (name : String) :
    (∀ value, read p index frames bias name = .ok value ↔
      ∃ regs v f, Tracee.registers p = .ok regs ∧
        index.variableInScope regs.pc name = .ok (v, f) ∧
        v.LiesIn f regs bias (unwoundCfa frames regs) value.place ∧
        Contents p regs (sizeOf index v) value.place value.bytes ∧ value.name = name ∧
        value.typeName = (typeOf? index v).bind (·.name)) ∧
    (read p index frames bias name = readUnwound p index frames bias name ∨
      ∃ regs e, Tracee.registers p = .ok regs ∧ currentCfa frames regs = .error e ∧
        read p index frames bias name = .error e ∧
        readUnwound p index frames bias name = .error noCfa) :=
  ⟨fun _ => read_eq_ok_iff, read_eq_readUnwound p index frames bias name⟩

/-- A machine in a function whose frame is unwound with `FrameIndex.pushed`. -/
def inPushed : Machine :=
  .ofImage ⟨[⟨⟨0x6ff0⟩, wordBytesOf 0 ++ wordBytesOf 20, false⟩],
    (Registers.zero.setPc ⟨0x1002⟩).set .rsp 0x7000, 0, [], [], [], false⟩ []

/-- The function, with a variable of four bytes that is 24 bytes below the canonical frame
address. -/
def pushedIndex : DebugIndex :=
  { DebugIndex.empty "/" with
    functions := [⟨"f", ⟨0x1000⟩, ⟨0x1010⟩, [0x9c], 1, false, 0, [⟨"i", [0x91, 0x68], some 0x40⟩]⟩]
    types := [(0x40, ⟨some "int", some 4⟩)] }

example : read inPushed pushedIndex (some .pushed) .null "i" =
    .ok ⟨"i", some "int", .memory ⟨0x6ff8⟩, [20, 0, 0, 0]⟩ := by
  decide +kernel

example : read inPushed pushedIndex none .null "i" = .error (.missingSection ".debug_frame") := by
  decide +kernel

end VariableValue

end SourceDebugger
