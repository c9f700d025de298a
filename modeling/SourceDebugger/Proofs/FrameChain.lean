import SourceDebugger.Backtrace
import SourceDebugger.Machine.Execute
import SourceDebugger.Proofs.IndexRelocation
import SourceDebugger.Proofs.WordMemory

/-!
# The chain of frame pointers

Memory is arbitrary, and so are the frame pointers in it: they can run in circles, lead down again
or to where nothing can be read. `Backtrace.FrameChain` says which frames form the chain from a
frame pointer on, and why it ends behind the last of them.

* `Backtrace.exists_frameChain`, `Backtrace.FrameChain.unique`: from every address there is exactly
  one chain. It is finite, since its frame pointers ascend.
* `Backtrace.walk_frameChain`: a backtrace is the current instruction and the return addresses of
  the chain, cut to 1024 frames. What a frame shows, `BacktraceFrame.LooksUp`, is the function and
  the line of the current instruction itself, and for a caller those of the byte below the address
  to which it returns.
-/

namespace SourceDebugger

/-- The frame of a function: where its frame pointer points to, and the address to which the
function returns. -/
structure StackFrame where
  /-- The frame pointer. -/
  pointer : Addr
  /-- The return address. -/
  returnAddress : Addr
deriving DecidableEq

namespace Addr

/-- Only one address is null. -/
theorem isNull_eq_false_iff {a : Addr} : a.isNull = false ↔ a ≠ .null := by
  rw [ne_eq, ← isNull_iff, Bool.not_eq_true]

theorem not_le {a b : Addr} : ¬ a ≤ b ↔ b < a := UInt64.not_le

end Addr

namespace DebugIndex

/-- A function contains an address, from its first address up to the first one behind it, and none
of the functions before it in the index does. -/
def FunctionAt (index : DebugIndex) (pc : Addr) (f : FunctionEntry) : Prop :=
  ∃ before after, index.functions = before ++ f :: after ∧ (f.lowPc ≤ pc ∧ pc < f.highPc) ∧
    ∀ g ∈ before, ¬ (g.lowPc ≤ pc ∧ pc < g.highPc)

/-- What is found for an address is the function there. -/
theorem functionContaining?_eq_some_iff {index : DebugIndex} {pc : Addr} {f : FunctionEntry} :
    index.functionContaining? pc = some f ↔ index.FunctionAt pc f := by
  have hcontains : ∀ g : FunctionEntry, g.contains pc = true ↔ g.lowPc ≤ pc ∧ pc < g.highPc := by
    intro g
    rw [FunctionEntry.contains, Bool.and_eq_true, decide_eq_true_eq, decide_eq_true_eq]
  unfold functionContaining? FunctionAt
  simp only [List.find?_eq_some_iff_append, Bool.not_eq_true', ← Bool.not_eq_true, hcontains]
  constructor
  · rintro ⟨hin, before, after, hsplit, hbefore⟩
    exact ⟨before, after, hsplit, hin, hbefore⟩
  · rintro ⟨before, after, hsplit, hin, hbefore⟩
    exact ⟨hin, before, after, hsplit, hbefore⟩

end DebugIndex

namespace BacktraceFrame

/-- What a frame at `addr` shows if `lookup` is looked up for it: the readable name of the function
there, and the line to which it belongs, each if there is one. -/
structure LooksUp (index : DebugIndex) (addr lookup : Addr) (f : BacktraceFrame) : Prop where
  /-- The frame is shown with its own address. -/
  addr_eq : f.addr = addr
  /-- The function is the one that contains the address that is looked up. -/
  function_iff : ∀ name, f.function = some name ↔
    ∃ g, index.FunctionAt lookup g ∧ g.displayName = name
  /-- The line is the one to which the address that is looked up belongs. -/
  location_iff : ∀ l, f.location = some l ↔ index.resolveAddress lookup = .ok l

variable {index : DebugIndex} {addr lookup : Addr} {f : BacktraceFrame}

/-- A frame is made with what is looked up for it. -/
theorem looksUp_at_ (index : DebugIndex) (addr lookup : Addr) :
    (at_ index addr lookup).LooksUp index addr lookup where
  addr_eq := rfl
  function_iff name := by
    show (index.functionContaining? lookup).map _ = _ ↔ _
    simp only [Option.map_eq_some_iff, DebugIndex.functionContaining?_eq_some_iff]
  location_iff l := by
    show (index.resolveAddress lookup).toOption = _ ↔ _
    rcases index.resolveAddress lookup with e | l' <;> simp [Except.toOption]

/-- Nothing is left open about a frame by what is looked up for it. -/
theorem looksUp_iff : f.LooksUp index addr lookup ↔ f = at_ index addr lookup := by
  constructor
  · intro h
    obtain ⟨haddr, hfunction, hlocation⟩ := looksUp_at_ index addr lookup
    have hfunctions : f.function = (at_ index addr lookup).function :=
      Option.ext fun name => (h.function_iff name).trans (hfunction name).symm
    have hlocations : f.location = (at_ index addr lookup).location :=
      Option.ext fun l => (h.location_iff l).trans (hlocation l).symm
    rcases f with ⟨a, function, location⟩
    cases h.addr_eq
    cases hfunctions
    cases hlocations
    rfl
  · rintro rfl
    exact looksUp_at_ index addr lookup

/-- The frames for places of which each is an address and the one that is looked up for it. -/
theorem forall₂_looksUp_iff {places : List (Addr × Addr)} {frames : List BacktraceFrame} :
    List.Forall₂ (fun place f => LooksUp index place.1 place.2 f) places frames ↔
      frames = places.map fun place => at_ index place.1 place.2 := by
  simp only [looksUp_iff]
  induction places generalizing frames with
  | nil => rw [List.forall₂_nil_left_iff, List.map_nil]
  | cons place places ih =>
    rw [List.forall₂_cons_left_iff, List.map_cons]
    constructor
    · rintro ⟨f, rest, rfl, hrest, rfl⟩
      rw [ih.1 hrest]
    · rintro rfl
      exact ⟨_, _, rfl, ih.2 rfl, rfl⟩

/-- A caller is looked up one byte below the address to which it returns. -/
theorem ofReturn_of_ne_null (index : DebugIndex) {ret : Addr} (h : ret ≠ .null) :
    ofReturn index ret = at_ index ret (ret - (1 : UInt64)) := by
  have hpos : (1 : UInt64) ≤ ret.val := by
    rw [UInt64.le_iff_toNat_le, UInt64.toNat_one]
    refine Nat.one_le_iff_ne_zero.2 fun hzero => h (Addr.toNat_inj.1 ?_)
    exact hzero
  rw [ofReturn, Addr.sub?, if_pos hpos, Option.getD_some]

end BacktraceFrame

namespace Backtrace

variable {σ : Type} [Tracee σ] {p : σ} {framePointer saved ret : Addr} {frames : List StackFrame}

/-! ### Frames in memory -/

/-- At an address are the frame pointer of the caller and, above it, the return address. -/
def HoldsFrame (p : σ) (framePointer saved ret : Addr) : Prop :=
  Tracee.readExact p framePointer (2 * wordBytes) =
    .ok (wordBytesOf saved.val ++ wordBytesOf ret.val)

instance : Decidable (HoldsFrame p framePointer saved ret) :=
  inferInstanceAs (Decidable (_ = _))

/-- An exact read gives as many bytes as asked for. -/
theorem length_of_readExact {addr : Addr} {count : Nat} {bytes : List UInt8}
    (h : Tracee.readExact p addr count = .ok bytes) : bytes.length = count := by
  unfold Tracee.readExact at h
  rcases hread : Tracee.readMemory p addr count with e | read <;> rw [hread] at h
  · cases h
  · change (if read.length = count then Except.ok read else _) = _ at h
    split at h
    · cases h
      assumption
    · cases h

/-- Two words are read if and only if memory holds a frame there. -/
theorem savedPair?_eq_some_iff :
    savedPair? p framePointer = some (saved, ret) ↔ HoldsFrame p framePointer saved ret := by
  unfold savedPair? HoldsFrame
  rcases hread : Tracee.readExact p framePointer (2 * wordBytes) with e | bytes
  · exact iff_of_false nofun nofun
  have hlength : bytes.length = 2 * wordBytes := length_of_readExact hread
  -- two words and their sixteen bytes are the same thing, read in either direction
  have hlow : wordBytesOf (UInt64.ofNat (littleEndian (bytes.take wordBytes))) =
      bytes.take wordBytes :=
    wordBytesOf_littleEndian (by rw [List.length_take, hlength]; rfl)
  have hhigh : wordBytesOf (UInt64.ofNat (littleEndian (bytes.drop wordBytes))) =
      bytes.drop wordBytes :=
    wordBytesOf_littleEndian (by rw [List.length_drop, hlength]; rfl)
  constructor
  · intro h
    cases h
    show _ = Except.ok (wordBytesOf (UInt64.ofNat _) ++ wordBytesOf (UInt64.ofNat _))
    rw [hlow, hhigh, List.take_append_drop]
  · intro h
    cases h
    -- the words are read back out of the bytes
    have hword : ∀ a : Addr, Addr.ofNat (littleEndian (wordBytesOf a.val)) = a := by
      intro a
      have hlt : a.val.toNat < 256 ^ wordBytes := a.val.toNat_lt
      rw [wordBytesOf, ByteReader.littleEndian_toLittleEndian, Nat.mod_eq_of_lt hlt]
      exact Addr.ext_iff_val.2 UInt64.ofNat_toNat
    have htake : (wordBytesOf saved.val ++ wordBytesOf ret.val).take wordBytes =
        wordBytesOf saved.val := List.take_left' (length_wordBytesOf _)
    have hdrop : (wordBytesOf saved.val ++ wordBytesOf ret.val).drop wordBytes =
        wordBytesOf ret.val := List.drop_left' (length_wordBytesOf _)
    simp only [htake, hdrop, hword]

/-- There is no frame where the two words cannot be read. -/
theorem savedPair?_eq_none_iff :
    savedPair? p framePointer = none ↔
      ∃ e, Tracee.readExact p framePointer (2 * wordBytes) = .error e := by
  unfold savedPair?
  rcases Tracee.readExact p framePointer (2 * wordBytes) with e | bytes <;> simp

/-- Memory holds at most one frame at an address. -/
theorem HoldsFrame.unique {saved' ret' : Addr} (h : HoldsFrame p framePointer saved ret)
    (h' : HoldsFrame p framePointer saved' ret') : saved = saved' ∧ ret = ret' := by
  have heq := (savedPair?_eq_some_iff.2 h).symm.trans (savedPair?_eq_some_iff.2 h')
  exact Prod.mk.inj (Option.some.inj heq)

/-! ### The chain -/

/-- The frames from a frame pointer on. A null frame pointer ends the chain, and so does one at
which no frame can be read or only one without a return address; a frame is the last one if the
frame pointer that it saves, null or not, does not lie above its own. -/
inductive FrameChain (p : σ) : Addr → List StackFrame → Prop where
  /-- The frame pointer is null. -/
  | null : FrameChain p .null []
  /-- The frame cannot be read. -/
  | unreadable {framePointer : Addr} {e : DebugError} :
      Tracee.readExact p framePointer (2 * wordBytes) = .error e → FrameChain p framePointer []
  /-- The frame has no return address. -/
  | nullReturn {framePointer saved : Addr} :
      HoldsFrame p framePointer saved .null → FrameChain p framePointer []
  /-- The chain ends behind the frame. -/
  | last {framePointer saved ret : Addr} : framePointer ≠ .null →
      HoldsFrame p framePointer saved ret → ret ≠ .null → saved ≤ framePointer →
      FrameChain p framePointer [⟨framePointer, ret⟩]
  /-- The chain goes on above the frame. -/
  | link {framePointer saved ret : Addr} {frames : List StackFrame} : framePointer ≠ .null →
      HoldsFrame p framePointer saved ret → ret ≠ .null → framePointer < saved →
      FrameChain p saved frames → FrameChain p framePointer (⟨framePointer, ret⟩ :: frames)

/-- What a walk does at a frame with a return address. A null frame pointer does not lie above the
frame, so the walk ends there as at any other that does not. -/
theorem returnAddresses_succ (hpointer : framePointer ≠ .null)
    (hframe : HoldsFrame p framePointer saved ret) (hret : ret ≠ .null) (left : Nat) :
    returnAddresses p (left + 1) framePointer =
      ret :: if saved ≤ framePointer then [] else returnAddresses p left saved := by
  rw [returnAddresses, savedPair?_eq_some_iff.2 hframe]
  simp only [Addr.isNull_eq_false_iff.2 hpointer, Addr.isNull_eq_false_iff.2 hret,
    Bool.false_eq_true, if_false]
  by_cases hnull : saved = .null
  · subst hnull
    have hle : Addr.null ≤ framePointer := UInt64.zero_le
    rw [Addr.isNull_iff.2 rfl, Bool.not_true, Bool.false_and, if_neg Bool.false_ne_true, if_pos hle]
    cases left <;> rfl
  · simp only [Addr.isNull_eq_false_iff.2 hnull, Bool.not_false, Bool.true_and,
      decide_eq_true_eq]
    split <;> rfl

/-- The return addresses that a walk finds are those of the chain. -/
theorem FrameChain.returnAddresses_eq (h : FrameChain p framePointer frames) (left : Nat) :
    returnAddresses p left framePointer = (frames.map (·.returnAddress)).take left := by
  -- along the chain, with one end for each reason why it can end
  induction h generalizing left with
  | null => cases left <;> rfl
  | unreadable hread =>
    rcases left with _ | left
    · rfl
    · rw [returnAddresses, savedPair?_eq_none_iff.2 ⟨_, hread⟩]
      split <;> rfl
  | nullReturn hframe =>
    rcases left with _ | left
    · rfl
    · rw [returnAddresses, savedPair?_eq_some_iff.2 hframe]
      split <;> rfl
  | last hpointer hframe hret hend =>
    rcases left with _ | left
    · rfl
    · rw [returnAddresses_succ hpointer hframe hret, if_pos hend, List.map_cons,
        List.take_succ_cons, List.map_nil, List.take_nil]
  | link hpointer hframe hret hlt _ ih =>
    rcases left with _ | left
    · rfl
    · rw [returnAddresses_succ hpointer hframe hret, if_neg (Addr.not_le.2 hlt), ih,
        List.map_cons, List.take_succ_cons]

/-- From every address there is a chain: each frame lies above the one before it. -/
theorem exists_frameChain (p : σ) (framePointer : Addr) :
    ∃ frames, FrameChain p framePointer frames := by
  -- each link leaves less room above its frame pointer
  induction hroom : UInt64.size - framePointer.toNat using Nat.strongRecOn
    generalizing framePointer with
  | ind room ih =>
    by_cases hfp : framePointer = .null
    · exact ⟨[], hfp ▸ .null⟩
    rcases hpair : savedPair? p framePointer with _ | ⟨saved, ret⟩
    · obtain ⟨e, hread⟩ := savedPair?_eq_none_iff.1 hpair
      exact ⟨[], .unreadable hread⟩
    have hframe := savedPair?_eq_some_iff.1 hpair
    by_cases hret : ret = .null
    · exact ⟨[], .nullReturn (hret ▸ hframe)⟩
    by_cases hle : saved ≤ framePointer
    · exact ⟨_, .last hfp hframe hret hle⟩
    have hlt : framePointer < saved := Addr.not_le.1 hle
    have hless : UInt64.size - saved.toNat < room := by
      have hlt' : framePointer.toNat < saved.toNat := UInt64.lt_iff_toNat_lt.1 hlt
      have hsize : saved.toNat < UInt64.size := saved.val.toNat_lt
      omega
    obtain ⟨frames, hchain⟩ := ih _ hless saved rfl
    exact ⟨_, .link hfp hframe hret hlt hchain⟩

/-- And only one. -/
theorem FrameChain.unique {frames' : List StackFrame} (h : FrameChain p framePointer frames)
    (h' : FrameChain p framePointer frames') : frames = frames' := by
  -- the three ways to have no frame do not exclude each other, but all of them exclude one
  induction h generalizing frames' with
  | null =>
    cases h' with
    | null | unreadable | nullReturn => rfl
    | last hfp | link hfp => exact absurd rfl hfp
  | unreadable hread =>
    cases h' with
    | null | unreadable | nullReturn => rfl
    | last _ hframe | link _ hframe => cases hread.symm.trans hframe
  | nullReturn hframe =>
    cases h' with
    | null | unreadable | nullReturn => rfl
    | last _ hframe' hret | link _ hframe' hret => exact absurd (hframe.unique hframe').2.symm hret
  | last hfp hframe hret hend =>
    cases h' with
    | null => exact absurd rfl hfp
    | unreadable hread => cases hread.symm.trans hframe
    | nullReturn hframe' => exact absurd (hframe.unique hframe').2 hret
    | last _ hframe' => rw [(hframe.unique hframe').2]
    | link _ hframe' _ hlt =>
      rw [← (hframe.unique hframe').1] at hlt
      exact absurd hend (Addr.not_le.2 hlt)
  | link hfp hframe hret hlt _ ih =>
    cases h' with
    | null => exact absurd rfl hfp
    | unreadable hread => cases hread.symm.trans hframe
    | nullReturn hframe' => exact absurd (hframe.unique hframe').2 hret
    | last _ hframe' _ hend =>
      rw [← (hframe.unique hframe').1] at hend
      exact absurd hend (Addr.not_le.2 hlt)
    | link _ hframe' _ _ hchain =>
      obtain ⟨rfl, rfl⟩ := hframe.unique hframe'
      rw [ih hchain]

/-- The frame pointers ascend from the one at which the chain starts, and no return address is
null. -/
theorem FrameChain.ascending (h : FrameChain p framePointer frames) :
    (∀ f ∈ frames, f.returnAddress ≠ .null) ∧ (∀ f ∈ frames.head?, f.pointer = framePointer) ∧
      (frames.map (·.pointer)).Pairwise (· < ·) := by
  induction h with
  | null | unreadable | nullReturn => exact ⟨nofun, nofun, .nil⟩
  | last _ _ hret =>
    exact ⟨by simpa using hret, by simp, List.pairwise_singleton _ _⟩
  | @link fp saved ret frames _ _ hret hlt _ ih =>
    obtain ⟨hrets, hhead, hpairs⟩ := ih
    refine ⟨by simpa using ⟨hret, hrets⟩, by simp, ?_⟩
    rw [List.map_cons, List.pairwise_cons]
    refine ⟨fun a ha => ?_, hpairs⟩
    -- the first frame behind this one has the saved frame pointer, and the others lie above it
    rcases frames with _ | ⟨f, rest⟩
    · cases ha
    obtain rfl : f.pointer = saved := hhead f rfl
    rw [List.map_cons, List.pairwise_cons] at hpairs
    rcases List.mem_cons.1 ha with rfl | ha
    · exact hlt
    · exact UInt64.lt_trans hlt (hpairs.1 a ha)

/-! ### Backtraces -/

/-- A backtrace fails if and only if the registers cannot be read. Otherwise it has at most 1024
frames. The first is that of the current instruction, for which its own address is looked up. Behind
it are those of the return addresses along the chain of frame pointers, for each of which the byte
below is looked up, as far as they are within the limit. -/
theorem walk_frameChain (p : σ) (index : DebugIndex) :
    (∀ e, walk p index = .error e ↔ Tracee.registers p = .error e) ∧
    ∀ regs, Tracee.registers p = .ok regs →
      ∃ b, walk p index = .ok b ∧ b.frames.length ≤ 1024 ∧
        (∃ f, b.frames.head? = some f ∧ f.LooksUp index regs.pc regs.pc) ∧
        (∃ frames, FrameChain p regs.framePointer frames) ∧
        ∀ frames, FrameChain p regs.framePointer frames →
          List.Forall₂ (fun place f => BacktraceFrame.LooksUp index place.1 place.2 f)
            (((regs.pc, regs.pc) :: frames.map fun f =>
              (f.returnAddress, f.returnAddress - (1 : UInt64))).take 1024) b.frames := by
  have hwalk : walk p index = (Tracee.registers p).map fun regs =>
      ⟨.at_ index regs.pc regs.pc ::
        (returnAddresses p (maxFrames - 1) regs.framePointer).map (.ofReturn index)⟩ := by
    unfold walk
    rcases Tracee.registers p with e | regs <;> rfl
  refine ⟨fun e => ?_, fun regs hregs => ?_⟩
  · rw [hwalk]
    rcases Tracee.registers p with e' | regs
    · simp [Except.map]
    · exact iff_of_false nofun nofun
  rw [hregs] at hwalk
  obtain ⟨frames, hchain⟩ := exists_frameChain p regs.framePointer
  have heq : ∀ frames, FrameChain p regs.framePointer frames →
      (returnAddresses p (maxFrames - 1) regs.framePointer).map (.ofReturn index) =
        (frames.map fun f =>
          BacktraceFrame.at_ index f.returnAddress (f.returnAddress - (1 : UInt64))).take 1023 := by
    intro frames hchain
    -- a frame of the chain has a return address, so there is a byte below it
    rw [hchain.returnAddresses_eq, ← List.map_take, List.map_map, ← List.map_take]
    refine List.map_congr_left fun f hf => ?_
    exact BacktraceFrame.ofReturn_of_ne_null index (hchain.ascending.1 f (List.mem_of_mem_take hf))
  refine ⟨_, hwalk, ?_, ⟨_, rfl, BacktraceFrame.looksUp_at_ index _ _⟩, ⟨frames, hchain⟩,
    fun frames hchain => ?_⟩
  · show (_ :: _).length ≤ _
    rw [List.length_cons, heq frames hchain, List.length_take]
    omega
  · rw [BacktraceFrame.forall₂_looksUp_iff]
    show _ :: _ = _
    simp only [heq frames hchain, List.take_succ_cons, List.map_cons, List.map_take, List.map_map,
      Function.comp_def]

/-- A caller whose last instruction is a call, and the callee behind it. -/
def callAtEnd : DebugIndex :=
  (({ DebugIndex.empty "/" with
        functions := [⟨"caller", ⟨0x1000⟩, ⟨0x1010⟩, [], 1, true, 0, []⟩,
          ⟨"callee", ⟨0x1010⟩, ⟨0x1020⟩, [], 1, true, 0, []⟩] }
      |>.addLineRecord "a.c" 10 ⟨0x1000⟩ false)
    |>.addLineRecord "a.c" 11 ⟨0x100b⟩ false)
    |>.addLineRecord "a.c" 20 ⟨0x1010⟩ true
    |>.addSequence ⟨0x1000⟩ ⟨0x1020⟩

/-- A machine at the start of the callee, which was called twice: two frames lie above each other,
and the second saves no frame pointer. -/
def twoCalls : Machine :=
  .ofImage ⟨[⟨⟨0x7000⟩, wordBytesOf 0x7010 ++ wordBytesOf 0x1010 ++ wordBytesOf 0 ++
    wordBytesOf 0x2006, false⟩], (Registers.zero.setPc ⟨0x1010⟩).set .rbp 0x7000, 0, [], [], [],
    false⟩ []

/-- The first address of the callee is both the current instruction and a return address. As the
former it belongs to the callee, as the latter to the caller. -/
theorem walk_frameChain_twoCalls :
    Tracee.registers twoCalls = .ok twoCalls.regs ∧
      FrameChain twoCalls twoCalls.regs.framePointer
        [⟨⟨0x7000⟩, ⟨0x1010⟩⟩, ⟨⟨0x7010⟩, ⟨0x2006⟩⟩] ∧
      walk twoCalls callAtEnd = .ok ⟨[
        ⟨⟨0x1010⟩, some "callee", some ⟨"a.c", 20⟩⟩,
        ⟨⟨0x1010⟩, some "caller", some ⟨"a.c", 11⟩⟩,
        ⟨⟨0x2006⟩, none, none⟩]⟩ := by
  have hinner : HoldsFrame twoCalls ⟨0x7000⟩ ⟨0x7010⟩ ⟨0x1010⟩ := by decide +kernel
  have houter : HoldsFrame twoCalls ⟨0x7010⟩ .null ⟨0x2006⟩ := by decide +kernel
  have hchain : FrameChain twoCalls ⟨0x7000⟩ [⟨⟨0x7000⟩, ⟨0x1010⟩⟩, ⟨⟨0x7010⟩, ⟨0x2006⟩⟩] :=
    .link (by decide) hinner (by decide) (by decide)
      (.last (by decide) houter (by decide) (by decide))
  obtain ⟨⟨shown⟩, hb, -, -, -, hframes⟩ :=
    (walk_frameChain twoCalls callAtEnd).2 twoCalls.regs rfl
  have hshown : shown = [BacktraceFrame.at_ callAtEnd ⟨0x1010⟩ ⟨0x1010⟩,
      .at_ callAtEnd ⟨0x1010⟩ ⟨0x100f⟩, .at_ callAtEnd ⟨0x2006⟩ ⟨0x2005⟩] :=
    BacktraceFrame.forall₂_looksUp_iff.1 (hframes _ hchain)
  refine ⟨rfl, hchain, ?_⟩
  rw [hb, hshown]
  -- the index is small, so what is shown can be computed
  decide +kernel

end Backtrace

end SourceDebugger
