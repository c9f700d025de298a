import SourceDebugger.Proofs.FrameSafety

/-!
# Call frame information of a program that is moved

A program that is loaded elsewhere has its call frame information moved with it. `FrameIndex.moved`
is an index whose ranges all lie behind their places in the file by the same distance, and
`UnwindState.moved` a state of the replay whose location does.

* `UnwindState.step_moved` is one instruction of both replays, `UnwindState.replayFrom_moved` a row
  of them: they stay side by side until a location of the moved program leaves the address space.
* `FrameIndex.unwind_moved`: so a frame of the moved program is the frame in the file, moved.
* `FrameIndex.addEntries_moved` is the same for what is read from a section, and
  `FrameIndex.unwind_relocated` unwinds with what is read from one section for the file and for the
  moved program.
-/

namespace SourceDebugger

variable {bias : Addr}

namespace Addr

/-- Without overflow, addresses are added as numbers. -/
theorem toNat_add_of_lt {a : Addr} {n : UInt64} (h : a.toNat + n.toNat < 2 ^ 64) :
    (a + n).toNat = a.toNat + n.toNat :=
  toNat_add?_of_eq_some (add?_of_lt h)

/-- A checked sum fails if and only if it leaves the address space. -/
theorem add?_eq_none_iff {a : Addr} {n : UInt64} :
    a.add? n = none ↔ 2 ^ 64 ≤ a.toNat + n.toNat := by
  unfold add?
  split
  · rename_i hlt
    exact iff_of_false nofun (Nat.not_le.2 hlt)
  · rename_i hge
    exact iff_of_true rfl (Nat.le_of_not_lt hge)

/-- A program that is not moved has the addresses of its file. -/
theorem null_add? (n : UInt64) : null.add? n = some ⟨n⟩ := by
  have hzero : null.toNat = 0 := rfl
  rw [add?_of_lt (by rw [hzero, Nat.zero_add]; exact n.toNat_lt), Option.some_inj, ext_iff_val]
  exact UInt64.zero_add n

/-- Addresses that are moved by the same distance are in the same order. -/
theorem add_le_add_iff {a b : Addr} {n : UInt64} (ha : a.toNat + n.toNat < 2 ^ 64)
    (hb : b.toNat + n.toNat < 2 ^ 64) : a + n ≤ b + n ↔ a ≤ b := by
  have hle : ∀ c d : Addr, c ≤ d ↔ c.toNat ≤ d.toNat := fun _ _ => UInt64.le_iff_toNat_le
  rw [hle, hle, toNat_add_of_lt ha, toNat_add_of_lt hb]
  exact Nat.add_le_add_iff_right

/-- Addresses that stay in the address space keep their order. -/
theorem add_lt_add_iff {a b : Addr} {n : UInt64} (ha : a.toNat + n.toNat < 2 ^ 64)
    (hb : b.toNat + n.toNat < 2 ^ 64) : a + n < b + n ↔ a < b := by
  have hlt : ∀ c d : Addr, c < d ↔ c.toNat < d.toNat := fun _ _ => UInt64.lt_iff_toNat_lt
  rw [hlt, hlt, toNat_add_of_lt ha, toNat_add_of_lt hb]
  exact Nat.add_lt_add_iff_right

end Addr

/-! ### Ranges -/

namespace FrameDescription

/-- The description of the range at its place in a moved program. -/
def moved (bias : Addr) (d : FrameDescription) : FrameDescription :=
  { d with first := d.first + bias.val }

/-- The range of the moved program is in the address space. -/
def Fits (bias : Addr) (d : FrameDescription) : Prop :=
  bias.toNat + d.first.toNat + d.size.toNat < 2 ^ 64

variable {d : FrameDescription}

/-- The first address of the moved range is in the address space. -/
theorem Fits.first_lt (h : d.Fits bias) : d.first.toNat + bias.val.toNat < 2 ^ 64 := by
  have hbias : bias.val.toNat = bias.toNat := rfl
  unfold Fits at h
  omega

/-- So is the address behind the range. -/
theorem Fits.last_lt (h : d.Fits bias) : d.last.toNat + bias.val.toNat < 2 ^ 64 := by
  have hbias : bias.val.toNat = bias.toNat := rfl
  unfold Fits at h
  rw [toNat_last (by omega)]
  omega

/-- The range ends where its end is moved to. -/
theorem Fits.last_moved (h : d.Fits bias) : (d.moved bias).last = d.last + bias.val := by
  have hfirst := Addr.toNat_add_of_lt h.first_lt
  have hbias : bias.val.toNat = bias.toNat := rfl
  unfold Fits at h
  have hlast : d.first.add? d.size = some (d.first + d.size) := Addr.add?_of_lt (by omega)
  have hmoved : (d.first + bias.val).add? d.size = some (d.first + bias.val + d.size) :=
    Addr.add?_of_lt (by omega)
  simp only [last, moved, hlast, hmoved, Option.getD_some, Addr.ext_iff_val, Addr.val_add]
  rw [UInt64.add_assoc, UInt64.add_comm bias.val, ← UInt64.add_assoc]

/-- The moved range covers the moved address. -/
theorem Fits.covers_moved (h : d.Fits bias) {pc : Addr}
    (hpc : pc.toNat + bias.val.toNat < 2 ^ 64) :
    (d.moved bias).covers (pc + bias.val) = d.covers pc := by
  rw [covers, covers, h.last_moved, moved, decide_eq_decide.2 (Addr.add_le_add_iff h.first_lt hpc),
    decide_eq_decide.2 (Addr.add_le_add_iff hpc h.last_lt)]

/-- It ends where the range ends, moved. -/
theorem Fits.lt_last_moved (h : d.Fits bias) {pc : Addr}
    (hpc : pc.toNat + bias.val.toNat < 2 ^ 64) :
    pc + bias.val < (d.moved bias).last ↔ pc < d.last := by
  rw [h.last_moved, Addr.add_lt_add_iff hpc h.last_lt]

end FrameDescription

namespace FrameIndex

/-- The call frame information in a file, for the program moved by a bias. -/
def moved (bias : Addr) (index : FrameIndex) : FrameIndex :=
  { index with descriptions := index.descriptions.map (·.moved bias), bias }

/-- The call frame information in a file, all of whose ranges are in the address space once the
program is moved. -/
structure Movable (bias : Addr) (index : FrameIndex) : Prop where
  /-- The addresses are those in the file. -/
  unmoved : index.bias = .null
  fits : ∀ d ∈ index.descriptions, d.Fits bias

variable {index : FrameIndex}

/-- An entry that can be added for the moved program can be added for the file. -/
theorem addEntry_moved (h : index.Movable bias) {body : List UInt8} {offset : Nat}
    {next : FrameIndex} (hadd : (index.moved bias).addEntry body offset = .ok next) :
    ∃ next₀, index.addEntry body offset = .ok next₀ ∧ next₀.Movable bias ∧
      next = next₀.moved bias := by
  obtain ⟨hunmoved, hfits⟩ := h
  unfold addEntry at hadd ⊢
  rcases hmark : ByteReader.uint32 (.ofList body) with ⟨e | id, r⟩
  · simp only [hmark, bind, Except.bind] at hadd
    cases hadd
  by_cases hid : id = commonEntryMark
  · -- a common entry has no addresses
    rcases hentry : takeCommonEntry r with ⟨e | entry, r⟩
    all_goals simp only [hmark, if_pos hid, hentry, bind, Except.bind] at hadd
    · cases hadd
    · cases hadd
      simp only [hmark, if_pos hid, hentry, bind, Except.bind]
      exact ⟨_, rfl, ⟨hunmoved, hfits⟩, rfl⟩
  by_cases hempty : (index.moved bias).commonEntries.isEmpty = true
  · simp only [hmark, if_neg hid, if_pos hempty, bind, Except.bind] at hadd
    cases hadd
  have hempty₀ : ¬ index.commonEntries.isEmpty = true := hempty
  rcases hfirst : ByteReader.uint64 r with ⟨e | first, r⟩
  · simp only [hmark, if_neg hid, if_neg hempty, hfirst, bind, Except.bind] at hadd
    cases hadd
  rcases hsize : ByteReader.uint64 r with ⟨e | size, r⟩
  · simp only [hmark, if_neg hid, if_neg hempty, hfirst, hsize, bind, Except.bind] at hadd
    cases hadd
  simp only [hmark, if_neg hid, if_neg hempty, hfirst, hsize, bind, Except.bind] at hadd
  simp only [hmark, if_neg hid, if_neg hempty₀, hfirst, hsize, bind, Except.bind, hunmoved,
    Addr.null_add?, Option.bind_some]
  rcases hsum : (index.moved bias).bias.add? first with _ | sum
  · simp only [hsum, Option.bind_none] at hadd
    cases hadd
  rcases hlast : sum.add? size with _ | last
  · simp only [hsum, hlast, Option.bind_some, Option.bind_none] at hadd
    cases hadd
  simp only [hsum, hlast, Option.bind_some] at hadd
  cases hadd
  -- the range in the file ends before the moved one does
  have hsum' : sum.toNat = bias.toNat + first.toNat := Addr.toNat_add?_of_eq_some hsum
  have hlt := Addr.lt_of_add?_eq_some hlast
  have hfirst₀ : (Addr.mk first).toNat = first.toNat := rfl
  have hlast₀ : (Addr.mk first).add? size = some (Addr.mk first + size) :=
    Addr.add?_of_lt (by omega)
  simp only [hlast₀]
  refine ⟨_, rfl, ⟨rfl, fun d hd => ?_⟩, ?_⟩
  · rcases List.mem_append.1 hd with hd | hd
    · exact hfits d hd
    · rw [List.mem_singleton.1 hd]
      show bias.toNat + first.toNat + size.toNat < 2 ^ 64
      omega
  · have hmoved : Addr.mk first + bias.val = sum := by
      have hbias : bias.val.toNat = bias.toNat := rfl
      rw [← Addr.toNat_inj, Addr.toNat_add_of_lt (by omega)]
      omega
    simp only [moved, List.map_append, List.map_cons, List.map_nil, FrameDescription.moved, hmoved]

/-- What can be read for the moved program can be read for the file. -/
theorem addEntries_moved (h : index.Movable bias) {data : List UInt8} {offset : Nat}
    {result : FrameIndex} (hadd : (index.moved bias).addEntries offset data = .ok result) :
    ∃ result₀, index.addEntries offset data = .ok result₀ ∧ result₀.Movable bias ∧
      result = result₀.moved bias := by
  -- along the recursion of the parser: both sides see the same bytes, so they go the same way
  fun_induction addEntries index offset data with
  | case1 index offset data hshort =>
    rw [addEntries, dif_pos hshort] at hadd
    cases hadd
    exact ⟨index, rfl, h, rfl⟩
  | case2 index offset data hlong length hwide =>
    rw [addEntries, dif_neg hlong, if_pos hwide] at hadd
    cases hadd
  | case3 index offset data hlong length behind hwide hzero ih =>
    rw [addEntries, dif_neg hlong, if_neg hwide, if_pos hzero] at hadd
    exact ih h hadd
  | case4 index offset data hlong length behind hwide hne hbehind =>
    rw [addEntries, dif_neg hlong, if_neg hwide, if_neg hne, if_pos hbehind] at hadd
    cases hadd
  -- an entry that is refused by itself is refused when moved, since its bytes are what is wrong
  | case5 index offset data hlong length behind hwide hne hbehind e hentry =>
    rw [addEntries, dif_neg hlong, if_neg hwide, if_neg hne, if_neg hbehind] at hadd
    rcases hmoved : (index.moved bias).addEntry (behind.take length) offset with e | next
    · rw [hmoved] at hadd
      cases hadd
    · obtain ⟨next₀, hnext, -, -⟩ := addEntry_moved h hmoved
      cases hentry.symm.trans hnext
  | case6 index offset data hlong length behind hwide hne hbehind next₀ hentry ih =>
    rw [addEntries, dif_neg hlong, if_neg hwide, if_neg hne, if_neg hbehind] at hadd
    rcases hmoved : (index.moved bias).addEntry (behind.take length) offset with e | next
    · rw [hmoved] at hadd
      cases hadd
    · rw [hmoved] at hadd
      obtain ⟨next₀', hnext, hmovable, rfl⟩ := addEntry_moved h hmoved
      cases hentry.symm.trans hnext
      exact ih hmovable hadd

end FrameIndex

/-! ### The replay -/

/-- The failures of a replay whose location leaves the address space. -/
inductive LocationOverflow (bias : Addr) (codeAlignment : UInt64) : DebugError → Prop
  /-- The location is set to an address that is not in the address space once it is moved. -/
  | setLocation (addr : UInt64) : 2 ^ 64 ≤ bias.toNat + addr.toNat →
    LocationOverflow bias codeAlignment
      (.unresolvableFrame s!"set_loc {Text.Hex.marked addr.toNat} overflows")
  /-- The location is moved on by too many units. -/
  | advance (location : Addr) (delta : UInt64) :
    2 ^ 64 ≤ location.toNat + delta.toNat * codeAlignment.toNat →
    LocationOverflow bias codeAlignment (.unresolvableFrame
      s!"advancing {location.text} by {delta.toNat} * {codeAlignment.toNat} overflows")

/-- What is computed for the file and what is computed for the moved program are related, or both
fail, or the latter alone in a way that is allowed. -/
def Accords {α β : Type} (allowed : DebugError → Prop) (R : α → β → Prop)
    (inFile : Except DebugError α) (inProgram : Except DebugError β) : Prop :=
  match inProgram with
  | .ok b => ∃ a, inFile = .ok a ∧ R a b
  | .error e => (∀ a, inFile ≠ .ok a) ∨ allowed e

namespace Accords

variable {α β γ δ : Type} {allowed : DebugError → Prop} {R : α → β → Prop} {S : γ → δ → Prop}

/-- Results that are related accord. -/
theorem ok {a : α} {b : β} (h : R a b) : Accords allowed R (.ok a) (.ok b) := ⟨a, rfl, h⟩

/-- Two failures accord, whatever their errors are. -/
theorem errors (e e' : DebugError) : Accords allowed R (.error e) (.error e') := .inl (by simp)

theorem refl (x : Except DebugError α) : Accords allowed (· = ·) x x := by
  rcases x with e | a
  · exact errors e e
  · exact ok rfl

/-- The moved program alone may fail in a way that is allowed. -/
theorem fails {x : Except DebugError α} {e : DebugError} (h : allowed e) :
    Accords allowed R x (.error e) := .inr h

/-- More failures may be allowed. -/
theorem mono {x : Except DebugError α} {y : Except DebugError β} (h : Accords allowed R x y)
    {allowed' : DebugError → Prop} (hmono : ∀ e, allowed e → allowed' e) :
    Accords allowed' R x y := by
  rcases y with e | b
  · exact h.imp_right (hmono e)
  · exact h

/-- What goes on from related results comes to related results. -/
theorem bind {x : Except DebugError α} {y : Except DebugError β} (h : Accords allowed R x y)
    {f : α → Except DebugError γ} {g : β → Except DebugError δ}
    (hnext : ∀ a b, R a b → Accords allowed S (f a) (g b)) :
    Accords allowed S (x.bind f) (y.bind g) := by
  rcases y with e | b
  · rcases h with hfails | hallowed
    · rcases x with e₀ | a
      · exact errors e₀ e
      · exact absurd rfl (hfails a)
    · exact fails hallowed
  · obtain ⟨a, rfl, hR⟩ := h
    exact hnext a b hR

end Accords

namespace UnwindState

/-- The state at the same place of a moved program. -/
def moved (bias : Addr) (st : UnwindState) : UnwindState :=
  { st with location := st.location + bias.val }

/-- Two states are at the same place, one in the file and one in the moved program. -/
def MovesTo (bias : Addr) (st₀ st : UnwindState) : Prop :=
  st = st₀.moved bias ∧ st₀.location.toNat + bias.val.toNat < 2 ^ 64

variable {ctx : UnwindContext} {st : UnwindState}

/-- A rule is restored from the initial ones, which do not depend on where the program is. -/
theorem restoreRule_moved (st : UnwindState) (ctx : UnwindContext) (reg : Nat) :
    (st.moved bias).restoreRule { ctx with bias } reg = (st.restoreRule ctx reg).moved bias := by
  unfold restoreRule
  dsimp only
  split <;> rfl

/-- Restoring a rule does not move the location. -/
theorem location_restoreRule (st : UnwindState) (ctx : UnwindContext) (reg : Nat) :
    (st.restoreRule ctx reg).location = st.location := by
  unfold restoreRule
  split <;> rfl

/-- The frame address has the same rule, which may have an offset or not. -/
theorem setCfaOffset_moved (h : st.location.toNat + bias.val.toNat < 2 ^ 64) (offset : Int64) :
    Accords (LocationOverflow bias ctx.codeAlignment) (MovesTo bias) (st.setCfaOffset offset)
      ((st.moved bias).setCfaOffset offset) := by
  unfold setCfaOffset
  simp only [moved]
  rcases st.cfa with _ | _ | _
  · exact .errors _ _
  · exact .ok ⟨rfl, h⟩
  · exact .errors _ _

/-- Both locations are moved on by the same number of units. -/
theorem advance_moved (h : st.location.toNat + bias.val.toNat < 2 ^ 64) (delta : UInt64) :
    Accords (LocationOverflow bias ctx.codeAlignment) (MovesTo bias) (st.advance ctx delta)
      ((st.moved bias).advance { ctx with bias } delta) := by
  have hbias : bias.val.toNat = bias.toNat := rfl
  have hmoved : (st.moved bias).location.toNat = st.location.toNat + bias.val.toNat :=
    Addr.toNat_add_of_lt h
  unfold advance
  dsimp only
  by_cases hproduct : delta.toNat * ctx.codeAlignment.toNat < UInt64.size
  · have hword : (delta * ctx.codeAlignment).toNat = delta.toNat * ctx.codeAlignment.toNat := by
      rw [UInt64.toNat_mul, Nat.mod_eq_of_lt hproduct]
    simp only [if_pos hproduct]
    rcases hsum : (st.moved bias).location.add? (delta * ctx.codeAlignment) with _ | location
    · refine .fails (.advance _ delta ?_)
      rw [← hword]
      exact Addr.add?_eq_none_iff.1 hsum
    -- where the moved location fits, the one in the file does
    · have hlt := Addr.lt_of_add?_eq_some hsum
      have hlocation := Addr.toNat_add?_of_eq_some hsum
      have hsum₀ := Addr.add?_of_lt (a := st.location) (n := delta * ctx.codeAlignment) (by omega)
      have hlocation₀ := Addr.toNat_add?_of_eq_some hsum₀
      have hfits : (st.location + delta * ctx.codeAlignment).toNat + bias.val.toNat < 2 ^ 64 := by
        omega
      have hsame : location = st.location + delta * ctx.codeAlignment + bias.val := by
        rw [← Addr.toNat_inj, Addr.toNat_add_of_lt hfits]
        omega
      simp only [hsum₀]
      refine .ok ⟨?_, hfits⟩
      simp only [moved, hsame]
  · simp only [if_neg hproduct]
    refine .fails (.advance _ delta ?_)
    exact Nat.le_trans (Nat.le_of_not_lt hproduct) (Nat.le_add_left _ _)

/-- The location is set to the address in the file, or to its place in the moved program. -/
theorem setLocation_moved (hctx : ctx.bias = .null) (st : UnwindState) (addr : UInt64) :
    Accords (LocationOverflow bias ctx.codeAlignment) (MovesTo bias)
      (st.step ctx (.setLocation addr))
      ((st.moved bias).step { ctx with bias } (.setLocation addr)) := by
  have hbias : bias.val.toNat = bias.toNat := rfl
  have haddr : (Addr.mk addr).toNat = addr.toNat := rfl
  simp only [step, hctx, Addr.null_add?]
  rcases hsum : bias.add? addr with _ | location
  · exact .fails (.setLocation addr (Addr.add?_eq_none_iff.1 hsum))
  · have hlt := Addr.lt_of_add?_eq_some hsum
    have hlocation := Addr.toNat_add?_of_eq_some hsum
    have hfits : (Addr.mk addr).toNat + bias.val.toNat < 2 ^ 64 := by omega
    have hsame : location = Addr.mk addr + bias.val := by
      rw [← Addr.toNat_inj, Addr.toNat_add_of_lt hfits]
      omega
    refine .ok ⟨?_, hfits⟩
    simp only [moved, hsame]

/-- An instruction does the same to the state for the file and to that for the moved program. -/
theorem step_moved (hctx : ctx.bias = .null) {st₀ st : UnwindState} (h : MovesTo bias st₀ st)
    (i : FrameInstruction) :
    Accords (LocationOverflow bias ctx.codeAlignment) (MovesTo bias) (st₀.step ctx i)
      (st.step { ctx with bias } i) := by
  obtain ⟨rfl, hfits⟩ := h
  cases i with
  | setLocation addr => exact setLocation_moved hctx st₀ addr
  | advance delta => exact advance_moved hfits delta
  | restore reg =>
    refine .ok ⟨restoreRule_moved st₀ ctx reg, ?_⟩
    rwa [location_restoreRule]
  | restoreState =>
    obtain ⟨location, cfa, rules, _ | ⟨⟨cfa', rules'⟩, remembered⟩⟩ := st₀
    · exact .errors _ _
    · exact .ok ⟨rfl, hfits⟩
  | defCfaOffset offset => exact setCfaOffset_moved hfits offset
  | defCfaOffsetFactored n => exact setCfaOffset_moved hfits _
  -- the others neither look at the location nor change it
  | nop | offset | valOffset | undefined | sameValue | register | rememberState | defCfa
  | defCfaFactored | defCfaRegister | defCfaExpression | expression | valExpression =>
    exact .ok ⟨rfl, hfits⟩

/-- A limit is passed by both locations or by none. -/
theorem isPast_moved (h : st.location.toNat + bias.val.toNat < 2 ^ 64) {limit : Option Addr}
    (hlimit : ∀ pc ∈ limit, pc.toNat + bias.val.toNat < 2 ^ 64) :
    (st.moved bias).isPast (limit.map (· + bias.val)) = st.isPast limit := by
  rcases limit with _ | pc
  · rfl
  · exact decide_eq_decide.2 (Addr.add_lt_add_iff (hlimit pc rfl) h)

/-- Before the end and the limit, an instruction is taken and executed. -/
theorem replayFrom_cons (ctx : UnwindContext) (limit : Option Addr) (fuel : Nat) (st : UnwindState)
    (b : UInt8) (bytes : List UInt8) :
    replayFrom ctx limit (fuel + 1) st (b :: bytes) =
      if st.isPast limit then .ok st
      else (FrameInstruction.take (.ofList (b :: bytes))).1.bind fun i =>
        (st.step ctx i).bind fun st =>
          replayFrom ctx limit fuel st (FrameInstruction.take (.ofList (b :: bytes))).2.rest := by
  rw [replayFrom]
  · rcases FrameInstruction.take (.ofList (b :: bytes)) with ⟨e | i, r⟩
    · rfl
    · dsimp only [Except.bind]
      rcases st.step ctx i with e | st' <;> rfl
  · exact List.cons_ne_nil b bytes

/-- Two replays of the same instructions stay side by side. -/
theorem replayFrom_moved (hctx : ctx.bias = .null) {limit : Option Addr}
    (hlimit : ∀ pc ∈ limit, pc.toNat + bias.val.toNat < 2 ^ 64) (fuel : Nat) (bytes : List UInt8)
    {st₀ st : UnwindState} (h : MovesTo bias st₀ st) :
    Accords (LocationOverflow bias ctx.codeAlignment) (MovesTo bias)
      (replayFrom ctx limit fuel st₀ bytes)
      (replayFrom { ctx with bias } (limit.map (· + bias.val)) fuel st bytes) := by
  induction fuel generalizing st₀ st bytes with
  | zero => exact .ok h
  | succ fuel ih =>
    rcases bytes with _ | ⟨b, bytes⟩
    · exact .ok h
    have hpast : st.isPast (limit.map (· + bias.val)) = st₀.isPast limit := by
      rw [h.1, isPast_moved h.2 hlimit]
    rw [replayFrom_cons, replayFrom_cons, hpast]
    split
    · exact .ok h
    -- the same instruction is taken from the same bytes
    · refine (Accords.refl _).bind ?_
      rintro i _ rfl
      exact (step_moved hctx h i).bind fun _ _ hnext => ih _ hnext

/-- The instructions are replayed alike, up to the moved limit. -/
theorem replay_moved (hctx : ctx.bias = .null) {limit : Option Addr}
    (hlimit : ∀ pc ∈ limit, pc.toNat + bias.val.toNat < 2 ^ 64) {bytes : List UInt8}
    {st₀ st : UnwindState} (h : MovesTo bias st₀ st) :
    Accords (LocationOverflow bias ctx.codeAlignment) (MovesTo bias)
      (st₀.replay ctx limit bytes) (st.replay { ctx with bias } (limit.map (· + bias.val)) bytes) :=
  replayFrom_moved hctx hlimit bytes.length bytes h

end UnwindState

/-! ### Frames -/

/-- The frame at its place in a moved program. -/
def Frame.moved (bias : Addr) (f : Frame) : Frame :=
  { f with location := f.location + bias.val, address := f.address + bias.val }

/-- The base of a frame does not depend on where its code is. -/
theorem Frame.resolve_moved (allowed : DebugError → Prop) (pc pc' : Addr) (rule : CfaRule)
    (registers : List UInt64) :
    Accords allowed (· = ·) (resolve pc rule registers) (resolve pc' rule registers) := by
  rcases rule with _ | ⟨reg, offset⟩ | expr
  · exact .errors _ _
  · exact .refl (resolve pc (.registerOffset reg offset) registers)
  · exact .errors _ _

namespace FrameIndex

variable {index : FrameIndex}

/-- What answers for an address of the moved program is what answers for it in the file. -/
theorem covering_moved {allowed : DebugError → Prop} (h : index.Movable bias) {pc : Addr}
    (hpc : pc.toNat + bias.val.toNat < 2 ^ 64) :
    Accords allowed (fun covered₀ covered => covered = (covered₀.1.moved bias, covered₀.2) ∧
      covered₀.1.Fits bias ∧ index.covering pc = .ok covered₀) (index.covering pc)
      ((index.moved bias).covering (pc + bias.val)) := by
  -- what is kept of a row of ranges is kept of the moved ranges
  have hall : (index.moved bias).descriptions.filter (·.covers (pc + bias.val)) =
      (index.descriptions.filter (·.covers pc)).map (·.moved bias) := by
    rw [moved, List.filter_map]
    exact congrArg _ (List.filter_congr fun d hd => (h.fits d hd).covers_moved hpc)
  have hinner : ∀ ds : List FrameDescription, (∀ d ∈ ds, d.Fits bias) →
      (ds.map (·.moved bias)).filter (pc + bias.val < ·.last) =
        (ds.filter (pc < ·.last)).map (·.moved bias) := by
    intro ds hds
    rw [List.filter_map]
    refine congrArg _ (List.filter_congr fun d hd => ?_)
    exact decide_eq_decide.2 ((hds d hd).lt_last_moved hpc)
  have hcandidates : (index.moved bias).candidates (pc + bias.val) =
      (index.candidates pc).map (·.moved bias) := by
    unfold candidates
    dsimp only
    rw [hall, List.length_map]
    split
    · exact hinner _ fun d hd => h.fits d (List.mem_of_mem_filter hd)
    · rfl
  unfold covering
  rw [hcandidates]
  rcases hlist : index.candidates pc with _ | ⟨d, _ | ⟨d', ds⟩⟩
  · exact .errors _ _
  · exact .ok ⟨rfl, h.fits d (mem_of_candidates (hlist ▸ List.mem_singleton_self d)), rfl⟩
  · exact .errors _ _

/-- Unwinding in the moved program gives the frame that unwinding in the file gives, at its place in
the program, or a location of the moved program leaves the address space. -/
theorem unwind_moved (h : index.Movable bias) {pc : Addr}
    (hpc : pc.toNat + bias.val.toNat < 2 ^ 64) (regs : Registers) :
    Accords (fun e => ∃ d entry, index.covering pc = .ok (d, entry) ∧
        LocationOverflow bias entry.codeAlignment e)
      (fun f₀ f => f = f₀.moved bias ∧ f₀.location.toNat + bias.val.toNat < 2 ^ 64 ∧
        f₀.address = pc)
      (index.unwind pc regs) ((index.moved bias).unwind (pc + bias.val) regs) := by
  refine (covering_moved h hpc).bind ?_
  rintro ⟨d, entry⟩ _ ⟨rfl, hfits, hcovering⟩
  have overflows : ∀ e, LocationOverflow bias entry.codeAlignment e →
      ∃ d entry, index.covering pc = .ok (d, entry) ∧
        LocationOverflow bias entry.codeAlignment e :=
    fun e he => ⟨d, entry, hcovering, he⟩
  -- the instructions of the common entry, from the first address of the range on
  refine ((UnwindState.replay_moved h.unmoved (by simp) ⟨rfl, hfits.first_lt⟩).mono overflows).bind
    ?_
  rintro st₀ _ ⟨rfl, hst⟩
  -- those of the description, up to the address
  have hlimit : ∀ a ∈ some pc, a.toNat + bias.val.toNat < 2 ^ 64 := by simpa using hpc
  let ctx : UnwindContext := ⟨entry.codeAlignment, entry.dataAlignment, index.bias, st₀.rules⟩
  have hctx : ctx.bias = .null := h.unmoved
  refine ((UnwindState.replay_moved hctx hlimit ⟨rfl, hst⟩).mono overflows).bind ?_
  rintro st₁ _ ⟨rfl, hst₁⟩
  refine (Frame.resolve_moved _ pc (pc + bias.val) st₁.cfa regs.debugTable).bind ?_
  rintro frameBase _ rfl
  exact .ok ⟨rfl, hst₁, rfl⟩

/-- Unwinding commutes with relocation. A section that can be read for the moved program can be
read for the file. A frame of the moved program is then a frame in the file with the same rules and
base, at the distance of the bias, and an unwinding that fails for the moved program alone fails
since a location leaves the address space. -/
theorem unwind_relocated {data : List UInt8} {index : FrameIndex}
    (hparse : parse data bias = .ok index) :
    ∃ index₀, parse data .null = .ok index₀ ∧
      ∀ pc regs, pc.toNat + bias.toNat < 2 ^ 64 →
        (∀ f, index.unwind (pc + bias.val) regs = .ok f →
          ∃ f₀, index₀.unwind pc regs = .ok f₀ ∧
            f₀.cfa = f.cfa ∧ f₀.rules = f.rules ∧ f₀.frameBase = f.frameBase ∧
            f₀.location.toNat + bias.toNat = f.location.toNat ∧
            f₀.address.toNat + bias.toNat = f.address.toNat) ∧
        ∀ f₀ e, index₀.unwind pc regs = .ok f₀ → index.unwind (pc + bias.val) regs = .error e →
          ∃ d entry, index₀.covering pc = .ok (d, entry) ∧
            LocationOverflow bias entry.codeAlignment e := by
  have hempty : Movable bias ⟨[], [], .null⟩ := ⟨rfl, by simp⟩
  obtain ⟨index₀, hparse₀, hmovable, rfl⟩ := addEntries_moved hempty hparse
  refine ⟨index₀, hparse₀, fun pc regs hpc => ?_⟩
  have haccords := unwind_moved hmovable hpc regs
  -- the moved index is parsed from the same bytes, so only locations that overflow make a
  -- difference
  constructor
  · intro f hf
    rw [hf] at haccords
    obtain ⟨f₀, hf₀, rfl, hlocation, rfl⟩ := haccords
    exact ⟨f₀, hf₀, rfl, rfl, rfl, (Addr.toNat_add_of_lt hlocation).symm,
      (Addr.toNat_add_of_lt hpc).symm⟩
  · intro f₀ e hf₀ he
    rw [he, hf₀] at haccords
    exact haccords.resolve_left fun hfails => hfails f₀ rfl

/-- A section with one description, for sixteen bytes from 0x100 on. Behind the first instruction
the frame address is sixteen bytes above the stack pointer; then the location is set to 0x2000. -/
def aheadBytes : List UInt8 :=
  [14, 0, 0, 0, 255, 255, 255, 255, 1, 0, 1, 0x78, 16, 0x0c, 0x07, 0x08, 0x90, 0x01] ++
    [34, 0, 0, 0, 0, 0, 0, 0, 0, 1, 0, 0, 0, 0, 0, 0, 16, 0, 0, 0, 0, 0, 0, 0] ++
    [0x41, 0x0e, 0x10, 0x01, 0, 0x20, 0, 0, 0, 0, 0, 0, 0x0e, 0x18]

/-- What is read from it. -/
def ahead (bias : Addr) : FrameIndex where
  commonEntries := [⟨1, "", 1, -8, 16, [0x0c, 0x07, 0x08, 0x90, 0x01]⟩]
  descriptions :=
    [⟨Addr.mk 0x100 + bias.val, 16,
      [0x41, 0x0e, 0x10, 0x01, 0, 0x20, 0, 0, 0, 0, 0, 0, 0x0e, 0x18], 0⟩]
  bias

/-- Moved by 0x400000 the program has the frame, moved; at the end of the address space there is no
place for the location. -/
theorem unwind_relocated_ahead :
    let regs := Registers.zero.set .rsp 0x7000
    (∃ index₀ f f₀, parse aheadBytes ⟨0x400000⟩ = .ok (ahead ⟨0x400000⟩) ∧
      parse aheadBytes .null = .ok index₀ ∧
      (ahead ⟨0x400000⟩).unwind ⟨0x400102⟩ regs = .ok f ∧ index₀.unwind ⟨0x102⟩ regs = .ok f₀ ∧
      f₀.frameBase = f.frameBase ∧ f₀.location.toNat + 0x400000 = f.location.toNat) ∧
    ∃ index₀ e, parse aheadBytes ⟨0xfffffffffffff000⟩ = .ok (ahead ⟨0xfffffffffffff000⟩) ∧
      parse aheadBytes .null = .ok index₀ ∧
      (ahead ⟨0xfffffffffffff000⟩).unwind ⟨0xfffffffffffff102⟩ regs = .error e ∧
      LocationOverflow ⟨0xfffffffffffff000⟩ 1 e := by
  have hnear : parse aheadBytes ⟨0x400000⟩ = .ok (ahead ⟨0x400000⟩) := by decide +kernel
  have hfar : parse aheadBytes ⟨0xfffffffffffff000⟩ = .ok (ahead ⟨0xfffffffffffff000⟩) := by
    decide +kernel
  have hfile : parse aheadBytes .null = .ok (ahead .null) := by decide +kernel
  constructor
  · obtain ⟨index₀, hparse, h⟩ := unwind_relocated hnear
    obtain ⟨f₀, hf₀, -, -, hbase, hlocation, -⟩ :=
      (h ⟨0x102⟩ (Registers.zero.set .rsp 0x7000) (by decide)).1 _ rfl
    exact ⟨index₀, _, f₀, hnear, hparse, rfl, hf₀, hbase, hlocation⟩
  · obtain ⟨index₀, hparse, h⟩ := unwind_relocated hfar
    obtain rfl : ahead .null = index₀ := Except.ok.inj (hfile.symm.trans hparse)
    obtain ⟨d, entry, hcovering, hoverflow⟩ :=
      (h ⟨0x102⟩ (Registers.zero.set .rsp 0x7000) (by decide)).2 _ _ rfl rfl
    obtain ⟨-, rfl⟩ := Prod.mk.inj (Except.ok.inj hcovering)
    exact ⟨_, _, hfar, hparse, rfl, hoverflow⟩

end FrameIndex

end SourceDebugger
