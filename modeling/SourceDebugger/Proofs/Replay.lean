import SourceDebugger.Proofs.FrameRelocation
import SourceDebugger.Proofs.Leb128
import SourceDebugger.Proofs.Unwind

/-!
# The replay as a row of instructions

A replay takes instructions from bytes and executes them until the bytes end or the location is past
a limit. `FrameInstruction.Decodes` says which instructions bytes consist of, and
`UnwindState.Runs` what becomes of a state by them.

* `UnwindState.replay_append`: instructions that are executed lead the replay to the bytes behind
  them, and `UnwindState.exists_runs`: a replay that succeeds has executed instructions up to the
  end of the bytes or to the limit.
* `FrameIndex.exists_executes` is the same for the two replays of an unwinding. An instruction to
  which the unwinding comes, `FrameIndex.ComesTo`, and which fails makes it fail.
-/

namespace SourceDebugger

open Read

namespace FrameInstruction

open Read ByteReader Leb128

/-- A register is a number, so it looks at no more than it takes. -/
theorem local_takeRegister : Local takeRegister :=
  local_uleb128.bind fun _ => .ite (.pure _) (.throw _)

theorem local_takeUnsigned : Local takeUnsigned :=
  local_uleb128.bind fun _ => .ite (.pure _) (.throw _)

/-- An expression is a block with its length before it. -/
theorem local_takeExpression : Local takeExpression :=
  local_uleb128.bind fun _ => local_bytes _

/-- An instruction with one operand. -/
theorem local_one (f : Nat → FrameInstruction) : Local (do return f (← takeRegister)) :=
  local_takeRegister.map

/-- An instruction with a register and another operand. -/
theorem local_two {α : Type} {x : Read α} (hx : Local x) (f : Nat → α → FrameInstruction) :
    Local (do
      let reg ← takeRegister
      return f reg (← x)) :=
  local_takeRegister.bind fun _ => hx.map

/-- Behind each opcode stand the operands of its kind, or it is refused. -/
theorem local_takeExtended (op : UInt8) : Local (takeExtended op) := by
  unfold takeExtended
  split
  case h_1 | h_11 | h_12 => exact .pure _
  case h_2 => exact local_uint64.map
  case h_3 => exact local_uint8.map
  case h_4 => exact local_uint16.map
  case h_5 => exact local_uint32.map
  case h_6 | h_13 | h_21 => exact local_two local_takeUnsigned _
  case h_18 | h_19 | h_22 => exact local_two local_sleb128 _
  case h_17 | h_23 => exact local_two local_takeExpression _
  case h_10 => exact local_two local_takeRegister _
  case h_7 | h_8 | h_9 | h_14 => exact local_one _
  case h_15 => exact local_takeUnsigned.map
  case h_16 => exact local_takeExpression.map
  case h_20 => exact local_sleb128.map
  case h_24 => exact .throw _

/-- An instruction looks at no more than it takes, whichever it is. -/
theorem local_take : Local take := by
  refine local_uint8.bind fun op => ?_
  dsimp only
  split
  · exact .pure _
  · exact local_takeUnsigned.map
  · exact .pure _
  · exact local_takeExtended op

/-- An instruction has a first byte. -/
theorem ne_nil_of_takes {bs : List UInt8} {i : FrameInstruction} (h : Takes take bs i) :
    bs ≠ [] := by
  rintro rfl
  have hread := h 0 []
  cases hread

/-- Bytes that consist of these instructions, each in any encoding that can be read. -/
inductive Decodes : List UInt8 → List FrameInstruction → Prop
  | nil : Decodes [] []
  | cons {bs code : List UInt8} {i : FrameInstruction} {is : List FrameInstruction} :
    Takes take bs i → Decodes code is → Decodes (bs ++ code) (i :: is)

/-- The bytes of an instruction stand between those before it and those behind it. -/
theorem Decodes.split {code : List UInt8} {before after : List FrameInstruction}
    {i : FrameInstruction} (h : Decodes code (before ++ i :: after)) :
    ∃ front bs back, code = front ++ (bs ++ back) ∧ Decodes front before ∧ Takes take bs i := by
  induction before generalizing code with
  | nil =>
    cases h with
    | @cons bs back _ _ htakes hrest => exact ⟨[], bs, back, rfl, .nil, htakes⟩
  | cons j before ih =>
    cases h with
    | @cons cs rest _ _ htakes hrest =>
      obtain ⟨front, bs, back, rfl, hfront, hbs⟩ := ih hrest
      exact ⟨cs ++ front, bs, back, by rw [List.append_assoc], .cons htakes hfront, hbs⟩

end FrameInstruction

open FrameInstruction

namespace UnwindState

variable {ctx : UnwindContext} {limit : Option Addr} {st st' : UnwindState}
  {is : List FrameInstruction} {i : FrameInstruction} {bs code rest : List UInt8}

/-- Instructions are executed one after the other, before each of which the location is not past the
limit. -/
inductive Runs (ctx : UnwindContext) (limit : Option Addr) :
    UnwindState → List FrameInstruction → UnwindState → Prop
  | nil (st : UnwindState) : Runs ctx limit st [] st
  | cons {st st₁ st' : UnwindState} {i : FrameInstruction} {is : List FrameInstruction} :
    st.isPast limit = false → st.step ctx i = .ok st₁ → Runs ctx limit st₁ is st' →
    Runs ctx limit st (i :: is) st'

/-- Instructions can be run in two parts. -/
theorem runs_append {before after : List FrameInstruction} :
    Runs ctx limit st (before ++ after) st' ↔
      ∃ st₁, Runs ctx limit st before st₁ ∧ Runs ctx limit st₁ after st' := by
  -- along the first part; a run is cut where its instructions are
  induction before generalizing st with
  | nil =>
    refine ⟨fun h => ⟨st, .nil st, h⟩, ?_⟩
    rintro ⟨_, ⟨⟩, h⟩
    exact h
  | cons i before ih =>
    constructor
    · intro h
      cases h with
      | cons hpast hstep hrest =>
        obtain ⟨st₁, hbefore, hafter⟩ := ih.1 hrest
        exact ⟨st₁, .cons hpast hstep hbefore, hafter⟩
    · rintro ⟨st₁, hbefore, hafter⟩
      cases hbefore with
      | cons hpast hstep hrest => exact .cons hpast hstep (ih.2 ⟨st₁, hrest, hafter⟩)

/-- More fuel than bytes does not matter. -/
theorem replayFrom_eq_replay (bytes : List UInt8) {fuel : Nat} (h : bytes.length ≤ fuel) :
    replayFrom ctx limit fuel st bytes = st.replay ctx limit bytes := by
  suffices hall : ∀ n m, bytes.length ≤ n → bytes.length ≤ m →
      replayFrom ctx limit n st bytes = replayFrom ctx limit m st bytes from
    hall _ _ h (Nat.le_refl _)
  clear h
  intro n
  -- every instruction takes some fuel of both, and at least one byte
  induction n generalizing bytes st with
  | zero =>
    intro m hn hm
    obtain rfl := List.length_eq_zero_iff.1 (Nat.le_zero.1 hn)
    rw [replayFrom_of_end (.inl rfl), replayFrom_of_end (.inl rfl)]
  | succ n ih =>
    intro m hn hm
    rcases bytes with _ | ⟨b, bytes⟩
    · rw [replayFrom_of_end (.inl rfl), replayFrom_of_end (.inl rfl)]
    obtain ⟨m, rfl⟩ : ∃ k, m = k + 1 := ⟨m - 1, by rw [List.length_cons] at hm; omega⟩
    rw [replayFrom_cons, replayFrom_cons]
    congr 1
    rcases htake : take (.ofList (b :: bytes)) with ⟨e | i, r⟩
    · rfl
    dsimp only [Except.bind]
    rcases st.step ctx i with e | st₁
    · rfl
    obtain ⟨cs, hcs, htakes⟩ := local_take _ _ _ htake
    have hcs : b :: bytes = cs ++ r.rest := hcs
    have hlength := congrArg List.length hcs
    have hpos := List.length_pos_iff.2 (ne_nil_of_takes htakes)
    rw [List.length_append] at hlength
    rw [List.length_cons] at hlength hn hm
    exact ih r.rest m (by omega) (by omega)

/-- At the end of the bytes, or past the limit, the replay is over. -/
theorem replay_of_end (h : rest = [] ∨ st.isPast limit = true) :
    st.replay ctx limit rest = .ok st :=
  replayFrom_of_end h _

/-- Before that, an instruction is taken and executed, and the replay goes on behind it. -/
theorem replay_of_takes (h : Takes take bs i) (hpast : st.isPast limit = false)
    (rest : List UInt8) :
    st.replay ctx limit (bs ++ rest) =
      (st.step ctx i).bind fun st => st.replay ctx limit rest := by
  obtain ⟨b, more, rfl⟩ := List.exists_cons_of_ne_nil (ne_nil_of_takes h)
  have htake : take (.ofList (b :: more ++ rest)) = (.ok i, ⟨0 + (b :: more).length, rest⟩) :=
    h 0 rest
  rw [replay, List.cons_append, List.length_cons, replayFrom_cons, hpast, if_neg Bool.false_ne_true,
    ← List.cons_append, htake]
  dsimp only [Except.bind]
  rcases st.step ctx i with e | st₁
  · rfl
  · exact replayFrom_eq_replay rest (by simp)

/-- Instructions that are executed lead to the bytes behind them. -/
theorem replay_append (h : Decodes code is) (hruns : Runs ctx limit st is st')
    (rest : List UInt8) : st.replay ctx limit (code ++ rest) = st'.replay ctx limit rest := by
  induction h generalizing st with
  | nil =>
    cases hruns
    rfl
  | cons htakes _ ih =>
    cases hruns with
    | cons hpast hstep hruns =>
      rw [List.append_assoc, replay_of_takes htakes hpast, hstep]
      exact ih hruns

/-- A replay that succeeds has executed instructions up to the end of the bytes, or until the
location was past the limit. -/
theorem exists_runs {bytes : List UInt8} (h : st.replay ctx limit bytes = .ok st') :
    ∃ code rest is, bytes = code ++ rest ∧ Decodes code is ∧ Runs ctx limit st is st' ∧
      (rest = [] ∨ st'.isPast limit = true) := by
  obtain ⟨n, hn⟩ : ∃ n, bytes.length = n := ⟨_, rfl⟩
  induction n using Nat.strong_induction_on generalizing bytes st with
  | h n ih =>
    subst hn
    by_cases hend : bytes = [] ∨ st.isPast limit = true
    · cases (replay_of_end hend).symm.trans h
      exact ⟨[], bytes, [], rfl, .nil, .nil _, hend⟩
    obtain ⟨hne, hpast⟩ := not_or.1 hend
    rw [Bool.not_eq_true] at hpast
    -- the first instruction can be taken and executed
    obtain ⟨b, more, rfl⟩ := List.exists_cons_of_ne_nil hne
    have hcons := h
    rw [replay, List.length_cons, replayFrom_cons, hpast, if_neg Bool.false_ne_true] at hcons
    rcases htake : take (.ofList (b :: more)) with ⟨e | i, r⟩ <;> rw [htake] at hcons
    · cases hcons
    obtain ⟨bs, hbs, htakes⟩ := local_take _ _ _ htake
    have hbs : b :: more = bs ++ r.rest := hbs
    have hpos := List.length_pos_iff.2 (ne_nil_of_takes htakes)
    rw [hbs, replay_of_takes htakes hpast] at h
    rcases hstep : st.step ctx i with e | st₁ <;> rw [hstep] at h
    · cases h
    -- and the rest is shorter
    have hlt : r.rest.length < (b :: more).length := by
      rw [hbs, List.length_append]
      omega
    obtain ⟨code, rest, is, hrest, hcode, hruns, hover⟩ := ih _ hlt h rfl
    exact ⟨bs ++ code, rest, i :: is, by rw [hbs, hrest, List.append_assoc],
      .cons htakes hcode, .cons hpast hstep hruns, hover⟩

/-- A replay that ends before the limit has executed all instructions. -/
theorem runs_of_replay (hcode : Decodes code is) (h : st.replay ctx limit code = .ok st')
    (hpast : st'.isPast limit = false) : Runs ctx limit st is st' := by
  induction hcode generalizing st with
  | nil =>
    cases (replay_of_end (.inl rfl)).symm.trans h
    exact .nil _
  | @cons bs code i is htakes _ ih =>
    rcases hst : st.isPast limit
    · rw [replay_of_takes htakes hst] at h
      rcases hstep : st.step ctx i with e | st₁ <;> rw [hstep] at h
      · cases h
      · exact .cons hst hstep (ih h)
    · -- past the limit it would have stayed where it was
      cases (replay_of_end (.inr hst)).symm.trans h
      cases hst.symm.trans hpast

/-- A rule that is set is found under its register, and the others stay. -/
theorem find?_setRule (st : UnwindState) (reg : Nat) (rule : RegisterRule) (r : Nat) :
    SortedMap.find? (st.setRule reg rule).rules r =
      if r = reg then some rule else SortedMap.find? st.rules r := by
  by_cases hr : r = reg
  · rw [if_pos hr, hr]
    exact SortedMap.find?_update_self _ _ _
  · rw [if_neg hr]
    exact SortedMap.find?_update_of_ne _ _ _ hr

/-- A register gets back the rule of the common entry, or none. -/
theorem find?_restoreRule (ctx : UnwindContext) (st : UnwindState) (reg r : Nat) :
    SortedMap.find? (st.restoreRule ctx reg).rules r =
      if r = reg then SortedMap.find? ctx.initial reg else SortedMap.find? st.rules r := by
  unfold restoreRule
  split
  · rename_i rule hrule
    rw [find?_setRule, hrule]
  · rename_i hnone
    rw [hnone]
    exact SortedMap.find?_filter _ _ _

/-- Only the rule of this register changes. -/
theorem restoreRule_eq (ctx : UnwindContext) (st : UnwindState) (reg : Nat) :
    st.restoreRule ctx reg = { st with rules := (st.restoreRule ctx reg).rules } := by
  unfold restoreRule
  split <;> rfl

/-- Restoring the rule of a register does not change the frame address. -/
theorem cfa_restoreRule (ctx : UnwindContext) (st : UnwindState) (reg : Nat) :
    (st.restoreRule ctx reg).cfa = st.cfa := by
  rw [restoreRule_eq]

/-- An offset can be set if there is a register to count from. -/
theorem setCfaOffset_ok {n : Int64} (h : st.setCfaOffset n = .ok st') :
    ∃ reg, st' = { st with cfa := .registerOffset reg n } := by
  unfold setCfaOffset at h
  split at h
  · exact ⟨_, (Except.ok.inj h).symm⟩
  · cases h

/-- To advance changes the location only. -/
theorem advance_ok {delta : UInt64} (h : st.advance ctx delta = .ok st') :
    ∃ location, st' = { st with location } := by
  unfold advance at h
  dsimp only at h
  split at h
  · exact ⟨_, (Except.ok.inj h).symm⟩
  · cases h

/-- To set the location changes the location only. -/
theorem setLocation_ok {addr : UInt64} (h : st.step ctx (.setLocation addr) = .ok st') :
    ∃ location, st' = { st with location } := by
  simp only [step] at h
  split at h
  · exact ⟨_, (Except.ok.inj h).symm⟩
  · cases h

/-- All instructions but two leave alone what was kept. -/
theorem remembered_of_step (h : st.step ctx i = .ok st') (hremember : i ≠ .rememberState)
    (hrestore : i ≠ .restoreState) : st'.remembered = st.remembered := by
  -- only the two instructions of a bracket look at what is remembered
  cases i
  case rememberState => exact absurd rfl hremember
  case restoreState => exact absurd rfl hrestore
  case setLocation addr =>
    obtain ⟨location, rfl⟩ := setLocation_ok h
    rfl
  case advance delta =>
    obtain ⟨location, rfl⟩ := advance_ok h
    rfl
  case restore reg =>
    cases h
    rw [restoreRule_eq]
  case defCfaOffset n | defCfaOffsetFactored n =>
    obtain ⟨reg, rfl⟩ := setCfaOffset_ok h
    rfl
  all_goals
    cases h
    rfl

end UnwindState

/-! ### Unwinding -/

open UnwindState

/-- The state before the instructions of the common entry. -/
def FrameDescription.start (d : FrameDescription) : UnwindState := ⟨d.first, .undefined, [], []⟩

namespace FrameIndex

variable {index : FrameIndex} {pc : Addr} {d : FrameDescription} {entry : CommonEntry}
  {common own before : List FrameInstruction} {st₀ st : UnwindState} {i : FrameInstruction}
  {ctx : UnwindContext}

/-- What does not change during a replay, with the rules that the common entry set up. -/
def context (index : FrameIndex) (entry : CommonEntry) (initial : RegisterRules) : UnwindContext :=
  ⟨entry.codeAlignment, entry.dataAlignment, index.bias, initial⟩

/-- To unwind at an address executes the instructions `common` of the common entry and the
instructions `own` of the description, with the state `st₀` between them and `st` at the end. -/
structure Executes (index : FrameIndex) (pc : Addr) (d : FrameDescription) (entry : CommonEntry)
    (common own : List FrameInstruction) (st₀ st : UnwindState) : Prop where
  covering : index.covering pc = .ok (d, entry)
  decodes_common : Decodes entry.initialInstructions common
  runs_common : Runs (index.context entry []) none d.start common st₀
  own : ∃ code rest, d.instructions = code ++ rest ∧ Decodes code own ∧
    Runs (index.context entry st₀.rules) (some pc) st₀ own st ∧
    (rest = [] ∨ st.isPast (some pc) = true)

/-- To unwind at an address comes to an instruction in a state, behind the instructions `before` of
the common entry and of the description. -/
inductive ComesTo (index : FrameIndex) (pc : Addr) (d : FrameDescription) (entry : CommonEntry) :
    List FrameInstruction → UnwindContext → UnwindState → FrameInstruction → Prop
  | common {before : List FrameInstruction} {st : UnwindState} {i : FrameInstruction}
      {code bs rest : List UInt8} : index.covering pc = .ok (d, entry) →
    entry.initialInstructions = code ++ (bs ++ rest) → Decodes code before → Takes take bs i →
    Runs (index.context entry []) none d.start before st →
    ComesTo index pc d entry before (index.context entry []) st i
  | own {common before : List FrameInstruction} {st₀ st : UnwindState} {i : FrameInstruction}
      {code bs rest : List UInt8} : index.covering pc = .ok (d, entry) →
    Decodes entry.initialInstructions common →
    Runs (index.context entry []) none d.start common st₀ →
    d.instructions = code ++ (bs ++ rest) → Decodes code before → Takes take bs i →
    Runs (index.context entry st₀.rules) (some pc) st₀ before st →
    st.isPast (some pc) = false →
    ComesTo index pc d entry (common ++ before) (index.context entry st₀.rules) st i

/-- Unwinding is to find the description, to replay both rows of instructions, and to compute the
base of the frame. -/
theorem unwind_of_covering (hcovering : index.covering pc = .ok (d, entry)) (regs : Registers) :
    index.unwind pc regs =
      (d.start.replay (index.context entry []) none entry.initialInstructions).bind fun st₀ =>
        (st₀.replay (index.context entry st₀.rules) (some pc) d.instructions).bind fun st =>
          (Frame.resolve pc st.cfa regs.debugTable).bind fun frameBase =>
            .ok
              { location := st.location, address := pc, cfa := st.cfa, rules := st.rules,
                registers := regs.debugTable, frameBase,
                returnAddressRegister := entry.returnAddressRegister } := by
  unfold unwind
  rw [hcovering]
  rfl

/-- An unwinding that succeeds has executed instructions, and its frame has the rules to which they
lead. -/
theorem exists_executes {regs : Registers} {f : Frame} (h : index.unwind pc regs = .ok f) :
    ∃ d entry common own st₀ st, index.Executes pc d entry common own st₀ st ∧
      f.location = st.location ∧ f.cfa = st.cfa ∧ f.rules = st.rules ∧
      ∃ reg n, st.cfa = .registerOffset reg n := by
  rcases hcovering : index.covering pc with e | ⟨d, entry⟩
  · simp [unwind, hcovering, bind, Except.bind] at h
  rw [unwind_of_covering hcovering] at h
  rcases hcommon : d.start.replay (index.context entry []) none entry.initialInstructions with
    e | st₀ <;> rw [hcommon] at h
  · cases h
  rcases hown : st₀.replay (index.context entry st₀.rules) (some pc) d.instructions with
    e | st <;> simp only [Except.bind, hown] at h
  · cases h
  rcases hbase : Frame.resolve pc st.cfa regs.debugTable with e | frameBase <;> rw [hbase] at h
  · cases h
  cases h
  -- without a limit all instructions of the common entry are executed
  obtain ⟨code, rest, common, hbytes, hdecodes, hruns, hover⟩ := exists_runs hcommon
  obtain rfl : rest = [] := hover.resolve_right nofun
  rw [List.append_nil] at hbytes
  obtain ⟨code', rest', own, hbytes', hdecodes', hruns', hover'⟩ := exists_runs hown
  refine ⟨d, entry, common, own, st₀, st, ⟨hcovering, hbytes ▸ hdecodes, hruns, code', rest',
    hbytes', hdecodes', hruns', hover'⟩, rfl, rfl, rfl, ?_⟩
  rcases hcfa : st.cfa with _ | ⟨reg, n⟩ | expr <;> rw [hcfa] at hbase
  · cases hbase
  · exact ⟨reg, n, rfl⟩
  · cases hbase

/-- What is executed is what it comes to. -/
theorem Executes.comesTo_common {after : List FrameInstruction} {st₁ : UnwindState}
    (h : index.Executes pc d entry (before ++ i :: after) own st₀ st)
    (hruns : Runs (index.context entry []) none d.start before st₁) :
    index.ComesTo pc d entry before (index.context entry []) st₁ i := by
  obtain ⟨front, bs, back, hbytes, hfront, htakes⟩ := h.decodes_common.split
  exact .common h.covering hbytes hfront htakes hruns

/-- A state before an instruction of the description itself is one that the replay comes to. -/
theorem Executes.comesTo_own {after : List FrameInstruction} {st₁ : UnwindState}
    (h : index.Executes pc d entry common (before ++ i :: after) st₀ st)
    (hruns : Runs (index.context entry st₀.rules) (some pc) st₀ before st₁)
    (hpast : st₁.isPast (some pc) = false) :
    index.ComesTo pc d entry (common ++ before) (index.context entry st₀.rules) st₁ i := by
  obtain ⟨code, rest, hcode, hdecodes, -, -⟩ := h.own
  obtain ⟨front, bs, back, hbytes, hfront, htakes⟩ := hdecodes.split
  have hinstructions : d.instructions = front ++ (bs ++ (back ++ rest)) := by
    rw [hcode, hbytes, List.append_assoc, List.append_assoc]
  exact .own h.covering h.decodes_common h.runs_common hinstructions hfront htakes hruns hpast

/-- Where an instruction fails, unwinding fails. -/
theorem ComesTo.unwind_error (h : index.ComesTo pc d entry before ctx st i) {e : DebugError}
    (hstep : st.step ctx i = .error e) (regs : Registers) : index.unwind pc regs = .error e := by
  cases h with
  | common hcovering hbytes hdecodes htakes hruns =>
    rw [unwind_of_covering hcovering, hbytes, replay_append hdecodes hruns,
      replay_of_takes htakes rfl, hstep]
    rfl
  | own hcovering hdecodes₀ hruns₀ hbytes hdecodes htakes hruns hpast =>
    have hcommon := replay_append hdecodes₀ hruns₀ []
    rw [List.append_nil, replay_of_end (.inl rfl)] at hcommon
    rw [unwind_of_covering hcovering, hcommon]
    simp only [Except.bind]
    rw [hbytes, replay_append hdecodes hruns, replay_of_takes htakes hpast, hstep]
    rfl

end FrameIndex

end SourceDebugger
