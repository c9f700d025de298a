import SourceDebugger.Proofs.RuleOrigin

/-!
# Factored offsets and locations

Most offsets in call frame information count in units of the data alignment, and most moves of the
location in units of the code alignment. A location is exact, `UnwindState.Runs.location`, and one
that does not fit into 64 bits is refused, `UnwindState.step_of_overflow`. An offset is `Scaled`:
the product modulo 2^64, which is exact just where the product is a signed word.
`FrameIndex.unwind_products` says both of a frame.
-/

namespace SourceDebugger

open Read FrameInstruction FrameTable

namespace FrameInstruction

/-- An offset that counts in units of `alignment`: the product modulo 2^64, which is exact just
where it fits. -/
def Scaled (factor alignment n : Int64) : Prop :=
  n.toInt = (factor.toInt * alignment.toInt).bmod (2 ^ 64) ∧
    (n.toInt = factor.toInt * alignment.toInt ↔ Fits (factor.toInt * alignment.toInt))

theorem scaled_mul (factor alignment : Int64) : Scaled factor alignment (factor * alignment) := by
  refine ⟨Int64.toInt_mul _ _, fun hexact => ?_, fun hfits => ?_⟩
  · rw [← hexact]
    exact ⟨Int64.le_toInt _, Int64.toInt_lt _⟩
  · have hofInt := toInt_ofInt_mul hfits
    rwa [Int64.ofInt_toInt] at hofInt

/-- Where the location is behind an instruction, as a number of any size. -/
def moveFrom (bias : Addr) (codeAlignment : UInt64) (location : Nat) : FrameInstruction → Nat
  | setLocation addr => bias.toNat + addr.toNat
  | advance delta => location + delta.toNat * codeAlignment.toNat
  | _ => location

/-- An unsigned offset is taken as it is, or refused. -/
theorem takeUnsigned_ok_iff {r r' : ByteReader} {n : Int64} :
    takeUnsigned r = (.ok n, r') ↔
      ∃ word : UInt64, ByteReader.uleb128 r = (.ok word, r') ∧ word.toNat < 2 ^ 63 ∧
        n.toInt = word.toNat := by
  rw [takeUnsigned, Action.bind_apply]
  rcases ByteReader.uleb128 r with ⟨e | word, r₁⟩
  · exact ⟨nofun, fun ⟨_, h, _⟩ => nomatch h⟩
  have hlt : word < 0x8000000000000000 ↔ word.toNat < 2 ^ 63 := UInt64.lt_iff_toNat_lt
  have hvalue (h : word.toNat < 2 ^ 63) : word.toInt64.toInt = word.toNat := by
    rw [Leb128.toInt64_of_emod rfl, toInt_ofInt_natCast h]
  dsimp only
  -- a word with the top bit has no signed reading of the same number, and is refused
  split
  · rename_i hsmall
    rw [hlt] at hsmall
    constructor
    · rintro ⟨⟩
      exact ⟨word, rfl, hsmall, hvalue hsmall⟩
    · rintro ⟨_, ⟨⟩, -, hn⟩
      rw [Int64.toInt_inj.1 (hn.trans (hvalue hsmall).symm)]
      rfl
  · rename_i hlarge
    rw [hlt] at hlarge
    constructor
    · nofun
    · rintro ⟨_, ⟨⟩, hsmall, -⟩
      exact absurd hsmall hlarge

variable {common own : List FrameInstruction} {reg : Nat} {i : FrameInstruction}

/-- A register's rule is given by an instruction for this register. -/
theorem sets_of_ruleSource (h : ruleSource? common own reg = some i) : setsRule reg i = true := by
  have hcommon {depth : Nat} (h : commonSource? common reg depth = some i) :
      setsRule reg i = true := by
    unfold commonSource? at h
    split at h
    · cases h
    · rename_i horigin
      cases h
      exact sets_of_origin horigin
    · cases h
  unfold ruleSource? at h
  split at h
  · exact hcommon h
  · rename_i horigin
    cases h
    exact sets_of_origin horigin
  · exact hcommon h

/-- Only an instruction with a factor makes a rule an offset. -/
theorem scaled_of_givenRule {alignment : Int64} (hsets : setsRule reg i = true) :
    (∀ n, i.givenRule? alignment = some (.offset n) →
      ∃ factor, i = .offset reg factor ∧ Scaled factor alignment n) ∧
    ∀ n, i.givenRule? alignment = some (.valOffset n) →
      ∃ factor, i = .valOffset reg factor ∧ Scaled factor alignment n := by
  cases i
  case offset r factor =>
    obtain rfl : r = reg := beq_iff_eq.1 hsets
    refine ⟨fun n hn => ?_, nofun⟩
    cases hn
    exact ⟨factor, rfl, scaled_mul _ _⟩
  case valOffset r factor =>
    obtain rfl : r = reg := beq_iff_eq.1 hsets
    refine ⟨nofun, fun n hn => ?_⟩
    cases hn
    exact ⟨factor, rfl, scaled_mul _ _⟩
  all_goals exact ⟨nofun, nofun⟩

end FrameInstruction

namespace UnwindState

variable {ctx : UnwindContext} {limit : Option Addr} {st st' : UnwindState}
  {i : FrameInstruction} {is : List FrameInstruction}

/-! ### Locations -/

theorem location_of_step (h : st.step ctx i = .ok st') :
    st'.location.toNat = i.moveFrom ctx.bias ctx.codeAlignment st.location.toNat := by
  -- only two instructions move the location, and both check their sums
  cases i
  case setLocation addr =>
    simp only [step] at h
    split at h
    · rename_i hadd
      cases h
      exact Addr.toNat_add?_of_eq_some hadd
    · cases h
  case advance delta =>
    simp only [step, advance] at h
    split at h
    · rename_i hadd
      cases h
      -- the product is checked first, so it is the product of the numbers
      split at hadd
      · rename_i hproduct
        have hlocation := Addr.toNat_add?_of_eq_some hadd
        rwa [UInt64.toNat_mul, Nat.mod_eq_of_lt hproduct] at hlocation
      · cases hadd
    · cases h
  case restore reg =>
    cases h
    rw [restoreRule_eq]
    rfl
  case restoreState =>
    simp only [step] at h
    split at h <;> cases h
    rfl
  case defCfaOffset n | defCfaOffsetFactored n =>
    obtain ⟨r, rfl⟩ := setCfaOffset_ok h
    rfl
  all_goals
    cases h
    rfl

/-- The location is exact, however many instructions have moved it. -/
theorem Runs.location (h : Runs ctx limit st is st') :
    st'.location.toNat =
      is.foldl (moveFrom ctx.bias ctx.codeAlignment) st.location.toNat := by
  induction h with
  | nil st => rfl
  | cons _ hstep _ ih => rw [ih, location_of_step hstep, List.foldl_cons]

/-- A location that does not fit into 64 bits is refused. -/
theorem step_of_overflow
    (h : 2 ^ 64 ≤ i.moveFrom ctx.bias ctx.codeAlignment st.location.toNat) :
    ∃ message, st.step ctx i = .error (.unresolvableFrame message) := by
  have hlt := st.location.val.toNat_lt
  cases i
  case setLocation addr =>
    have hnone : ctx.bias.add? addr = none := Addr.add?_eq_none_iff.2 h
    simp only [step, hnone]
    exact ⟨_, rfl⟩
  -- either the product is too large, or the sum is
  case advance delta =>
    have hnone : (if delta.toNat * ctx.codeAlignment.toNat < UInt64.size then
        st.location.add? (delta * ctx.codeAlignment) else none) = none := by
      split
      · rename_i hproduct
        refine Addr.add?_eq_none_iff.2 ?_
        rwa [UInt64.toNat_mul, Nat.mod_eq_of_lt hproduct]
      · rfl
    simp only [step, advance, hnone]
    exact ⟨_, rfl⟩
  -- the other instructions leave the location, which is a word
  all_goals exact absurd h (Nat.not_le.2 hlt)

end UnwindState

namespace FrameIndex

open UnwindState

variable {index : FrameIndex} {pc : Addr} {d : FrameDescription} {entry : CommonEntry}
  {common own before : List FrameInstruction} {st₀ st : UnwindState} {i : FrameInstruction}
  {ctx : UnwindContext} {reg : Nat}

theorem Executes.location (h : index.Executes pc d entry common own st₀ st) :
    st.location.toNat =
      (common ++ own).foldl (moveFrom index.bias entry.codeAlignment) d.first.toNat := by
  obtain ⟨code, rest, -, -, hruns, -⟩ := h.own
  rw [hruns.location, h.runs_common.location, List.foldl_append]
  rfl

theorem ComesTo.step_of_overflow (h : index.ComesTo pc d entry before ctx st i)
    (hoverflow : 2 ^ 64 ≤
      (before ++ [i]).foldl (moveFrom index.bias entry.codeAlignment) d.first.toNat) :
    ∃ message, st.step ctx i = .error (.unresolvableFrame message) := by
  rw [List.foldl_append, List.foldl_cons, List.foldl_nil] at hoverflow
  cases h with
  | common _ _ _ _ hruns =>
    refine UnwindState.step_of_overflow ?_
    rw [hruns.location]
    exact hoverflow
  | own _ _ hruns₀ _ _ _ hruns _ =>
    refine UnwindState.step_of_overflow ?_
    rw [hruns.location, hruns₀.location]
    rwa [List.foldl_append] at hoverflow

theorem Executes.exists_source (h : index.Executes pc d entry common own st₀ st)
    {rule : RegisterRule} (hrule : SortedMap.find? st.rules reg = some rule) :
    ∃ i, ruleSource? common own reg = some i ∧ setsRule reg i = true ∧
      i.givenRule? entry.dataAlignment = some rule := by
  rw [h.rule] at hrule
  obtain ⟨i, hsource, hgiven⟩ := Option.bind_eq_some_iff.1 hrule
  exact ⟨i, hsource, sets_of_ruleSource hsource, hgiven⟩

/-- Whenever unwinding succeeds: the location is exact, each rule that is an offset comes from an
instruction for its register and is scaled from the factor there, and the offset of the frame
address is scaled where the instruction in force has a factor. A location that does not fit into 64
bits makes unwinding fail. An unsigned factor is the number that was read, or refused. -/
theorem unwind_products (index : FrameIndex) (pc : Addr) (regs : Registers) :
    (∀ f, index.unwind pc regs = .ok f →
      ∃ d entry common own st₀ st, index.Executes pc d entry common own st₀ st ∧
        f.location.toNat =
          (common ++ own).foldl (moveFrom index.bias entry.codeAlignment) d.first.toNat ∧
        (∀ reg n, SortedMap.find? f.rules reg = some (.offset n) →
          ∃ factor, ruleSource? common own reg = some (.offset reg factor) ∧
            Scaled factor entry.dataAlignment n) ∧
        (∀ reg n, SortedMap.find? f.rules reg = some (.valOffset n) →
          ∃ factor, ruleSource? common own reg = some (.valOffset reg factor) ∧
            Scaled factor entry.dataAlignment n) ∧
        ∀ i factor, offsetSource? (common ++ own) = some i →
          ((∃ r, i = .defCfaFactored r factor) ∨ i = .defCfaOffsetFactored factor) →
          ∃ reg n, f.cfa = .registerOffset reg n ∧ Scaled factor entry.dataAlignment n) ∧
      (∀ d entry before ctx st i, index.ComesTo pc d entry before ctx st i →
        2 ^ 64 ≤
          (before ++ [i]).foldl (moveFrom index.bias entry.codeAlignment) d.first.toNat →
        ∃ message, index.unwind pc regs = .error (.unresolvableFrame message)) ∧
      ∀ r r' (n : Int64), takeUnsigned r = (.ok n, r') ↔
        ∃ word : UInt64, ByteReader.uleb128 r = (.ok word, r') ∧ word.toNat < 2 ^ 63 ∧
          n.toInt = word.toNat := by
  refine ⟨fun f hf => ?_, fun d entry before ctx st i hcomes hoverflow => ?_,
    fun r r' n => takeUnsigned_ok_iff⟩
  · obtain ⟨d, entry, common, own, st₀, st, hexecutes, hlocation, hcfa, hrules, reg, n, hst⟩ :=
      exists_executes hf
    refine ⟨d, entry, common, own, st₀, st, hexecutes, hlocation ▸ hexecutes.location,
      fun reg n hrule => ?_, fun reg n hrule => ?_, fun i factor hsource hi => ?_⟩
    -- the rule of a register was given by the instruction it originates from
    · obtain ⟨i, hsource, hsets, hgiven⟩ := hexecutes.exists_source (hrules ▸ hrule)
      obtain ⟨factor, rfl, hscaled⟩ := (scaled_of_givenRule hsets).1 n hgiven
      exact ⟨factor, hsource, hscaled⟩
    · obtain ⟨i, hsource, hsets, hgiven⟩ := hexecutes.exists_source (hrules ▸ hrule)
      obtain ⟨factor, rfl, hscaled⟩ := (scaled_of_givenRule hsets).2 n hgiven
      exact ⟨factor, hsource, hscaled⟩
    -- the offset of the frame's address, likewise
    · have hvalue := hexecutes.offset_getD
      rw [hst, hsource] at hvalue
      have hgiven : i.givenOffset? entry.dataAlignment = some (factor * entry.dataAlignment) := by
        rcases hi with ⟨r, rfl⟩ | rfl <;> rfl
      rw [Option.bind_some, hgiven] at hvalue
      have hn : n = factor * entry.dataAlignment := hvalue
      exact ⟨reg, n, hcfa.trans hst, hn ▸ scaled_mul _ _⟩
  · obtain ⟨message, hstep⟩ := hcomes.step_of_overflow hoverflow
    exact ⟨message, hcomes.unwind_error hstep regs⟩

/-- Code in steps of 2^62 bytes: two moves by three steps are too far. -/
def strided : FrameIndex where
  commonEntries := [⟨1, "", 0x4000000000000000, -8, 16, [0x0c, 0x07, 0x08, 0x90, 0x01]⟩]
  descriptions := [⟨⟨0x1000⟩, 0xfffffffffffff000 - 1, [0x43, 0x86, 0x02, 0x43], 0⟩]
  bias := .null

/-- Behind the first move the return address is eight bytes below the frame address. The second one
is refused. -/
theorem unwind_products_strided :
    (∃ f, strided.unwind ⟨0x1000⟩ (Registers.zero.set .rsp 0x7000) = .ok f ∧
      f.location = ⟨0xc000000000001000⟩ ∧ SortedMap.find? f.rules 16 = some (.offset (-8)) ∧
      ∃ d entry common own st₀ st factor, strided.Executes ⟨0x1000⟩ d entry common own st₀ st ∧
        ruleSource? common own 16 = some (.offset 16 factor) ∧
        Scaled factor entry.dataAlignment (-8)) ∧
    ∃ message,
      strided.unwind ⟨0xc000000000001000⟩ (Registers.zero.set .rsp 0x7000) =
        .error (.unresolvableFrame message) := by
  constructor
  · obtain ⟨f, hf, hlocation, hrule⟩ : ∃ f,
        strided.unwind ⟨0x1000⟩ (Registers.zero.set .rsp 0x7000) = .ok f ∧
          f.location = ⟨0xc000000000001000⟩ ∧
          SortedMap.find? f.rules 16 = some (.offset (-8)) := ⟨_, rfl, rfl, rfl⟩
    obtain ⟨d, entry, common, own, st₀, st, hexecutes, -, hoffset, -, -⟩ :=
      (unwind_products _ _ _).1 f hf
    obtain ⟨factor, hsource, hscaled⟩ := hoffset 16 _ hrule
    exact ⟨f, hf, hlocation, hrule, d, entry, common, own, st₀, st, factor, hexecutes, hsource,
      hscaled⟩
  · have hdefine : Takes take [0x0c, 0x07, 0x08] (.defCfa 7 8) := local_take.takes rfl
    have hsaved : Takes take [0x90, 0x01] (.offset 16 1) := local_take.takes rfl
    have hadvance : Takes take [0x43] (.advance 3) := local_take.takes rfl
    have hpushed : Takes take [0x86, 0x02] (.offset 6 2) := local_take.takes rfl
    have hcommon : Decodes [0x0c, 0x07, 0x08, 0x90, 0x01] [.defCfa 7 8, .offset 16 1] :=
      .cons hdefine (.cons hsaved .nil)
    have hown : Decodes [0x43, 0x86, 0x02] [.advance 3, .offset 6 2] :=
      .cons hadvance (.cons hpushed .nil)
    have hcomes : strided.ComesTo ⟨0xc000000000001000⟩ _ _ _ _ _ (.advance 3) :=
      .own rfl hcommon (.cons rfl rfl (.cons rfl rfl (.nil _))) rfl hown hadvance
        (.cons rfl rfl (.cons rfl rfl (.nil _))) rfl
    exact (unwind_products _ _ _).2.1 _ _ _ _ _ _ hcomes (by decide)

/-- Data in steps of 2^62 bytes, and a register that was saved four steps away. -/
def wrapped : FrameIndex where
  commonEntries := [⟨1, "", 1, 0x4000000000000000, 16, [0x0c, 0x07, 0x08, 0x90, 0x04]⟩]
  descriptions := [⟨⟨0x1000⟩, 0x10, [], 0⟩]
  bias := .null

/-- Neither is the offset of a rule always the exact product, nor does unwinding fail where the
product does not fit into 64 bits. -/
theorem not_unwind_products :
    (¬ ∀ (index : FrameIndex) pc regs f, index.unwind pc regs = .ok f →
      ∀ d entry common own st₀ st, index.Executes pc d entry common own st₀ st →
        ∀ reg factor n, ruleSource? common own reg = some (.offset reg factor) →
          SortedMap.find? f.rules reg = some (.offset n) →
          n.toInt = factor.toInt * entry.dataAlignment.toInt) ∧
    ¬ ∀ (index : FrameIndex) pc d entry before ctx st reg factor,
      index.ComesTo pc d entry before ctx st (.offset reg factor) →
        ¬ Fits (factor.toInt * entry.dataAlignment.toInt) →
        ∀ regs, ∃ message, index.unwind pc regs = .error (.unresolvableFrame message) := by
  have hdefine : Takes take [0x0c, 0x07, 0x08] (.defCfa 7 8) := local_take.takes rfl
  have hsaved : Takes take [0x90, 0x04] (.offset 16 4) := local_take.takes rfl
  have hcommon : Decodes [0x0c, 0x07, 0x08, 0x90, 0x04] [.defCfa 7 8, .offset 16 4] :=
    .cons hdefine (.cons hsaved .nil)
  have hcovering : wrapped.covering ⟨0x1000⟩ = .ok (⟨⟨0x1000⟩, 0x10, [], 0⟩,
      ⟨1, "", 1, 0x4000000000000000, 16, [0x0c, 0x07, 0x08, 0x90, 0x04]⟩) := rfl
  obtain ⟨f, hf, hrule⟩ : ∃ f,
    wrapped.unwind ⟨0x1000⟩ (Registers.zero.set .rsp 0x7000) = .ok f ∧
      SortedMap.find? f.rules 16 = some (.offset 0) := ⟨_, rfl, rfl⟩
  -- the product is a power of two too large, and wraps around to 0
  constructor
  · intro hexact
    have hproduct := hexact _ _ _ f hf _ _ _ [] _ _
      ⟨hcovering, hcommon, .cons rfl rfl (.cons rfl rfl (.nil _)), [], [], rfl, .nil, .nil _,
        .inl rfl⟩ 16 4 0 rfl hrule
    exact absurd hproduct (by decide)
  · intro hfails
    have hdefined : Decodes [0x0c, 0x07, 0x08] [.defCfa 7 8] := .cons hdefine .nil
    obtain ⟨message, hfail⟩ := hfails _ _ _ _ _ _ _ 16 4
      (.common hcovering rfl hdefined hsaved (.cons rfl rfl (.nil _))) (by decide)
      (Registers.zero.set .rsp 0x7000)
    cases hf.symm.trans hfail

end FrameIndex

end SourceDebugger
