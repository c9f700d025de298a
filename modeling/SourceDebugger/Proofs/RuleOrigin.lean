import SourceDebugger.Proofs.Replay

/-!
# Where the rules of a frame come from

Every rule of a frame comes from one of the instructions that were executed. To find it is to look
back over them, past the brackets of instructions that keep all rules and take them back:
`FrameInstruction.origin`. One instruction is `UnwindState.layers_step` and a row of them
`UnwindState.Runs.layers`.

* `FrameIndex.Executes.rule` is the rule of a register in a frame.
* `FrameIndex.unwind_offset`: the offset of the frame address is given by the instruction that is in
  force, or there is none and it is zero.
-/

namespace SourceDebugger

open Read FrameInstruction FrameTable

namespace FrameInstruction

/-! ### Looking back -/

/-- Where something that a state has below a number of kept rules comes from: from an instruction,
or from the state before all instructions, below some number of kept rules there. -/
inductive Origin where
  | instruction (i : FrameInstruction)
  | before (depth : Nat)

/-- What is known of it, if what instructions give is known and what the state before had. -/
def Origin.get {β : Type} (given : FrameInstruction → Option β) (had : Nat → Option β) :
    Origin → Option β
  | instruction i => given i
  | before depth => had depth

variable (sets : FrameInstruction → Bool)

/-- What is below `depth` kept rules behind an instruction comes from the instruction if that is one
that sets it, and is not kept at that time. -/
def originOfStep (i : FrameInstruction) (depth : Nat) : Origin :=
  match i with
  | .restoreState => .before (depth + 1)
  -- the rules on top are also the first that are kept
  | .rememberState => .before (depth - 1)
  | i => if depth = 0 ∧ sets i then .instruction i else .before depth

/-- The last instructions are looked at first. -/
def origin : List FrameInstruction → Nat → Origin
  | [], depth => .before depth
  | i :: is, depth =>
    match origin is depth with
    | .instruction j => .instruction j
    | .before depth => i.originOfStep sets depth

variable {sets} {β : Type} {given : FrameInstruction → Option β} {had : Nat → Option β}

theorem get_origin_cons (i : FrameInstruction) (is : List FrameInstruction) (depth : Nat) :
    (origin sets (i :: is) depth).get given had =
      (origin sets is depth).get given fun n => (i.originOfStep sets n).get given had := by
  rw [origin]
  rcases origin sets is depth with j | n <;> rfl

theorem get_origin_append (before after : List FrameInstruction) (depth : Nat) :
    (origin sets (before ++ after) depth).get given had =
      (origin sets after depth).get given fun n => (origin sets before n).get given had := by
  induction before generalizing had with
  | nil => rfl
  | cons i before ih =>
    rw [List.cons_append, get_origin_cons, ih]
    simp only [get_origin_cons]

/-- What is found sets what is looked for. -/
theorem sets_of_origin {is : List FrameInstruction} {depth : Nat} {i : FrameInstruction}
    (h : origin sets is depth = .instruction i) : sets i = true := by
  -- the origin changes with the instructions in front, so the depth stays general
  induction is generalizing depth with
  | nil => cases h
  | cons j is ih =>
    rw [origin] at h
    split at h
    · rename_i k hk
      cases h
      exact ih hk
    -- a step is an origin only where it sets something itself
    · unfold originOfStep at h
      split at h
      · cases h
      · cases h
      · split at h
        · rename_i hsets
          cases h
          exact hsets.2
        · cases h

/-- Most instructions do not move kept rules. -/
theorem originOfStep_of_ne {i : FrameInstruction} (hremember : i ≠ .rememberState)
    (hrestore : i ≠ .restoreState) (depth : Nat) :
    i.originOfStep sets depth =
      if depth = 0 ∧ sets i then .instruction i else .before depth := by
  unfold originOfStep
  split
  · exact absurd rfl hrestore
  · exact absurd rfl hremember
  · rfl

end FrameInstruction

namespace UnwindState

variable {ctx : UnwindContext} {limit : Option Addr} {st st' : UnwindState}
  {i : FrameInstruction} {is : List FrameInstruction} {β : Type}

/-- The rules of a state and, below them, those that are kept for later. -/
def layers (st : UnwindState) : List (CfaRule × RegisterRules) :=
  (st.cfa, st.rules) :: st.remembered

section Layers

variable {sets : FrameInstruction → Bool} {given : FrameInstruction → Option β}
  {seen : CfaRule × RegisterRules → Option β}

/-- What is seen of the rules behind an instruction comes from where its origin is. -/
theorem layers_step (hstep : st.step ctx i = .ok st')
    (hset : sets i = true → seen (st'.cfa, st'.rules) = given i)
    (hkeep : sets i = false → i ≠ .restoreState →
      seen (st'.cfa, st'.rules) = seen (st.cfa, st.rules)) (depth : Nat) :
    st'.layers[depth]?.bind seen =
      (i.originOfStep sets depth).get given fun n => st.layers[n]?.bind seen := by
  by_cases hrestore : i = .restoreState
  · -- what was kept last is on top
    subst hrestore
    simp only [step] at hstep
    split at hstep
    · rename_i hkept
      cases hstep
      simp only [originOfStep, Origin.get, layers, hkept, List.getElem?_cons_succ]
    · cases hstep
  by_cases hremember : i = .rememberState
  · subst hremember
    cases hstep
    rcases depth with _ | depth <;> rfl
  -- all others leave alone what was kept
  have hkept := remembered_of_step hstep hremember hrestore
  rw [originOfStep_of_ne hremember hrestore]
  rcases depth with _ | depth
  · rcases hsets : sets i
    · exact hkeep hsets hrestore
    · exact hset hsets
  · rw [if_neg (by simp)]
    simp only [Origin.get, layers, List.getElem?_cons_succ, hkept]

/-- What is seen of the rules behind a row of instructions comes from where its origin is, unless
one of them is an exception. -/
theorem Runs.layers (sets : FrameInstruction → Bool) (given : FrameInstruction → Option β)
    (seen : CfaRule × RegisterRules → Option β) (exception : UnwindState → FrameInstruction → Prop)
    (hruns : Runs ctx limit st is st')
    (hset : ∀ {st i st'}, step ctx st i = .ok st' → sets i = true →
      seen (st'.cfa, st'.rules) = given i)
    (hkeep : ∀ {st i st'}, step ctx st i = .ok st' → sets i = false → i ≠ .restoreState →
      exception st i ∨ seen (st'.cfa, st'.rules) = seen (st.cfa, st.rules)) :
    (∃ before i after st₁, is = before ++ i :: after ∧ Runs ctx limit st before st₁ ∧
      st₁.isPast limit = false ∧ exception st₁ i) ∨
    ∀ depth, st'.layers[depth]?.bind seen =
      (origin sets is depth).get given fun n => st.layers[n]?.bind seen := by
  -- along the run: either the exception comes up on the way, or the layers are those of the origin
  induction hruns with
  -- nothing was executed, and every depth is its own origin
  | nil st => exact .inr fun depth => rfl
  | @cons st st₁ st' i is hpast hstep hrest ih =>
    by_cases hexception : exception st i
    · exact .inl ⟨[], i, is, st, rfl, .nil st, hpast, hexception⟩
    rcases ih with ⟨before, j, after, st₂, rfl, hbefore, hrest⟩ | ih
    · exact .inl ⟨i :: before, j, after, st₂, rfl, .cons hpast hstep hbefore, hrest⟩
    -- the first step explains the layers from which the rest started
    · refine .inr fun depth => ?_
      rw [ih, get_origin_cons]
      congr 1
      funext n
      exact layers_step hstep (hset hstep)
        (fun hsets hrestore => (hkeep hstep hsets hrestore).resolve_left hexception) n

/-- Without exceptions it always does. -/
theorem Runs.layers_of_keeps (sets : FrameInstruction → Bool)
    (given : FrameInstruction → Option β) (seen : CfaRule × RegisterRules → Option β)
    (hruns : Runs ctx limit st is st')
    (hset : ∀ {st i st'}, step ctx st i = .ok st' → sets i = true →
      seen (st'.cfa, st'.rules) = given i)
    (hkeep : ∀ {st i st'}, step ctx st i = .ok st' → sets i = false → i ≠ .restoreState →
      seen (st'.cfa, st'.rules) = seen (st.cfa, st.rules)) (depth : Nat) :
    st'.layers[depth]?.bind seen =
      (origin sets is depth).get given fun n => st.layers[n]?.bind seen := by
  rcases hruns.layers sets given seen (fun _ _ => False) hset
    fun hstep hsets hrestore => .inr (hkeep hstep hsets hrestore) with
    ⟨_, _, _, _, _, _, _, ⟨⟩⟩ | hlayers
  exact hlayers depth

end Layers

end UnwindState

namespace FrameInstruction

/-! ### What instructions give -/

/-- Whether an instruction changes the rule of a register. -/
def setsRule (reg : Nat) : FrameInstruction → Bool
  | offset r _ | valOffset r _ | restore r | undefined r | sameValue r | register r _
  | expression r _ | valExpression r _ => r == reg
  | _ => false

/-- The rule that an instruction gives to its register, where factored offsets count in units of
`alignment`. -/
def givenRule? (alignment : Int64) : FrameInstruction → Option RegisterRule
  | offset _ factor => some (.offset (factor * alignment))
  | valOffset _ factor => some (.valOffset (factor * alignment))
  | undefined _ => some .undefined
  | sameValue _ => some .sameValue
  | register _ other => some (.register other)
  | expression _ expr => some (.expression expr)
  | valExpression _ expr => some (.valExpression expr)
  | _ => none

/-- Whether an instruction changes the offset of the frame address, or takes it away. -/
def setsOffset : FrameInstruction → Bool
  | defCfa .. | defCfaFactored .. | defCfaOffset _ | defCfaOffsetFactored _ | defCfaExpression _ =>
    true
  | _ => false

/-- The offset that an instruction gives to the frame address. -/
def givenOffset? (alignment : Int64) : FrameInstruction → Option Int64
  | defCfa _ n | defCfaOffset n => some n
  | defCfaFactored _ factor | defCfaOffsetFactored factor => some (factor * alignment)
  | _ => none

/-- The instruction of the common entry that gives a register the rule which it has below `depth`
kept ones, behind the instructions of the common entry. There is no rule yet that could be given
back to it. -/
def commonSource? (common : List FrameInstruction) (reg depth : Nat) : Option FrameInstruction :=
  match origin (setsRule reg) common depth with
  | .instruction (.restore _) => none
  | .instruction i => some i
  | .before _ => none

/-- The instruction that gives a register its rule, behind the instructions of the common entry and
of a description. A register that was given back its rule has it from the common entry. -/
def ruleSource? (common own : List FrameInstruction) (reg : Nat) : Option FrameInstruction :=
  match origin (setsRule reg) own 0 with
  | .instruction (.restore _) => commonSource? common reg 0
  | .instruction i => some i
  | .before depth => commonSource? common reg depth

/-- The instruction that gives the frame address its offset or takes it away. -/
def offsetSource? (is : List FrameInstruction) : Option FrameInstruction :=
  match origin setsOffset is 0 with
  | .instruction i => some i
  | .before _ => none

end FrameInstruction

/-- The offset of the frame address, if it is a register plus an offset. -/
def CfaRule.offset? : CfaRule → Option Int64
  | registerOffset _ n => some n
  | _ => none

namespace UnwindState

variable {ctx : UnwindContext} {limit : Option Addr} {st st' : UnwindState}
  {i : FrameInstruction} {is : List FrameInstruction}

/-! ### What one instruction does -/

/-- The rule that a register has behind an instruction that sets it. -/
def ruleBehind (ctx : UnwindContext) : FrameInstruction → Option RegisterRule
  | .restore reg => SortedMap.find? ctx.initial reg
  | i => i.givenRule? ctx.dataAlignment

theorem find?_of_sets {reg : Nat} (h : st.step ctx i = .ok st') (hsets : setsRule reg i = true) :
    SortedMap.find? st'.rules reg = ruleBehind ctx i := by
  cases i
  case restore r =>
    obtain rfl : r = reg := beq_iff_eq.1 hsets
    cases h
    rw [find?_restoreRule, if_pos rfl]
    rfl
  case offset r _ | valOffset r _ | undefined r | sameValue r | register r _ | expression r _
      | valExpression r _ =>
    obtain rfl : r = reg := beq_iff_eq.1 hsets
    cases h
    rw [find?_setRule, if_pos rfl]
    rfl
  all_goals cases hsets

theorem find?_of_keeps {reg : Nat} (h : st.step ctx i = .ok st') (hkeeps : setsRule reg i = false)
    (hrestore : i ≠ .restoreState) :
    SortedMap.find? st'.rules reg = SortedMap.find? st.rules reg := by
  cases i
  -- either the instruction sets the rule of another register, or it sets none
  case restoreState => exact absurd rfl hrestore
  case restore r =>
    have hne : reg ≠ r := Ne.symm (beq_eq_false_iff_ne.1 hkeeps)
    cases h
    rw [find?_restoreRule, if_neg hne]
  case offset r _ | valOffset r _ | undefined r | sameValue r | register r _ | expression r _
      | valExpression r _ =>
    have hne : reg ≠ r := Ne.symm (beq_eq_false_iff_ne.1 hkeeps)
    cases h
    rw [find?_setRule, if_neg hne]
  case setLocation addr =>
    obtain ⟨location, rfl⟩ := setLocation_ok h
    rfl
  case advance delta =>
    obtain ⟨location, rfl⟩ := advance_ok h
    rfl
  case defCfaOffset n | defCfaOffsetFactored n =>
    obtain ⟨r, rfl⟩ := setCfaOffset_ok h
    rfl
  all_goals
    cases h
    rfl

/-- The rule of a register, on top or kept, comes from where its origin is. -/
theorem Runs.layers_rule (h : Runs ctx limit st is st') (reg depth : Nat) :
    (st'.layers[depth]?.bind fun layer => SortedMap.find? layer.2 reg) =
      (origin (setsRule reg) is depth).get (ruleBehind ctx) fun n =>
        st.layers[n]?.bind fun layer => SortedMap.find? layer.2 reg :=
  h.layers_of_keeps (setsRule reg) (ruleBehind ctx) (fun layer => SortedMap.find? layer.2 reg)
    find?_of_sets find?_of_keeps depth

theorem offset?_of_sets (h : st.step ctx i = .ok st') (hsets : i.setsOffset = true) :
    st'.cfa.offset? = i.givenOffset? ctx.dataAlignment := by
  cases i
  case defCfaOffset n | defCfaOffsetFactored n =>
    obtain ⟨r, rfl⟩ := setCfaOffset_ok h
    rfl
  case defCfa | defCfaFactored | defCfaExpression =>
    cases h
    rfl
  all_goals cases hsets

/-- An instruction that changes the register alone takes the offset for zero where there is none. -/
theorem offset?_of_keeps (h : st.step ctx i = .ok st') (hkeeps : i.setsOffset = false)
    (hrestore : i ≠ .restoreState) :
    ((∃ reg, i = .defCfaRegister reg) ∧ st.cfa.offset? = none ∧ st'.cfa.offset? = some 0) ∨
      st'.cfa.offset? = st.cfa.offset? := by
  cases i
  case restoreState => exact absurd rfl hrestore
  case defCfaRegister reg =>
    cases h
    -- without an offset so far, the register brings one of 0 along; this is the exception
    rcases st.cfa with _ | ⟨r, n⟩ | expr
    · exact .inl ⟨⟨reg, rfl⟩, rfl, rfl⟩
    · exact .inr rfl
    · exact .inl ⟨⟨reg, rfl⟩, rfl, rfl⟩
  case restore r =>
    cases h
    rw [cfa_restoreRule]
    exact .inr rfl
  case setLocation addr =>
    obtain ⟨location, rfl⟩ := setLocation_ok h
    exact .inr rfl
  case advance delta =>
    obtain ⟨location, rfl⟩ := advance_ok h
    exact .inr rfl
  case defCfaOffset | defCfaOffsetFactored | defCfa | defCfaFactored | defCfaExpression =>
    cases hkeeps
  all_goals
    cases h
    exact .inr rfl

/-- The offset of the frame address, on top or kept, comes from where its origin is, where none
counts as zero. -/
theorem Runs.layers_offset_getD (h : Runs ctx limit st is st') (depth : Nat) :
    (st'.layers[depth]?.bind fun layer => some (layer.1.offset?.getD 0)) =
      (origin setsOffset is depth).get
        (fun i => some ((i.givenOffset? ctx.dataAlignment).getD 0)) fun n =>
          st.layers[n]?.bind fun layer => some (layer.1.offset?.getD 0) := by
  have hset {st i st'} (hstep : step ctx st i = .ok st') (hsets : i.setsOffset = true) :
      some (st'.cfa.offset?.getD 0) = some ((i.givenOffset? ctx.dataAlignment).getD 0) := by
    rw [offset?_of_sets hstep hsets]
  have hkeep {st i st'} (hstep : step ctx st i = .ok st') (hkeeps : i.setsOffset = false)
      (hrestore : i ≠ .restoreState) :
      some (st'.cfa.offset?.getD 0) = some (st.cfa.offset?.getD 0) := by
    rcases offset?_of_keeps hstep hkeeps hrestore with ⟨-, hnone, hzero⟩ | hsame
    · rw [hnone, hzero]
      rfl
    · rw [hsame]
  exact h.layers_of_keeps setsOffset (fun i => some ((i.givenOffset? ctx.dataAlignment).getD 0))
    (fun layer => some (layer.1.offset?.getD 0)) hset hkeep depth

/-- The offset of the frame address, on top or kept, comes from where its origin is, unless a
register alone was changed where there was no offset. -/
theorem Runs.layers_offset (h : Runs ctx limit st is st') :
    (∃ before reg after st₁, is = before ++ .defCfaRegister reg :: after ∧
      Runs ctx limit st before st₁ ∧ st₁.isPast limit = false ∧ st₁.cfa.offset? = none) ∨
    ∀ depth, (st'.layers[depth]?.bind fun layer => layer.1.offset?) =
      (origin setsOffset is depth).get (·.givenOffset? ctx.dataAlignment) fun n =>
        st.layers[n]?.bind fun layer => layer.1.offset? := by
  rcases h.layers setsOffset (·.givenOffset? ctx.dataAlignment) (fun layer => layer.1.offset?)
    (fun st i => (∃ reg, i = .defCfaRegister reg) ∧ st.cfa.offset? = none) offset?_of_sets
    (fun hstep hkeeps hrestore => (offset?_of_keeps hstep hkeeps hrestore).imp
      (fun hzero => ⟨hzero.1, hzero.2.1⟩) id) with
    ⟨before, _, after, st₁, his, hbefore, hpast, ⟨reg, rfl⟩, hnone⟩ | hlayers
  · exact .inl ⟨before, reg, after, st₁, his, hbefore, hpast, hnone⟩
  · exact .inr hlayers

end UnwindState

namespace FrameIndex

open UnwindState

variable {index : FrameIndex} {pc : Addr} {d : FrameDescription} {entry : CommonEntry}
  {common own before : List FrameInstruction} {st₀ st : UnwindState} {i : FrameInstruction}
  {ctx : UnwindContext}

/-! ### The rules of registers -/

/-- What the common entry leaves behind: each rule comes from one of its instructions. -/
theorem find?_common (h : Runs (index.context entry []) none d.start common st₀) (reg depth : Nat) :
    (st₀.layers[depth]?.bind fun layer => SortedMap.find? layer.2 reg) =
      (commonSource? common reg depth).bind (·.givenRule? entry.dataAlignment) := by
  rw [h.layers_rule, commonSource?]
  rcases origin (setsRule reg) common depth with i | n
  · cases i <;> rfl
  · -- before all instructions there are no rules
    rcases n with _ | n <;> rfl

/-- The rule of a register is the one that its instruction gives. -/
theorem Executes.rule (h : index.Executes pc d entry common own st₀ st) (reg : Nat) :
    SortedMap.find? st.rules reg =
      (ruleSource? common own reg).bind (·.givenRule? entry.dataAlignment) := by
  obtain ⟨code, rest, -, -, hruns, -⟩ := h.own
  have hlayers := hruns.layers_rule reg 0
  have htop : (st.layers[0]?.bind fun layer => SortedMap.find? layer.2 reg) =
    SortedMap.find? st.rules reg := rfl
  rw [← htop, hlayers, ruleSource?]
  rcases horigin : origin (setsRule reg) own 0 with i | n
  · have hsets := sets_of_origin horigin
    cases i
    case restore r =>
      obtain rfl : r = reg := beq_iff_eq.1 hsets
      exact find?_common h.runs_common r 0
    all_goals rfl
  · exact find?_common h.runs_common reg n

/-! ### The offset of the frame address -/

/-- Where none counts as zero, the offset is the one that its instruction gives. -/
theorem Executes.offset_getD (h : index.Executes pc d entry common own st₀ st) :
    st.cfa.offset?.getD 0 =
      ((offsetSource? (common ++ own)).bind (·.givenOffset? entry.dataAlignment)).getD 0 := by
  obtain ⟨code, rest, -, -, hruns, -⟩ := h.own
  have htop : some (st.cfa.offset?.getD 0) = _ := hruns.layers_offset_getD 0
  simp only [h.runs_common.layers_offset_getD, context] at htop
  rw [← get_origin_append] at htop
  rw [offsetSource?]
  rcases horigin : origin setsOffset (common ++ own) 0 with i | _ | n <;> rw [horigin] at htop
  · exact Option.some.inj htop
  · exact Option.some.inj htop
  · cases htop

/-- There is an instruction that gives the offset, or it is zero behind a change of the register
alone. -/
theorem Executes.offset (h : index.Executes pc d entry common own st₀ st) {n : Int64}
    (hn : st.cfa.offset? = some n) :
    (∃ i, offsetSource? (common ++ own) = some i ∧
      i.givenOffset? entry.dataAlignment = some n) ∨
    (offsetSource? (common ++ own)).bind (·.givenOffset? entry.dataAlignment) = none ∧ n = 0 ∧
      ∃ before reg after ctx st₁, common ++ own = before ++ .defCfaRegister reg :: after ∧
        index.ComesTo pc d entry before ctx st₁ (.defCfaRegister reg) ∧
        st₁.cfa.offset? = none := by
  have hvalue := h.offset_getD
  rw [hn, Option.getD_some] at hvalue
  rcases hsource : (offsetSource? (common ++ own)).bind (·.givenOffset? entry.dataAlignment) with
    _ | m
  · rw [hsource] at hvalue
    refine .inr ⟨rfl, hvalue, ?_⟩
    obtain ⟨code, rest, -, -, hruns, -⟩ := h.own
    rcases h.runs_common.layers_offset with
      ⟨before, reg, after, st₁, rfl, hbefore, -, hnone⟩ | hcommon
    · exact ⟨before, reg, after ++ own, _, st₁, by simp, h.comesTo_common hbefore, hnone⟩
    rcases hruns.layers_offset with ⟨before, reg, after, st₁, rfl, hbefore, hpast, hnone⟩ | hown
    · exact ⟨common ++ before, reg, after, _, st₁, by simp, h.comesTo_own hbefore hpast, hnone⟩
    -- without such a change there would be an instruction
    have htop : st.cfa.offset? = _ := hown 0
    simp only [hcommon, context] at htop
    rw [← get_origin_append, hn] at htop
    rw [offsetSource?] at hsource
    rcases horigin : origin setsOffset (common ++ own) 0 with i | _ | m <;>
      rw [horigin] at htop hsource
    · cases htop.trans hsource
    · cases htop
    · cases htop
  · rw [hsource, Option.getD_some] at hvalue
    obtain ⟨i, hi, hgiven⟩ := Option.bind_eq_some_iff.1 hsource
    exact .inl ⟨i, hi, hvalue ▸ hgiven⟩

/-- Without a register there is no offset to change. -/
theorem step_of_no_offset (ctx : UnwindContext) (hnone : st.cfa.offset? = none) {n : Int64}
    (hi : i = .defCfaOffset n ∨ i = .defCfaOffsetFactored n) :
    st.step ctx i =
      .error (.unresolvableFrame "CFA offset changed without a CFA register") := by
  rcases hcfa : st.cfa with _ | ⟨reg, m⟩ | expr
  · rcases hi with rfl | rfl <;> simp only [step, setCfaOffset, hcfa]
  · rw [hcfa] at hnone
    cases hnone
  · rcases hi with rfl | rfl <;> simp only [step, setCfaOffset, hcfa]

/-- Whenever unwinding succeeds, an instruction that was executed and is in force gives the offset
of the frame address. If there is none, the offset is zero, and the register alone was changed where
there was no offset. To change the offset alone where there is none makes unwinding fail. -/
theorem unwind_offset (index : FrameIndex) (pc : Addr) (regs : Registers) :
    (∀ f, index.unwind pc regs = .ok f →
      ∃ d entry common own st₀ st reg n, index.Executes pc d entry common own st₀ st ∧
        f.cfa = .registerOffset reg n ∧
        ((∃ i, offsetSource? (common ++ own) = some i ∧
            i.givenOffset? entry.dataAlignment = some n) ∨
          (offsetSource? (common ++ own)).bind (·.givenOffset? entry.dataAlignment) = none ∧
            n = 0 ∧
            ∃ before r after ctx st₁, common ++ own = before ++ .defCfaRegister r :: after ∧
              index.ComesTo pc d entry before ctx st₁ (.defCfaRegister r) ∧
              st₁.cfa.offset? = none)) ∧
      ∀ d entry before ctx st i n, index.ComesTo pc d entry before ctx st i →
        st.cfa.offset? = none → (i = .defCfaOffset n ∨ i = .defCfaOffsetFactored n) →
        index.unwind pc regs =
          .error (.unresolvableFrame "CFA offset changed without a CFA register") := by
  refine ⟨fun f hf => ?_, fun d entry before ctx st i n hcomes hnone hi => ?_⟩
  -- the run of a successful unwinding ends in a rule with a register, whose offset has an origin
  · obtain ⟨d, entry, common, own, st₀, st, hexecutes, -, hcfa, -, reg, n, hst⟩ :=
      exists_executes hf
    have hn : st.cfa.offset? = some n := by
      rw [hst]
      rfl
    exact ⟨d, entry, common, own, st₀, st, reg, n, hexecutes, hcfa.trans hst, hexecutes.offset hn⟩
  · exact hcomes.unwind_error (step_of_no_offset ctx hnone hi) regs

/-- A description that changes the offset between keeping the rules and taking them back. Behind
that, the frame address becomes an expression, whose offset cannot be changed. -/
def takenBack : FrameIndex where
  commonEntries := [⟨1, "", 1, -8, 16, [0x0c, 0x07, 0x08]⟩]
  descriptions :=
    [⟨⟨0x1000⟩, 0x10, [0x0a, 0x0e, 0x20, 0x41, 0x0b, 0x41, 0x0f, 0x01, 0x30, 0x0e, 0x10], 0⟩]
  bias := .null

/-- The offset is the one of the common entry again, and then it cannot be changed. -/
theorem unwind_offset_takenBack :
    (∃ f, takenBack.unwind ⟨0x1001⟩ (Registers.zero.set .rsp 0x7000) = .ok f ∧
      f.cfa = .registerOffset 7 8 ∧
      ∃ d entry common own st₀ st i, takenBack.Executes ⟨0x1001⟩ d entry common own st₀ st ∧
        offsetSource? (common ++ own) = some i ∧ i.givenOffset? entry.dataAlignment = some 8) ∧
    takenBack.unwind ⟨0x1002⟩ (Registers.zero.set .rsp 0x7000) =
      .error (.unresolvableFrame "CFA offset changed without a CFA register") := by
  constructor
  · obtain ⟨f, hf, hcfa⟩ : ∃ f,
        takenBack.unwind ⟨0x1001⟩ (Registers.zero.set .rsp 0x7000) = .ok f ∧
          f.cfa = .registerOffset 7 8 := ⟨_, rfl, rfl⟩
    obtain ⟨d, entry, common, own, st₀, st, reg, n, hexecutes, hrule, hsource⟩ :=
      (unwind_offset _ _ _).1 f hf
    cases hcfa.symm.trans hrule
    rcases hsource with ⟨i, hi, hgiven⟩ | ⟨-, hzero, -⟩
    · exact ⟨f, hf, hcfa, d, entry, common, own, st₀, st, i, hexecutes, hi, hgiven⟩
    · cases hzero
  -- the bytes of the sections, one instruction at a time, up to the one that fails
  · have hdefine : Takes take [0x0c, 0x07, 0x08] (.defCfa 7 8) := local_take.takes rfl
    have hkeep : Takes take [0x0a] .rememberState := local_take.takes rfl
    have hback : Takes take [0x0b] .restoreState := local_take.takes rfl
    have hraise : Takes take [0x0e, 0x20] (.defCfaOffset 32) := local_take.takes rfl
    have hadvance : Takes take [0x41] (.advance 1) := local_take.takes rfl
    have hexpression : Takes take [0x0f, 0x01, 0x30] (.defCfaExpression [0x30]) :=
      local_take.takes rfl
    have hlower : Takes take [0x0e, 0x10] (.defCfaOffset 16) := local_take.takes rfl
    have hcommon : Decodes [0x0c, 0x07, 0x08] [.defCfa 7 8] := .cons hdefine .nil
    have hown : Decodes [0x0a, 0x0e, 0x20, 0x41, 0x0b, 0x41, 0x0f, 0x01, 0x30]
        [.rememberState, .defCfaOffset 32, .advance 1, .restoreState, .advance 1,
          .defCfaExpression [0x30]] :=
      .cons hkeep (.cons hraise (.cons hadvance (.cons hback (.cons hadvance
        (.cons hexpression .nil)))))
    have hruns : Runs (takenBack.context ⟨1, "", 1, -8, 16, [0x0c, 0x07, 0x08]⟩ []) (some ⟨0x1002⟩)
        ⟨⟨0x1000⟩, .registerOffset 7 8, [], []⟩
        [.rememberState, .defCfaOffset 32, .advance 1, .restoreState, .advance 1,
          .defCfaExpression [0x30]] ⟨⟨0x1002⟩, .expression [0x30], [], []⟩ :=
      .cons rfl rfl (.cons rfl rfl (.cons rfl rfl (.cons rfl rfl (.cons rfl rfl
        (.cons rfl rfl (.nil _))))))
    exact (unwind_offset _ _ _).2 _ _ _ _ _ _ _
      (.own rfl hcommon (.cons rfl rfl (.nil _)) rfl hown hlower hruns rfl) rfl (.inl rfl)

/-- A common entry that names the register of the frame address and no offset. -/
def withoutOffset : FrameIndex where
  commonEntries := [⟨1, "", 1, -8, 16, [0x0d, 0x07]⟩]
  descriptions := [⟨⟨0x1000⟩, 0x10, [], 0⟩]
  bias := .null

/-- Neither is there always an instruction that gives the offset, nor does unwinding fail where the
register alone is changed and there is no offset. -/
theorem not_unwind_offset :
    (¬ ∀ (index : FrameIndex) pc regs f, index.unwind pc regs = .ok f →
      ∀ d entry common own st₀ st, index.Executes pc d entry common own st₀ st →
        ∃ i reg n, offsetSource? (common ++ own) = some i ∧
          i.givenOffset? entry.dataAlignment = some n ∧ f.cfa = .registerOffset reg n) ∧
    ¬ ∀ (index : FrameIndex) pc d entry before ctx st r,
      index.ComesTo pc d entry before ctx st (.defCfaRegister r) → st.cfa.offset? = none →
        ∀ regs, ∃ message, index.unwind pc regs = .error (.unresolvableFrame message) := by
  have hregister : Takes take [0x0d, 0x07] (.defCfaRegister 7) := local_take.takes rfl
  have hcommon : Decodes [0x0d, 0x07] [.defCfaRegister 7] := .cons hregister .nil
  have hcovering : withoutOffset.covering ⟨0x1000⟩ =
      .ok (⟨⟨0x1000⟩, 0x10, [], 0⟩, ⟨1, "", 1, -8, 16, [0x0d, 0x07]⟩) := rfl
  obtain ⟨f, hf⟩ : ∃ f,
    withoutOffset.unwind ⟨0x1000⟩ (Registers.zero.set .rsp 0x7000) = .ok f := ⟨_, rfl⟩
  constructor
  -- the number comes from nowhere: the only instruction that was executed gives none
  · intro hall
    obtain ⟨i, -, -, hsource, -⟩ := hall _ _ _ f hf _ _ [.defCfaRegister 7] [] _ _
      ⟨hcovering, hcommon, .cons rfl rfl (.nil _), [], [], rfl, .nil, .nil _, .inl rfl⟩
    cases hsource
  · intro hfails
    obtain ⟨message, hfail⟩ := hfails _ _ _ _ [] _ _ 7
      (.common hcovering rfl .nil hregister (.nil _)) rfl (Registers.zero.set .rsp 0x7000)
    cases hf.symm.trans hfail

end FrameIndex

end SourceDebugger
