import SourceDebugger.Proofs.Replay

/-!
# Rules that are kept and taken back

Between the instruction that keeps all rules and the one that takes them back can stand anything, as
long as the two belong together: what is in between is `FrameInstruction.Nested`. As a whole such a
bracket only moves the location, `UnwindState.runs_bracket`, so that what follows it goes on with
the rules of before, `UnwindState.replay_bracket`.
-/

namespace SourceDebugger

open Read FrameInstruction

/-- Each instruction that keeps the rules has one behind it that takes them back, and the other way
round. -/
inductive FrameInstruction.Nested : List FrameInstruction → Prop
  | nil : Nested []
  | plain {i : FrameInstruction} {is : List FrameInstruction} :
    i ≠ .rememberState → i ≠ .restoreState → Nested is → Nested (i :: is)
  | bracket {inner is : List FrameInstruction} : Nested inner → Nested is →
    Nested (.rememberState :: (inner ++ .restoreState :: is))

namespace UnwindState

variable {ctx : UnwindContext} {limit : Option Addr} {st st' : UnwindState}
  {i : FrameInstruction} {inner is : List FrameInstruction}

/-- Rules that were kept can be taken back. -/
theorem restore_of_kept {cfa : CfaRule} {rules : RegisterRules}
    {remembered : List (CfaRule × RegisterRules)}
    (hkept : st.remembered = (cfa, rules) :: remembered)
    (h : st.step ctx .restoreState = .ok st') : st' = { st with cfa, rules, remembered } := by
  simp only [step, hkept] at h
  exact (Except.ok.inj h).symm

/-- What is kept before a nested row of instructions is what is kept behind it. -/
theorem remembered_of_nested (hnested : Nested is) (h : Runs ctx limit st is st') :
    st'.remembered = st.remembered := by
  induction hnested generalizing st st' with
  | nil =>
    cases h
    rfl
  | plain hremember hrestore _ ih =>
    cases h with
    | cons _ hstep hrest => rw [ih hrest, remembered_of_step hstep hremember hrestore]
  | @bracket inner is _ _ ih ih' =>
    cases h with
    | cons _ hkeep hrest =>
      cases hkeep
      obtain ⟨st₁, hinner, hback⟩ := runs_append.1 hrest
      cases hback with
      | cons _ hrestore hrest => rw [ih' hrest, restore_of_kept (ih hinner) hrestore]

/-- A bracket as a whole only moves the location. -/
theorem runs_bracket (hnested : Nested inner)
    (h : Runs ctx limit st (.rememberState :: (inner ++ .restoreState :: is)) st') :
    ∃ location, Runs ctx limit { st with location } is st' := by
  cases h with
  | cons _ hkeep hrest =>
    cases hkeep
    obtain ⟨st₁, hinner, hback⟩ := runs_append.1 hrest
    cases hback with
    | cons _ hrestore hrest =>
      -- what was kept first is on top again
      rw [restore_of_kept (remembered_of_nested hnested hinner) hrestore] at hrest
      exact ⟨st₁.location, hrest⟩

/-- Instructions that keep all rules, do anything nested, and take the rules back. If they are
executed without that the location passes the limit, then only the location has moved: the rules and
what was kept before are what they were, and whatever follows goes on from there. A register that is
then given back its rule has the one that the common entry set up, or none. -/
theorem replay_bracket (ctx : UnwindContext) (limit : Option Addr) (st st' : UnwindState)
    {inner : List FrameInstruction} (hnested : Nested inner) {code : List UInt8}
    (hcode : Decodes code (.rememberState :: (inner ++ [.restoreState])))
    (hreplay : st.replay ctx limit code = .ok st') (hlimit : st'.isPast limit = false) :
    st' = { st with location := st'.location } ∧
      (∀ rest, st.replay ctx limit (code ++ rest) = st'.replay ctx limit rest) ∧
      ∀ reg, ∃ restored : UnwindState,
        (∀ bs rest, Takes take bs (.restore reg) →
          st.replay ctx limit (code ++ (bs ++ rest)) = restored.replay ctx limit rest) ∧
        restored = { st' with rules := restored.rules } ∧
        SortedMap.find? restored.rules reg = SortedMap.find? ctx.initial reg ∧
        ∀ other ≠ reg, SortedMap.find? restored.rules other = SortedMap.find? st.rules other := by
  have hruns := runs_of_replay hcode hreplay hlimit
  -- the two instructions are the bracket, and whatever is nested in it is closed again
  have hsame : st' = { st with location := st'.location } := by
    obtain ⟨location, hend⟩ := runs_bracket hnested hruns
    cases hend
    rfl
  have hbehind := replay_append hcode hruns
  -- a `restore` behind the bracket is a rule of its own, made from the initial rules
  refine ⟨hsame, hbehind, fun reg => ⟨st'.restoreRule ctx reg, fun bs rest hbs => ?_,
    restoreRule_eq ctx st' reg, ?_, fun other hother => ?_⟩⟩
  · rw [hbehind, replay_of_takes hbs hlimit]
    rfl
  · rw [find?_restoreRule, if_pos rfl]
  · rw [find?_restoreRule, if_neg hother, hsame]

/-- Two brackets, one in the other, in a frame whose common entry has a rule for the return address:
the offset of the frame address is changed in the outer one and the rule of a register in the inner
one, and the return address is lost. Behind them all is as before, one byte further up. -/
theorem replay_bracket_twice :
    let ctx : UnwindContext := ⟨1, -8, .null, [(16, .offset (-8))]⟩
    let st : UnwindState :=
      ⟨⟨0x1000⟩, .registerOffset 7 16, [(6, .offset (-16)), (16, .sameValue)], []⟩
    let code : List UInt8 := [0x0a, 0x0e, 0x20, 0x0a, 0x08, 0x06, 0x0b, 0x41, 0x07, 0x10, 0x0b]
    ∃ st', st.replay ctx (some ⟨0x1008⟩) code = .ok st' ∧ st'.location = ⟨0x1001⟩ ∧
      st'.cfa = .registerOffset 7 16 ∧ st'.rules = [(6, .offset (-16)), (16, .sameValue)] ∧
      st'.remembered = [] ∧
      ∃ restored : UnwindState,
        (∀ rest, st.replay ctx (some ⟨0x1008⟩) (code ++ (0xd0 :: rest)) =
          restored.replay ctx (some ⟨0x1008⟩) rest) ∧
        SortedMap.find? restored.rules 16 = some (.offset (-8)) ∧
        SortedMap.find? restored.rules 6 = some (.offset (-16)) := by
  intro ctx st code
  -- one bracket inside the other, around the instructions that change the rules
  have hinner : Nested [.sameValue 6] := .plain nofun nofun .nil
  have hafter : Nested [.advance 1, .undefined 16] := .plain nofun nofun (.plain nofun nofun .nil)
  have hnested : Nested [.defCfaOffset 32, .rememberState, .sameValue 6, .restoreState, .advance 1,
    .undefined 16] := .plain nofun nofun (hinner.bracket hafter)
  have hkeep : Takes take [0x0a] .rememberState := local_take.takes rfl
  have hback : Takes take [0x0b] .restoreState := local_take.takes rfl
  have hoffset : Takes take [0x0e, 0x20] (.defCfaOffset 32) := local_take.takes rfl
  have hsame : Takes take [0x08, 0x06] (.sameValue 6) := local_take.takes rfl
  have hadvance : Takes take [0x41] (.advance 1) := local_take.takes rfl
  have hlost : Takes take [0x07, 0x10] (.undefined 16) := local_take.takes rfl
  have hcode : Decodes code (.rememberState :: ([.defCfaOffset 32, .rememberState, .sameValue 6,
      .restoreState, .advance 1, .undefined 16] ++ [.restoreState])) :=
    .cons hkeep (.cons hoffset (.cons hkeep (.cons hsame (.cons hback (.cons hadvance
      (.cons hlost (.cons hback .nil)))))))
  have hreplay : st.replay ctx (some ⟨0x1008⟩) code = .ok { st with location := ⟨0x1001⟩ } := by
    decide +kernel
  obtain ⟨-, -, hrestored⟩ := replay_bracket ctx _ st _ hnested hcode hreplay (by decide)
  obtain ⟨restored, hreplayed, -, hreg, hother⟩ := hrestored 16
  refine ⟨_, hreplay, rfl, rfl, rfl, rfl, restored, fun rest => ?_, hreg, hother 6 (by decide)⟩
  exact hreplayed [0xd0] rest (local_take.takes rfl)

end UnwindState

end SourceDebugger
