import Mathlib.Logic.Relation
import SourceDebugger.Disassembly
import SourceDebugger.Proofs.Cpu

/-!
# Steps over calls

A program by itself, seen in large steps: `Cpu.StepsOver` leads over one instruction, and over a
call to the first state behind it in which the program is back from it. A deeper call of the same
function comes back to the same address, but with a lower stack pointer.

Both the way back from a call and the way to another line end at the first state of a kind. `Meets`
is such a way for any relation, `Avoids` a part of it; there is only one way if the relation is
functional, `Meets.unique`.
-/

namespace SourceDebugger

open Relation

/-! ### The first of a kind -/

section Ways

variable {α : Type} {R : α → α → Prop} {Q : α → Prop} {a b c : α}

/-- A way from `a` to `b`, behind whose start `Q` holds nowhere. -/
def Avoids (R : α → α → Prop) (Q : α → Prop) (a b : α) : Prop :=
  ReflTransGen (fun c d => R c d ∧ ¬ Q d) a b

/-- The first behind `a` of which `Q` holds is `b`. -/
def Meets (R : α → α → Prop) (Q : α → Prop) (a b : α) : Prop :=
  ∃ c, Avoids R Q a c ∧ R c b ∧ Q b

theorem Avoids.next (h : Avoids R Q a b) (hR : R b c) (hQ : ¬ Q c) : Avoids R Q a c :=
  ReflTransGen.tail h ⟨hR, hQ⟩

theorem Avoids.not (h : Avoids R Q a b) (ha : ¬ Q a) : ¬ Q b := by
  rcases ReflTransGen.cases_tail h with rfl | ⟨c, -, -, hb⟩
  · exact ha
  · exact hb

/-- What comes next is on the way, or it is the end. -/
theorem Avoids.next_or_meets (h : Avoids R Q a b) (hR : R b c) : Avoids R Q a c ∨ Meets R Q a c :=
  (Classical.em (Q c)).symm.imp (h.next hR) fun hc => ⟨b, h, hR, hc⟩

/-- Where each step is a way of another kind, so is the whole. -/
theorem Avoids.reflTransGen {S : α → α → Prop} (h : Avoids R Q a b)
    (hR : ∀ c d, R c d → ReflTransGen S c d) : ReflTransGen S a b := by
  induction h with
  | refl => exact .refl
  | tail _ hstep ih => exact ih.trans (hR _ _ hstep.1)

variable (functional : ∀ a b c, R a b → R a c → b = c)
include functional

/-- A way that avoids is the first part of one that meets. -/
theorem Avoids.of_meets (h : Avoids R Q a c) (hmeets : Meets R Q a b) : Meets R Q c b := by
  obtain ⟨d, hd, hR, hb⟩ := hmeets
  induction h with
  | refl => exact ⟨d, hd, hR, hb⟩
  | tail _ hstep ih =>
    obtain ⟨d', hd', hR', -⟩ := ih
    -- either the end comes next, or the two ways go on together
    rcases ReflTransGen.cases_head hd' with rfl | ⟨e, ⟨hRe, -⟩, he⟩
    · cases functional _ _ _ hstep.1 hR'
      exact absurd hb hstep.2
    · cases functional _ _ _ hstep.1 hRe
      exact ⟨d', he, hR', hb⟩

/-- There is one first of a kind. -/
theorem Meets.unique (h : Meets R Q a b) (h' : Meets R Q a c) : b = c := by
  obtain ⟨d, hd, hR, hb⟩ := h
  obtain ⟨d', hd', hR', hc⟩ := hd.of_meets functional h'
  rcases ReflTransGen.cases_head hd' with rfl | ⟨e, ⟨hRe, he⟩, -⟩
  · exact functional _ _ _ hR hR'
  · cases functional _ _ _ hR hRe
    exact absurd hb he

end Ways

/-! ### Calls -/

namespace ProgramState

variable {κ : Type} (u : ProgramState κ)

/-- The next instruction, as it is decoded from the bytes of the program. -/
def instruction : Except DebugError InstructionInfo :=
  InstructionInfo.decode (u.memory.bytesFrom u.pc X86.maxInstructionLength) u.pc

/-- Where the next instruction returns to, if it is a call. -/
def returnAddress? : Option Addr :=
  match u.instruction with
  | .ok info => if info.isCall then some (u.pc + UInt64.ofNat info.length) else none
  | .error _ => none

/-- Whether a program is back at an address, from a call before which it had this stack pointer. -/
def IsBack (ret callerSp : Addr) : Prop :=
  u.pc = ret ∧ callerSp ≤ u.registers.stackPointer

instance (ret callerSp : Addr) : Decidable (u.IsBack ret callerSp) :=
  inferInstanceAs (Decidable (_ ∧ _))

variable {u} {info : InstructionInfo}

theorem returnAddress?_of_call (h : u.instruction = .ok info) (hcall : info.isCall = true) :
    u.returnAddress? = some (u.pc + UInt64.ofNat info.length) := by
  simp only [returnAddress?, h, hcall, if_true]

/-- Unless the instruction is a call. -/
theorem eq_of_returnAddress? (h : u.instruction = .ok info) {ret : Addr}
    (hret : u.returnAddress? = some ret) :
    info.isCall = true ∧ ret = u.pc + UInt64.ofNat info.length := by
  rw [returnAddress?, h] at hret
  by_cases hcall : info.isCall = true
  · simp only [hcall, if_true, Option.some.injEq] at hret
    exact ⟨hcall, hret.symm⟩
  · simp [hcall] at hret

end ProgramState

namespace Cpu

variable {κ : Type} (cpu : Cpu κ)

/-- One instruction, which is no trap and not the end, leads from one state to another. -/
def Runs (u v : ProgramState κ) : Prop := cpu.step u = (.trap .singleStep, some v)

/-- Inside a call the program comes from `u` to `v`; it is to return to an address, with at least
this stack pointer. -/
abbrev Within (ret callerSp : Addr) (u v : ProgramState κ) : Prop :=
  Avoids cpu.Runs (·.IsBack ret callerSp) u v

/-- In `v` it is back from there for the first time. -/
abbrev Returns (ret callerSp : Addr) (u v : ProgramState κ) : Prop :=
  Meets cpu.Runs (·.IsBack ret callerSp) u v

/-- It is inside, or it is back for the first time. -/
abbrev WithinOrBack (ret callerSp : Addr) (u v : ProgramState κ) : Prop :=
  cpu.Within ret callerSp u v ∨ cpu.Returns ret callerSp u v

/-- One instruction, or a call with all that is executed until the program is back from it. -/
inductive StepsOver (u : ProgramState κ) : ProgramState κ → Prop
  /-- An instruction that is not a call, or that is the call of what follows it. -/
  | instruction {v : ProgramState κ} : cpu.Runs u v →
      (∀ ret, u.returnAddress? = some ret → v.pc = ret) → StepsOver u v
  /-- A call that leads elsewhere. -/
  | call {ret : Addr} {w v : ProgramState κ} : u.returnAddress? = some ret → cpu.Runs u w →
      w.pc ≠ ret → cpu.Returns ret u.registers.stackPointer w v → StepsOver u v

/-- Inside a call that is to return to `ret` the program executes no trap of its own, comes to no
breakpoint of a table, and has nothing to do with them nor with one behind the call. -/
def CalmInside (table : BreakpointTable) (ret callerSp : Addr) (u : ProgramState κ) : Prop :=
  ∀ v, cpu.Within ret callerSp u v →
    ¬ v.AtTrap ∧ table.isArmed v.pc = false ∧
      ∀ a, a = ret ∨ table.isArmed a = true → ¬ cpu.Disturbs v a

/-- The next step over an instruction or a call has nothing to do with breakpoints. -/
structure Calm (table : BreakpointTable) (u : ProgramState κ) : Prop where
  /-- The instruction is not a trap of the program. -/
  noTrap : ¬ u.AtTrap
  /-- It neither touches a breakpoint nor lies over one. -/
  clear : ∀ a, table.isArmed a = true → ¬ cpu.Disturbs u a
  /-- The same holds of what a call executes. -/
  called : ∀ ret w, u.returnAddress? = some ret → cpu.Runs u w → w.pc ≠ ret →
    cpu.CalmInside table ret u.registers.stackPointer w

variable {cpu} {u v w : ProgramState κ}

/-- Unless the program is back from a call, it is still inside. -/
theorem within_of_not_isBack {ret callerSp : Addr} (h : cpu.WithinOrBack ret callerSp u v)
    (hnot : ¬ v.IsBack ret callerSp) : cpu.Within ret callerSp u v :=
  h.resolve_right fun ⟨_, _, _, hback⟩ => hnot hback

/-- Where an instruction leads is determined. -/
theorem runs_functional (u v w : ProgramState κ) (hv : cpu.Runs u v) (hw : cpu.Runs u w) :
    v = w := by
  cases hv.symm.trans hw
  rfl

/-- And so is where a step over a call leads. -/
theorem stepsOver_functional (u v w : ProgramState κ) (h : cpu.StepsOver u v)
    (h' : cpu.StepsOver u w) : v = w := by
  -- where the first instruction leads says whether there is a call to run
  cases h with
  | instruction hv hsame =>
    cases h' with
    | instruction hw => exact runs_functional _ _ _ hv hw
    | call hret hw hne _ =>
      cases runs_functional _ _ _ hv hw
      exact absurd (hsame _ hret) hne
  | call hret hv hne hmeets =>
    cases h' with
    | instruction hw hsame =>
      cases runs_functional _ _ _ hv hw
      exact absurd (hsame _ hret) hne
    | call hret' hw _ hmeets' =>
      cases hret.symm.trans hret'
      cases runs_functional _ _ _ hv hw
      exact hmeets.unique runs_functional hmeets'

/-- The run of a program by itself comes to every state to which instructions lead. -/
theorem after_of_reflTransGen (h : ReflTransGen cpu.Runs u v) : ∃ n, cpu.after n u = some v := by
  induction h with
  | refl => exact ⟨0, rfl⟩
  | tail _ hrun ih => exact after_closed ih (congrArg Prod.snd hrun)

/-- Where a way over instructions leads after each of them. -/
theorem after_of_avoids {Q : ProgramState κ → Prop} (h : Avoids cpu.Runs Q u v) :
    ∃ n, cpu.after n u = some v ∧ ∀ i, 0 < i → i ≤ n → ∀ w, cpu.after i u = some w → ¬ Q w := by
  induction h with
  | refl => exact ⟨0, rfl, by omega⟩
  | @tail x y _ hstep ih =>
    obtain ⟨n, hn, hbefore⟩ := ih
    have hnext : cpu.after (n + 1) u = some y := by
      rw [after_add, hn, Option.bind_some, after, hstep.1]
      rfl
    refine ⟨n + 1, hnext, fun i hpos hle w hw => ?_⟩
    -- the last state is the one that the last step avoids
    rcases Nat.le_or_eq_of_le_succ hle with hle | rfl
    · exact hbefore i hpos hle w hw
    · cases hnext.symm.trans hw
      exact hstep.2

/-- Large steps are made of instructions. -/
theorem StepsOver.reflTransGen (h : cpu.StepsOver u v) : ReflTransGen cpu.Runs u v := by
  cases h with
  | instruction hrun => exact .single hrun
  | call _ hrun _ hmeets =>
    obtain ⟨x, hx, hlast, -⟩ := hmeets
    exact .head hrun (.tail (hx.reflTransGen fun _ _ => .single) hlast)

/-- So a state to which large steps lead is in the run of the program by itself. -/
theorem after_of_meets {Q : ProgramState κ → Prop} (h : Meets cpu.StepsOver Q u v) :
    ∃ n, cpu.after n u = some v := by
  obtain ⟨w, hw, hstep, -⟩ := h
  have hway : ReflTransGen cpu.Runs u w := hw.reflTransGen fun _ _ => StepsOver.reflTransGen
  exact after_of_reflTransGen (hway.trans hstep.reflTransGen)

end Cpu

end SourceDebugger
