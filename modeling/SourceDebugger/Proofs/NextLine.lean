import SourceDebugger.Proofs.Continue
import SourceDebugger.Proofs.CpuProcess
import SourceDebugger.Proofs.MacroStep
import SourceDebugger.Proofs.Traps

/-!
# To step over calls

When the operator steps to the next line, the process is let go through the calls of the line, to a
breakpoint that the step engine sets behind each of them. What comes of it is what the program by
itself comes to in steps over its instructions and calls.

* `Session.nextLine_exact`: an answer that the process stopped is given in the first state behind
  the current one, along such steps, at which the line is another one or there is a breakpoint of
  the operator.
-/

namespace SourceDebugger

variable {σ κ : Type}

/-! ### Reading instructions -/

open Tracee in
/-- What is read of a memory is what is in it. -/
class ReadsMemory (σ : Type) [Tracee σ] : Prop where
  /-- The bytes that are read are those in memory, as many of the wanted ones as there are. -/
  readMemory_ok {p : σ} {addr : Addr} {count : Nat} {bytes : List UInt8} :
    readMemory p addr count = .ok bytes → bytes = (memory p).bytesFrom addr count

instance {cpu : Cpu κ} [cpu.Terminating] : ReadsMemory (CpuProcess cpu) where
  readMemory_ok {p addr count bytes} h := by
    rcases halive : p.alive
    · simp [Tracee.readMemory, halive] at h
    · rw [CpuProcess.memory_eq halive]
      simp only [Tracee.readMemory, halive, if_true, Except.ok.injEq] at h
      exact h.symm

/-- Whether an answer says that the process stopped at an address. -/
def Feedback.isStopped : Feedback → Bool
  | .stopped .. => true
  | _ => false

/-! ### Running on to a breakpoint -/

namespace Patched

variable {cpu : Cpu κ} {table : BreakpointTable} {x u : ProgramState κ}

/-- A process that is let go stops at the first breakpoint, along states of which `P` holds, or it
ends. -/
theorem runsTo_isArmed {P : ProgramState κ → Prop}
    (next : ∀ v w, P v → table.isArmed v.pc = false → cpu.Runs v w → P w)
    (calm : ∀ v, P v → table.isArmed v.pc = false →
      ¬ v.AtTrap ∧ ∀ a, table.isArmed a = true → ¬ cpu.Disturbs v a)
    {stop : Stop} {end_ : Option (ProgramState κ)} (hrun : cpu.RunsTo x stop end_)
    (h : Patched table x u) (hu : P u) :
    (∃ y v, stop = .trap .breakpoint ∧ end_ = some y ∧ Patched table y v.behindTrap ∧ P v ∧
      table.isArmed v.pc = true) ∨ ∃ code, stop = .exited code ∧ end_ = none := by
  -- the state of the program goes along, as in the run without the breakpoints
  induction hrun generalizing u with
  | @stop x stop end_ hstep hne =>
    rcases harmed : table.isArmed u.pc
    · obtain ⟨hnoTrap, hclear⟩ := calm u hu harmed
      rcases cpu.step_cases u with ⟨htrap, -⟩ | ⟨u', -, -, hs⟩ | ⟨code, -, -, hs⟩
      · exact absurd htrap hnoTrap
      · rcases h.step harmed hclear with ⟨stop', x', u'', hx, hu', -⟩ | ⟨stop', hx, hu'⟩ <;>
          cases hs.symm.trans hu'
        cases hx.symm.trans hstep
        exact absurd rfl hne
      · rcases h.step harmed hclear with ⟨stop', x', u'', hx, hu', -⟩ | ⟨stop', hx, hu'⟩ <;>
          cases hs.symm.trans hu'
        cases hx.symm.trans hstep
        exact .inr ⟨code, rfl, rfl⟩
    · cases (Cpu.step_of_atTrap (h.atTrap_of_isArmed harmed)).symm.trans hstep
      exact .inl ⟨_, u, rfl, rfl, h.behindTrap, hu, harmed⟩
  | @next x t stop end_ hstep _ ih =>
    rcases harmed : table.isArmed u.pc
    · obtain ⟨-, hclear⟩ := calm u hu harmed
      rcases h.step harmed hclear with ⟨stop', x', u', hx, hu', h'⟩ | ⟨stop', hx, -⟩ <;>
        cases hx.symm.trans hstep
      exact ih h' (next u u' hu harmed hu')
    · cases (Cpu.step_of_atTrap (h.atTrap_of_isArmed harmed)).symm.trans hstep

end Patched

namespace Session

variable [Tracee σ] {cpu : Cpu κ} {rest : σ → κ}

/-- A session is another one, but for its process, which is in a state of the program, and for its
breakpoints. -/
structure Along (s : Session σ) (rest : σ → κ) (table : BreakpointTable) (u : ProgramState κ)
    (t : Session σ) : Prop where
  session : t = { s with debuggee := t.debuggee }
  breakpoints : t.breakpoints = table
  poised : Poised rest t.debuggee u

variable {s t : Session σ} {table : BreakpointTable} {u v : ProgramState κ}

/-- The process went on. -/
theorem Along.moved (h : s.Along rest table u t) {q : σ}
    (hq : Poised rest { t.debuggee with process := q } v) :
    s.Along rest table v { t with debuggee := { t.debuggee with process := q } } := by
  refine ⟨?_, h.breakpoints, hq⟩
  rw [h.session]

/-- Along the way, a stop is answered as in the first session. -/
theorem Along.stopFeedback_eq (h : s.Along rest table u t) (pc : Addr) :
    t.stopFeedback pc = s.stopFeedback pc := by
  rw [h.session]
  rfl

/-- Along the way, an address has the line that it has in the first session. -/
theorem Along.lineOf_eq (h : s.Along rest table u t) (pc : Addr) : t.lineOf pc = s.lineOf pc := by
  rw [h.session]
  rfl

/-- Along the way, no signal is noted or delivered. -/
theorem Along.pendingSignal_eq (h : s.Along rest table u t) :
    t.pendingSignal = s.pendingSignal := by
  rw [h.session]

/-- What a single step of the program comes to. -/
theorem Along.stepped (h : s.Along rest table u t) (hnoTrap : ¬ u.AtTrap) {q : σ}
    (hq : PoisedOrGone rest (cpu.step u).2 { t.debuggee with process := q }) :
    ((cpu.step u).1 = .trap .singleStep ∧ ∃ v, cpu.Runs u v ∧
      s.Along rest table v { t with debuggee := { t.debuggee with process := q } }) ∨
    ∃ code, (cpu.step u).1 = .exited code := by
  rcases cpu.step_cases u with ⟨htrap, -⟩ | ⟨v, -, -, hs⟩ | ⟨code, -, -, hs⟩
  · exact absurd htrap hnoTrap
  · rw [hs] at hq ⊢
    exact .inl ⟨rfl, v, hs, h.moved hq⟩
  · rw [hs]
    exact .inr ⟨code, rfl⟩

variable [LawfulTracee σ] (host : Executes cpu rest)
include host

/-- The instruction under a breakpoint is executed. -/
theorem stepOver_along (h : s.Along rest table u t) (hnoTrap : ¬ u.AtTrap)
    (harmed : table.isArmed u.pc = true)
    (hclear : ∀ a, table.isArmed a = true → ¬ cpu.Disturbs u a) :
    Ensures (stepOverBreakpoint u.pc) t fun r t' =>
      (r = .ok (.trap .singleStep) ∧ ∃ v, cpu.Runs u v ∧ s.Along rest table v t') ∨
      ∃ code, r = .ok (.exited code) := by
  rw [← h.breakpoints] at harmed hclear
  obtain ⟨q, hover, hq⟩ := stepOverBreakpoint_apply host h.poised harmed hclear
  refine (ensures_of_eq hover).2 ?_
  rcases h.stepped hnoTrap hq with ⟨hr, hv⟩ | ⟨code, hr⟩
  · exact .inl ⟨congrArg Except.ok hr, hv⟩
  · exact .inr ⟨code, congrArg Except.ok hr⟩

/-- One instruction of the program is executed, with a breakpoint under it or without one. -/
theorem stepOnce_along (h : s.Along rest table u t) (hnoTrap : ¬ u.AtTrap)
    (hclear : ∀ a, table.isArmed a = true → ¬ cpu.Disturbs u a) :
    Ensures stepOnce t fun r t' =>
      (r = .ok (.trap .singleStep) ∧ ∃ v, cpu.Runs u v ∧ s.Along rest table v t') ∨
      ∃ code, r = .ok (.exited code) := by
  refine ensures_observe_bind.2 ?_
  rw [process, h.poised.pc]
  refine ensures_get_bind.2 ?_
  rw [h.breakpoints]
  refine ensures_ite.2 ⟨fun harmed => stepOver_along host h hnoTrap harmed hclear, fun hfree => ?_⟩
  rw [← h.breakpoints] at hfree hclear
  obtain ⟨q, hstep, hq⟩ := h.poised.step host (Bool.eq_false_iff.2 hfree) hclear
  refine ensures_onDebuggee.2 ?_
  rw [Debuggee.onProcess_apply, hstep]
  rcases h.stepped hnoTrap hq with ⟨hr, hv⟩ | ⟨code, hr⟩
  · exact .inl ⟨congrArg Except.ok hr, hv⟩
  · exact .inr ⟨code, congrArg Except.ok hr⟩

omit [LawfulTracee σ] in
/-- The process runs on to a breakpoint, and is moved back onto it. -/
theorem resume_along {P : ProgramState κ → Prop}
    (next : ∀ v w, P v → table.isArmed v.pc = false → cpu.Runs v w → P w)
    (calm : ∀ v, P v → table.isArmed v.pc = false →
      ¬ v.AtTrap ∧ ∀ a, table.isArmed a = true → ¬ cpu.Disturbs v a)
    (h : s.Along rest table u t) (hpending : s.pendingSignal = none) (hu : P u) :
    Ensures resumeProcess t fun r t' => (∃ code, r = .ok (.exited code)) ∨
      r = .ok (.trap .breakpoint) ∧ ∃ v t'', P v ∧ table.isArmed v.pc = true ∧
        rewindAfterTrap t' = some (.ok v.pc, t'') ∧ s.Along rest table v t'' := by
  intro r t' hresume
  -- no signal is delivered
  simp only [resumeProcess, h.pendingSignal_eq, hpending] at hresume
  rcases hrun : Tracee.resume none t.process with _ | ⟨r', q⟩ <;> rw [hrun] at hresume
  · cases hresume
  cases hresume
  obtain ⟨x, hx, hpatched⟩ := h.poised.stands
  -- what the process runs is the program with the traps in it
  obtain ⟨stop, end_, hruns, rfl, hcomes⟩ := host.resume hx hrun
  rw [show t.debuggee.breakpoints = table from h.breakpoints] at hpatched
  rcases hpatched.runsTo_isArmed next calm hruns hu with
    ⟨y, v, rfl, rfl, hy, hv, harmed⟩ | ⟨code, rfl, -⟩
  · let stopped := { t.debuggee with process := q }
    have hbehind : Poised rest stopped v.behindTrap := by
      refine ⟨⟨y, hcomes, (h.breakpoints.symm ▸ hy : Patched t.breakpoints y _)⟩, fun a ha => ?_⟩
      exact host.writable_resume hrun hcomes.alive (h.poised.writable a ha)
    -- a trap is there, so it is not the end of the address space
    have hlast : v.pc ≠ Addr.last := by
      intro hend
      obtain ⟨b, hb, haddr⟩ := BreakpointTable.isArmed_iff.1 harmed
      have htrap := hy.coherent.trapped b hb
      rw [haddr, hend, ← hcomes.memory, host.last hcomes.alive] at htrap
      cases htrap
    obtain ⟨q', hrewind, hv'⟩ := rewindAfterTrap_trap host
      (s := { t with pendingSignal := none, debuggee := stopped }) hbehind hlast
      (h.breakpoints ▸ harmed)
    refine .inr ⟨rfl, v, _, hv, harmed, hrewind, ?_, h.breakpoints, hv'⟩
    rw [h.session, ← hpending]
  · exact .inl ⟨code, rfl⟩

/-- How a way back from a call ends: in the first state behind it, or with the program. -/
def BackOrGone (s : Session σ) (cpu : Cpu κ) (rest : σ → κ) (table : BreakpointTable)
    (ret callerSp : Addr) (u : ProgramState κ) (r : Except DebugError (Option Stop))
    (t : Session σ) : Prop :=
  (r = .ok none ∧ ∃ v, cpu.Returns ret callerSp u v ∧ s.Along rest table v t) ∨
    ∃ code, r = .ok (some (.exited code))

section Back

variable {ret callerSp : Addr} (hne : u.pc ≠ ret)
  (hcalm : cpu.CalmInside s.breakpoints.user ret callerSp u)
  (htable : ∀ a, table.isArmed a = true ↔ a = ret ∨ s.breakpoints.user.isArmed a = true)
include hne hcalm htable

/-- At the breakpoint behind the call either the program is back, or a deeper call is, and the
process goes on. -/
theorem backOnward_along (harmed : table.isArmed v.pc = true)
    (hv : cpu.WithinOrBack ret callerSp u v) {t' : Session σ}
    (hrewind : rewindAfterTrap t = some (.ok v.pc, t')) (h : s.Along rest table v t') {fuel : Nat}
    (hagain : ∀ w t, cpu.WithinOrBack ret callerSp u w → s.Along rest table w t →
      Ensures (runBack ret callerSp fuel) t (s.BackOrGone cpu rest table ret callerSp u)) :
    Ensures (backOnward ret callerSp fuel) t (s.BackOrGone cpu rest table ret callerSp u) := by
  -- there is no other breakpoint than the one behind the call
  have hpc : v.pc = ret := by
    rcases hv with hv | ⟨-, -, -, hpc, -⟩
    · refine ((htable v.pc).1 harmed).resolve_right ?_
      rw [(hcalm v hv).2.1]
      simp
    · exact hpc
  refine (ensures_bind_of_ok hrewind).2 ?_
  refine (ensures_if_neg (not_not_intro hpc)).2 (ensures_observe_bind.2 ?_)
  rw [(Stands.of_poised h.poised).registers]
  refine ensures_ite.2 ⟨fun hsp => ensures_pure.2 (.inl ⟨rfl, v, ?_, h⟩), fun hdeep => ?_⟩
  -- the stack pointer says that the program is back
  · exact hv.resolve_left fun hv => hv.not (fun hback => hne hback.1) ⟨hpc, hsp⟩
  -- a deeper call is back, and the instruction under the breakpoint is executed
  have hwithin := Cpu.within_of_not_isBack hv fun hback => hdeep hback.2
  obtain ⟨hnoTrap, -, hclear⟩ := hcalm v hwithin
  rw [← hpc]
  refine (stepOver_along host h hnoTrap harmed fun a ha => hclear a ((htable a).1 ha)).bind ?_
    (by simp)
  rintro stop x (⟨hstop, w, hrun, hx⟩ | ⟨code, hstop⟩) <;> cases hstop
  · refine (ensures_if_neg (not_not_intro rfl)).2 ?_
    rw [hpc]
    exact hagain w x (hwithin.next_or_meets hrun) hx
  · exact (ensures_if_pos (by simp)).2 (ensures_pure.2 (.inr ⟨code, rfl⟩))

/-- A call is run until the program is back from it, or ends. Here the process may have come some
way already. -/
theorem runBack_along (hpending : s.pendingSignal = none) {w : ProgramState κ}
    (hw : cpu.WithinOrBack ret callerSp u w) (h : s.Along rest table w t) (fuel : Nat) :
    Ensures (runBack ret callerSp fuel) t (s.BackOrGone cpu rest table ret callerSp u) := by
  induction fuel generalizing w t with
  | zero => exact ensures_diverge
  | succ fuel ih =>
    -- where there is no breakpoint, the program is not back
    have inside : ∀ v, cpu.WithinOrBack ret callerSp u v → table.isArmed v.pc = false →
        cpu.Within ret callerSp u v := by
      intro v hv hfree
      refine Cpu.within_of_not_isBack hv ?_
      rintro ⟨hpc, -⟩
      rw [(htable v.pc).2 (.inl hpc)] at hfree
      cases hfree
    have hresume := resume_along host (P := cpu.WithinOrBack ret callerSp u)
      (fun v x hv hfree hrun => (inside v hv hfree).next_or_meets hrun)
      (fun v hv hfree =>
        have ⟨hnoTrap, _, hclear⟩ := hcalm v (inside v hv hfree)
        ⟨hnoTrap, fun a ha => hclear a ((htable a).1 ha)⟩) h hpending hw
    refine hresume.bind ?_ ?_
    · rintro stop t' (⟨code, hstop⟩ | ⟨hstop, v, t'', hv, harmed, hrewind, h'⟩) <;> cases hstop
      · exact (ensures_if_pos (by simp)).2 (ensures_pure.2 (.inr ⟨code, rfl⟩))
      · exact (ensures_if_neg (not_not_intro rfl)).2
          (backOnward_along host hne hcalm htable harmed hv hrewind h' fun w t => ih)
    · rintro e x (⟨code, hr⟩ | ⟨hr, -⟩) <;> cases hr

end Back

/-- The step engine sets a breakpoint of its own. -/
theorem setInternal_along (h : s.Along rest table u t) (ret : Addr) :
    Ensures (onDebuggee (Debuggee.setInternal t.index ret)) t fun r t' => ∀ x, r = .ok x →
      ∃ b : Breakpoint, b.addr = ret ∧ b.kind = .internal ∧ s.Along rest (table ++ [b]) u t' := by
  refine ensures_onDebuggee.2 ?_
  rw [Debuggee.setInternal_apply]
  dsimp only
  -- the line that it belongs to makes no difference
  generalize (t.index.resolveAddress ret).toOption.getD ⟨"", 0⟩ = location
  rw [Debuggee.arm_apply]
  by_cases harmed : t.debuggee.breakpoints.isArmed ret = true
  · rw [if_pos harmed]
    exact nofun
  rw [if_neg harmed]
  rcases hread : Tracee.readExact t.debuggee.process ret 1 with e | bytes
  · exact nofun
  rcases hw : Tracee.writeMemory ret [trapByte] t.debuggee.process with ⟨e | _, q⟩
  · exact nofun
  rintro x -
  let b : Breakpoint := ⟨ret, bytes.headD 0, location.file, location.line, .internal⟩
  refine ⟨b, rfl, rfl, ?_, congrArg (· ++ [b]) h.breakpoints, ?_⟩
  · rw [h.session]
  · exact h.poised.arm host.writes b (Bool.eq_false_iff.2 harmed) (Tracee.memory_of_readExact hread) hw

/-- And clears it. -/
theorem clearInternal_along (h : s.Along rest table u t) :
    Ensures clearInternal t fun r t' => r = .ok () ∧ s.Along rest table.user u t' := by
  obtain ⟨n, q, hcleared, hq⟩ := h.poised.clearInternal host.writes
  have htable : t.debuggee.breakpoints.user = table.user :=
    congrArg BreakpointTable.user h.breakpoints
  refine (ensures_bind_of_ok (x := onDebuggee Debuggee.clearInternal) (a := n)
    (t := { t with debuggee := ⟨q, table.user⟩ }) ?_).2 (ensures_pure.2 ⟨rfl, ?_, rfl, ?_⟩)
  · rw [onDebuggee_apply, hcleared, htable]
  · rw [h.session]
  · rw [← htable]
    exact hq

/-- The breakpoint behind the call is taken back. -/
theorem takeBack_along {ret callerSp : Addr} {outcome : Option Stop}
    (h : s.BackOrGone cpu rest table ret callerSp u (.ok outcome) t) :
    Ensures takeBack t (Outcome (s.BackOrGone cpu rest table.user ret callerSp u (.ok outcome))
      fun _ => True) := by
  rcases h with ⟨hr, v, hv, h⟩ | hgone
  · refine ensures_get_bind.2 (ensures_ite.2 ⟨fun _ => ?_, fun hdead => ?_⟩)
    · refine (clearInternal_along host h).mono fun r t' ⟨hcleared, h'⟩ => ?_
      rw [hcleared]
      exact .inl ⟨hr, v, hv, h'⟩
    · exact absurd h.poised.alive hdead
  · rintro (_ | _) _ -
    · trivial
    · exact .inr hgone

/-- How a run to the return of a call ends that did not fail: the program is back, or it ended. -/
def ComesBack (s : Session σ) (cpu : Cpu κ) (rest : σ → κ) (ret callerSp : Addr)
    (u : ProgramState κ) : Except DebugError (Option Feedback) → Session σ → Prop
  | .ok none, t => ∃ v, cpu.Returns ret callerSp u v ∧ s.Along rest s.breakpoints.user v t
  | .ok (some feedback), _ => feedback.isStopped = false
  | .error _, _ => True

omit host [LawfulTracee σ] in
/-- A way back that came to another stop is answered by it. -/
theorem answerFor_along {ret callerSp : Addr} {outcome : Option Stop}
    (h : s.BackOrGone cpu rest s.breakpoints.user ret callerSp u (.ok outcome) t) :
    Ensures (answerFor outcome) t (s.ComesBack cpu rest ret callerSp u) := by
  rcases h with ⟨hr, v, hv, h⟩ | ⟨code, hr⟩ <;> cases hr
  · exact ensures_pure.2 ⟨v, hv, h⟩
  · intro r t' hend
    cases hend
    rfl

/-- A run to a return follows the program to the first state behind the call, if nothing disturbs it
on the way. -/
theorem runToReturn_along {ret callerSp : Addr} (hne : u.pc ≠ ret)
    (hcalm : cpu.CalmInside s.breakpoints.user ret callerSp u)
    (hpending : s.pendingSignal = none) (h : s.Along rest s.breakpoints.user u t) (fuel : Nat) :
    Ensures (runToReturn fuel ret callerSp) t (s.ComesBack cpu rest ret callerSp u) := by
  -- the temporary breakpoint is set only where the operator has none
  refine ensures_runToReturn.2 ⟨fun _ => ?_, fun harmed => ?_⟩
  · refine (setInternal_along host h ret).bind ?_ fun _ _ _ => trivial
    intro _ t' hset
    obtain ⟨b, hb, hkind, ht'⟩ := hset _ rfl
    have htable : ∀ a, BreakpointTable.isArmed (s.breakpoints.user ++ [b]) a = true ↔
        a = ret ∨ s.breakpoints.user.isArmed a = true := by
      intro a
      rw [BreakpointTable.isArmed_append, hb, Bool.or_eq_true, decide_eq_true_eq, or_comm, eq_comm]
    -- clearing it gives the operator's table again
    have hboth : (s.breakpoints.user ++ [b] : BreakpointTable).user = s.breakpoints.user := by
      rw [BreakpointTable.user_append_internal hkind, BreakpointTable.user_user]
    refine (runBack_along host hne hcalm htable hpending (.inl .refl) ht' fuel).bind
      (fun outcome v hv => ?_) fun _ _ _ => trivial
    refine (takeBack_along host hv).bind (fun _ w hw => ?_) fun _ _ _ => trivial
    exact answerFor_along (hboth ▸ hw)
  · -- the breakpoint of the operator behind the call is met there as well
    have htable : ∀ a, s.breakpoints.user.isArmed a = true ↔
        a = ret ∨ s.breakpoints.user.isArmed a = true := by
      refine fun a => ⟨.inr, ?_⟩
      rintro (rfl | ha)
      · exact h.breakpoints ▸ harmed
      · exact ha
    exact (runBack_along host hne hcalm htable hpending (.inl .refl) h fuel).bind
      (fun outcome v hv => answerFor_along hv) fun _ _ _ => trivial

/-! ### Lines -/

/-- Where a step to the next line ends: at a breakpoint of the operator, on another line than the
one on which it started, or where there is no line. -/
def StopsAt (s : Session σ) (line : SourceLocation) (v : ProgramState κ) : Prop :=
  s.breakpoints.user.isArmed v.pc = true ∨ s.lineOf v.pc ≠ .ok line

/-- If an answer is that the process stopped, it is in a state of which `Q` holds. -/
def Lands (s : Session σ) (rest : σ → κ) (Q : ProgramState κ → Prop)
    (r : Except DebugError Feedback) (t : Session σ) : Prop :=
  ∀ feedback, r = .ok feedback → feedback.isStopped = true →
    ∃ v, Q v ∧ s.Along rest s.breakpoints.user v t ∧ feedback = s.stopFeedback v.pc

variable {line : SourceLocation}

omit [LawfulTracee σ] in
/-- The instruction at hand is that of the program. -/
theorem instructionAt_along [ReadsMemory σ] (h : s.Along rest table u t) :
    Ensures (instructionAt u.pc) t fun r t' => t' = t ∧
      ∀ info, r = .ok info → u.instruction = .ok info := by
  refine (instructionAt_decodes u.pc t).mono fun r t' ⟨ht, hinfo⟩ => ⟨ht, fun info hr => ?_⟩
  obtain ⟨bytes, hread, hdecode⟩ := hinfo info hr
  -- the bytes that are read have the traps in them, until the table takes them out
  obtain ⟨x, hx, hpatched⟩ := h.poised.stands
  have hmemory : Tracee.memory t.process = x.memory := hx.memory
  have hlast : x.memory Addr.last = none := hx.memory ▸ host.last hx.alive
  rw [ReadsMemory.readMemory_ok hread, hmemory] at hdecode
  rw [ProgramState.instruction, ← hpatched.coherent.unpatch_bytesFrom hlast]
  exact hdecode

omit host [LawfulTracee σ] in
/-- A stop in a state that is allowed lands there. -/
theorem lands_stopFeedback {Q : ProgramState κ → Prop} (hv : Q v)
    (h : s.Along rest s.breakpoints.user v t) :
    s.Lands rest Q (.ok (t.stopFeedback v.pc)) t := by
  intro feedback hr _
  cases hr
  exact ⟨v, hv, h, h.stopFeedback_eq v.pc⟩

omit host [LawfulTracee σ] in
/-- A failure lands anywhere. -/
theorem lands_of_error {Q : ProgramState κ → Prop} (e : DebugError) :
    s.Lands rest Q (.error e) t :=
  nofun

omit host [LawfulTracee σ] in
/-- An answer that is no stop lands anywhere. -/
theorem lands_of_not_stopped {Q : ProgramState κ → Prop} {feedback : Feedback}
    (h : feedback.isStopped = false) : s.Lands rest Q (.ok feedback) t := by
  intro feedback' hr hstopped
  cases hr
  cases h.symm.trans hstopped

/-- What follows an instruction of the program starts behind it; its end is no stop. -/
theorem instructionThen_lands [ReadsMemory σ] {Q : ProgramState κ → Prop}
    {onward : Registers → InstructionInfo → Task σ Feedback} {w : ProgramState κ}
    (h : s.Along rest table w t) (hnoTrap : ¬ w.AtTrap)
    (hclear : ∀ a, table.isArmed a = true → ¬ cpu.Disturbs w a)
    (honward : ∀ info v t', w.instruction = .ok info → cpu.Runs w v → s.Along rest table v t' →
      Ensures (onward w.registers info) t' (s.Lands rest Q)) :
    Ensures (instructionThen onward) t (s.Lands rest Q) := by
  refine ensures_observe_bind.2 ?_
  rw [(Stands.of_poised h.poised).registers]
  refine (instructionAt_along host h).bind ?_ fun e _ _ => lands_of_error e
  rintro info _ ⟨rfl, hinfo⟩
  refine (stepOnce_along host h hnoTrap hclear).bind ?_ fun e _ _ => lands_of_error e
  rintro stop t' (⟨hstop, v, hrun, h'⟩ | ⟨code, hstop⟩) <;> cases hstop
  · exact (ensures_if_neg (not_not_intro rfl)).2 (honward info v t' (hinfo info rfl) hrun h')
  · refine (ensures_if_pos (by simp)).2 ?_
    exact (ensures_of_eq (stopped_exited t' code)).2 (lands_of_not_stopped rfl)

omit [LawfulTracee σ] host in
/-- Behind an instruction, or a call, the step to the next line ends or goes on. -/
theorem nextOnward_lands {fuel : Nat} {w : ProgramState κ}
    (hw : Avoids cpu.StepsOver (s.StopsAt line) u w) (hover : cpu.StepsOver w v)
    (h : s.Along rest s.breakpoints.user v t)
    (hnext : Avoids cpu.StepsOver (s.StopsAt line) u v → Ensures (nextFrom line fuel) t
      (s.Lands rest (Meets cpu.StepsOver (s.StopsAt line) u))) :
    Ensures (nextOnward line fuel) t
      (s.Lands rest (Meets cpu.StepsOver (s.StopsAt line) u)) := by
  have stops : s.StopsAt line v → s.Lands rest (Meets cpu.StepsOver (s.StopsAt line) u)
      (.ok (t.stopFeedback v.pc)) t := fun hstops => lands_stopFeedback ⟨w, hw, hover, hstops⟩ h
  refine ensures_observe_bind.2 ?_
  rw [process, h.poised.pc]
  refine ensures_get_bind.2 (ensures_ite.2 ⟨fun harmed => ensures_reading.2 (stops (.inl ?_)),
    fun hfree => ensures_get_bind.2 ?_⟩)
  · rw [h.breakpoints, BreakpointTable.user_user] at harmed
    obtain ⟨b, hb, haddr⟩ := List.any_eq_true.1 harmed
    exact BreakpointTable.isArmed_iff.2 ⟨b, hb, by simpa using haddr⟩
  rw [h.lineOf_eq]
  split
  · rename_i location hline
    refine ensures_ite.2 ⟨fun hsame => hnext (hw.next hover ?_), fun hother =>
      ensures_reading.2 (stops (.inr ?_))⟩
    -- neither a breakpoint nor another line
    · rintro (harmed | hline')
      · obtain ⟨b, hb, haddr⟩ := BreakpointTable.isArmed_iff.1 harmed
        refine hfree (List.any_eq_true.2 ⟨b, ?_, by simpa using haddr⟩)
        rw [h.breakpoints, BreakpointTable.user_user]
        exact hb
      · exact hline' (hline.trans (congrArg Except.ok hsame))
    · rw [hline]
      simpa using hother
  · rename_i e hline
    refine ensures_reading.2 (stops (.inr ?_))
    rw [hline]
    simp

/-- Steps over calls land in the first state of another line, by induction on the fuel. -/
theorem nextFrom_lands [ReadsMemory σ]
    (hcalm : ∀ w, Avoids cpu.StepsOver (s.StopsAt line) u w → cpu.Calm s.breakpoints.user w)
    (hpending : s.pendingSignal = none) {w : ProgramState κ}
    (hw : Avoids cpu.StepsOver (s.StopsAt line) u w) (h : s.Along rest s.breakpoints.user w t)
    (fuel : Nat) :
    Ensures (nextFrom line fuel) t
      (s.Lands rest (Meets cpu.StepsOver (s.StopsAt line) u)) := by
  induction fuel generalizing w t with
  | zero => exact ensures_diverge
  | succ fuel ih =>
    have calm := hcalm w hw
    refine instructionThen_lands host h calm.noTrap calm.clear fun info v t' hinfo hrun h' => ?_
    refine ensures_observe_bind.2 ?_
    rw [process, h'.poised.pc]
    refine ensures_ite.2 ⟨fun hboth => ?_, fun hplain => ?_⟩
    · obtain ⟨hcall, hne⟩ := hboth
      have hret := ProgramState.returnAddress?_of_call hinfo hcall
      refine (runToReturn_along host hne (calm.called _ v hret hrun hne) hpending h' fuel).bind ?_
        fun e _ _ => lands_of_error e
      rintro (_ | feedback) t'' hback
      · obtain ⟨x, hx, h''⟩ := hback
        exact nextOnward_lands hw (.call hret hrun hne hx) h'' fun hx => ih hx h''
      · exact ensures_pure.2 (lands_of_not_stopped hback)
    -- the instruction is no call, or the call of what follows it
    · refine nextOnward_lands hw (.instruction hrun fun ret hret => ?_) h' fun hv => ih hv h'
      obtain ⟨hcall, rfl⟩ := ProgramState.eq_of_returnAddress? hinfo hret
      exact Decidable.not_not.1 fun hne => hplain ⟨hcall, hne⟩

/-- A step to the next line. -/
theorem nextLine_lands [ReadsMemory σ] (h : Poised rest s.debuggee u)
    (hpending : s.pendingSignal = none) (hline : s.lineOf u.pc = .ok line)
    (hcalm : ∀ w, Avoids cpu.StepsOver (s.StopsAt line) u w → cpu.Calm s.breakpoints.user w)
    (fuel : Nat) :
    Ensures (nextLine fuel) s (s.Lands rest (Meets cpu.StepsOver (s.StopsAt line) u)) := by
  have halong : s.Along rest s.breakpoints u s := ⟨rfl, rfl, h⟩
  refine Ensures.bind (R := fun _ t => t = s) (ensures_observe.2 rfl) ?_
    fun e _ _ => lands_of_error e
  rintro _ _ rfl
  refine (clearInternal_along host halong).bind (fun _ t ⟨_, ht⟩ => ?_)
    fun e _ _ => lands_of_error e
  refine ensures_observe_bind.2 ?_
  rw [process, ht.poised.pc]
  refine ensures_get_bind.2 ?_
  rw [ht.lineOf_eq, hline]
  exact nextFrom_lands host hcalm hpending .refl ht fuel

/-- To step to the next line is to step over instructions and calls until there is another line or
a breakpoint of the operator. Whatever commands were executed before, let `u` be the state of the
program by itself in which the process is. If the program has nothing to do with the breakpoints on
its way, and comes to none in a call, an answer that the process stopped is given in the first such
state behind `u`, of which there is one; the breakpoints of the operator are in memory as before. -/
theorem nextLine_exact [ReadsMemory σ] (p : σ) (index : DebugIndex) (frames : Option FrameIndex)
    (bias : Addr) (files : FileSystem) (commands : List (Nat × Command)) (t : Session σ)
    (h : executeAll commands (start p index frames bias files) = some t) :
    ∃ r : Session (Recorded σ),
      executeAll commands (start (.ofProcess p) index frames bias files) = some r ∧ r.plain = t ∧
      (Undisturbed cpu rest r.process.events → Tracee.isAlive t.process = true →
        ∃ u, t.Stands rest u ∧ ∀ line, t.lineOf u.pc = .ok line →
          (∀ w, Avoids cpu.StepsOver (t.StopsAt line) u w → cpu.Calm t.breakpoints.user w) →
          ∀ fuel feedback t', nextLine fuel t = some (.ok feedback, t') →
            feedback.isStopped = true →
            ∃ v, Meets cpu.StepsOver (t.StopsAt line) u v ∧
              (∀ w, Meets cpu.StepsOver (t.StopsAt line) u w → w = v) ∧
              (∃ n, cpu.after n u = some v) ∧ feedback = t.stopFeedback v.pc ∧ t'.Stands rest v ∧
              t'.breakpoints = t.breakpoints.user ∧
              Coherent t'.breakpoints (Tracee.memory t'.process) v.memory) := by
  obtain ⟨r, hr, rfl⟩ :=
    exists_recorded (s := start (.ofProcess p) index frames bias files) h
  refine ⟨r, hr, rfl, fun hundisturbed halive => ?_⟩
  obtain ⟨hpending, u, hpoised⟩ := poised_of_executeAll host hr hundisturbed halive
  refine ⟨u, Stands.of_poised hpoised, fun line hline hcalm fuel feedback t' hnext hstopped => ?_⟩
  obtain ⟨v, hv, halong, hfeedback⟩ :=
    -- the way of the commands and that of the program come to the same state
    nextLine_lands host hpoised hpending hline hcalm fuel _ _ hnext feedback rfl hstopped
  obtain ⟨x, hx, hpatched⟩ := halong.poised.stands
  refine ⟨v, hv, fun w hw => hw.unique Cpu.stepsOver_functional hv, Cpu.after_of_meets hv,
    hfeedback, Stands.of_poised halong.poised,
    halong.breakpoints, ?_⟩
  rw [process, hx.memory]
  exact hpatched.coherent

end Session

namespace CallCpu

/-- A session in which nothing was done yet. -/
def callingSession : Session (CpuProcess cpu) :=
  .start calling (.ofEntries "/" Session.linedCall) none .null ⟨"/", []⟩

/-- Where the call returns to. -/
theorem returnAddress?_calling : calling.state.returnAddress? = some ⟨0x1005⟩ := by
  decide +kernel

/-- A step over the call leads behind it. -/
theorem pc_of_stepsOver_calling {v : ProgramState Nat} (h : cpu.StepsOver calling.state v) :
    v.pc = ⟨0x1005⟩ := by
  cases h with
  | instruction _ hsame => exact hsame _ returnAddress?_calling
  | call hret _ _ hreturns =>
    cases returnAddress?_calling.symm.trans hret
    obtain ⟨_, _, _, hpc, -⟩ := hreturns
    exact hpc

/-- The call has to do with nothing but the stack, and so has the function. -/
theorem calm_calling : cpu.Calm [] calling.state where
  noTrap := by decide +kernel
  clear a ha := by cases ha
  called ret w hret hrun _ v hwithin := by
    cases returnAddress?_calling.symm.trans hret
    have hfirst : ∀ n, cpu.after (n + 1) calling.state = cpu.after n w := fun n => by
      rw [Cpu.after, hrun]
      rfl
    -- the function returns with its third instruction
    have hback : (cpu.after 4 calling.state).any (fun x =>
        decide (x.IsBack ⟨0x1005⟩ calling.state.registers.stackPointer)) = true := by
      decide +kernel
    have hinner : ∀ n < 3, (cpu.after (n + 1) calling.state).all (fun x =>
        decide (¬ x.AtTrap ∧ length x = 1 ∧ ¬ Touches x ⟨0x1005⟩)) = true := by
      decide +kernel
    obtain ⟨n, hn, hbefore⟩ := Cpu.after_of_avoids hwithin
    have hlt : n < 3 := by
      obtain ⟨x, hx, hx'⟩ := (Option.any_eq_true _ _).1 hback
      by_contra hle
      exact hbefore 3 (by omega) (by omega) x ((hfirst 3).symm.trans hx) (of_decide_eq_true hx')
    have hv := hinner n hlt
    rw [hfirst, hn] at hv
    obtain ⟨hnoTrap, hlength, htouches⟩ := of_decide_eq_true hv
    refine ⟨hnoTrap, rfl, ?_⟩
    rintro a (rfl | ha)
    · rintro ⟨-, htouch | ⟨i, hpos, hlt', -⟩⟩
      · exact htouches htouch
      · rw [show cpu.length v = 1 from hlength] at hlt'
        omega
    · cases ha

open Session in
/-- From its line the call is stepped over, to the line behind it. -/
theorem nextLine_exact_calling :
    ∃ feedback t' v, nextLine 9 callingSession = some (.ok feedback, t') ∧
      Meets cpu.StepsOver (callingSession.StopsAt ⟨"a.c", 1⟩) calling.state v ∧
      v.pc = ⟨0x1005⟩ ∧ feedback = .stopped ⟨0x1005⟩ (some ⟨"a.c", 2⟩) none ∧
      t'.Stands (·.state.rest) v ∧ t'.breakpoints = [] := by
  have hrun : (nextLine 9 callingSession).any (·.1.toOption.any Feedback.isStopped) = true := by
    decide +kernel
  obtain ⟨⟨e | feedback, t'⟩, hnext, hstopped⟩ := (Option.any_eq_true _ _).1 hrun
  · cases hstopped
  obtain ⟨r, hr, -, hexact⟩ := nextLine_exact CpuProcess.executes calling
    (.ofEntries "/" linedCall) none .null ⟨"/", []⟩ [] callingSession rfl
  -- nothing was done before, so the process is where it starts
  obtain ⟨u, hstands, hexact⟩ := hexact (by cases hr; exact .nil) rfl
  obtain rfl : u = calling.state := by
    have hshows := CpuProcess.shows (p := calling) rfl
    have hregisters := hstands.registers.symm.trans hshows.registers
    have hmemory := hstands.memory.symm.trans ((Coherent.nil _).unpatched_eq.trans hshows.memory)
    obtain ⟨_, _, _⟩ := u
    cases hregisters
    cases hmemory
    cases hstands.rest
    rfl
  -- the first step leads over the call, to another line
  have honly : ∀ w, Avoids cpu.StepsOver (callingSession.StopsAt ⟨"a.c", 1⟩) calling.state w →
      w = calling.state := by
    intro w hw
    rcases Relation.ReflTransGen.cases_head hw with rfl | ⟨x, ⟨hx, hgoes⟩, -⟩
    · rfl
    refine absurd (.inr ?_) hgoes
    rw [pc_of_stepsOver_calling hx]
    decide +kernel
  obtain ⟨v, hv, -, -, hfeedback, hstands', htable, -⟩ := hexact ⟨"a.c", 1⟩ (by decide +kernel)
    (fun w hw => honly w hw ▸ calm_calling) 9 feedback t' hnext hstopped
  have hpc : v.pc = ⟨0x1005⟩ := by
    obtain ⟨w, hw, hover, -⟩ := hv
    rw [honly w hw] at hover
    exact pc_of_stepsOver_calling hover
  -- the line is known, but there is no file with it
  have hshown : callingSession.stopFeedback ⟨0x1005⟩ =
      .stopped ⟨0x1005⟩ (some ⟨"a.c", 2⟩) none :=
    stopFeedback_of_unreadable (e := FileSystem.failure .enoent) (by decide +kernel)
      (by decide +kernel)
  rw [hpc, hshown] at hfeedback
  exact ⟨feedback, t', v, hnext, hv, hpc, hfeedback, hstands', htable⟩

end CallCpu

/-- A program that makes room on its stack: a constant in the instruction says how much. -/
def Machine.makingRoom : Machine :=
  .ofImage ⟨[⟨⟨0x1000⟩, [0x48, 0x83, 0xec, 8, 0xf4], false⟩],
    (Registers.zero.setPc ⟨0x1000⟩).set .rsp 0x2000, 0, [], [], [], false⟩ []

namespace Session

/-- A breakpoint is set on the first line, behind its first address, and the process is stepped to
the second line. -/
def nextFromFirst (process : Machine) (behind second : Addr) :
    Option (Except DebugError Feedback × Session (Recorded Machine)) := do
  let entries := [.record "a.c" 1 ⟨0x1000⟩ false, .record "a.c" 1 behind true,
    .record "a.c" 2 second false, .sequence ⟨0x1000⟩ ⟨0x1010⟩]
  let (_, s) ← handle 0 (.setBreakpoint "a.c" 1)
    (start (.ofProcess process) (.ofEntries "/" entries) none .null ⟨"/", []⟩)
  handle 9 .next s

/-- Whether an answer is that the process stopped on a line of the first file. -/
def isStopOn (pc : Addr) (line : UInt64) : Except DebugError Feedback → Bool
  | .ok (.stopped at_ location _) => at_ = pc ∧ location = some ⟨"a.c", line⟩
  | _ => false

/-- A stop on a line of the file says its address and its line. -/
theorem eq_of_isStopOn {r : Except DebugError Feedback} {pc : Addr} {line : UInt64}
    (h : isStopOn pc line r = true) :
    ∃ listing, r = .ok (.stopped pc (some ⟨"a.c", line⟩) listing) := by
  unfold isStopOn at h
  split at h
  · obtain ⟨rfl, rfl⟩ := of_decide_eq_true h
    exact ⟨_, rfl⟩
  · cases h

/-- A step to the next line may stop on the line on which it started, at a breakpoint of the
operator that did not trap. And with a breakpoint inside an instruction, the program comes to a
state to which it does not come by itself. -/
theorem nextLine_deviates :
    (∃ listing t, nextFromFirst Machine.nops ⟨0x1001⟩ ⟨0x1002⟩ =
        some (.ok (.stopped ⟨0x1001⟩ (some ⟨"a.c", 1⟩) listing), t) ∧
      ∀ e ∈ t.process.events, e.trap? = none) ∧
    ∃ listing t, nextFromFirst Machine.makingRoom ⟨0x1003⟩ ⟨0x1004⟩ =
        some (.ok (.stopped ⟨0x1004⟩ (some ⟨"a.c", 2⟩) listing), t) ∧
      (Tracee.registers t.process).toOption.map (·.get .rsp) = some 0x2034 ∧
      (Tracee.registers (Tracee.singleStep Machine.makingRoom).2).toOption.map (·.get .rsp) =
        some 0x1ff8 := by
  -- in the first run nothing has trapped, in the second one the armed byte was read as an offset
  constructor
  · have hrun : (nextFromFirst Machine.nops ⟨0x1001⟩ ⟨0x1002⟩).any (fun (r, t) =>
        isStopOn ⟨0x1001⟩ 1 r && t.process.events.all fun e => decide (e.trap? = none)) = true := by
      decide +kernel
    obtain ⟨⟨r, t⟩, h, hend⟩ := (Option.any_eq_true _ _).1 hrun
    obtain ⟨hr, hevents⟩ := Bool.and_eq_true_iff.1 hend
    obtain ⟨listing, rfl⟩ := eq_of_isStopOn hr
    exact ⟨listing, t, h, fun e he => of_decide_eq_true (List.all_eq_true.1 hevents e he)⟩
  · have hrun : (nextFromFirst Machine.makingRoom ⟨0x1003⟩ ⟨0x1004⟩).any (fun (r, t) =>
        isStopOn ⟨0x1004⟩ 2 r &&
        decide ((Tracee.registers t.process).toOption.map (·.get .rsp) = some 0x2034)) = true := by
      decide +kernel
    obtain ⟨⟨r, t⟩, h, hend⟩ := (Option.any_eq_true _ _).1 hrun
    obtain ⟨hr, hrsp⟩ := Bool.and_eq_true_iff.1 hend
    obtain ⟨listing, rfl⟩ := eq_of_isStopOn hr
    exact ⟨listing, t, h, of_decide_eq_true hrsp, by decide +kernel⟩

end Session

end SourceDebugger
