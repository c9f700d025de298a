import SourceDebugger.Proofs.Continue
import SourceDebugger.Proofs.CpuProcess

/-!
# A single step is an instruction of the program

What `stepInstruction` leaves behind is what the instruction at the program counter does to the same
process when there is no debugger, whether there is a breakpoint under the instruction or not, and
`continueExecution` goes on from the same state: `Session.stepInstruction_exact`.

Of a process it is only asked that a single step depends on the bytes of the instruction and on
those that it touches as data, `SingleSteps`. How the step ends is left open: it can be a trap, a
signal, the end of the process or a failure.

The instruction must have nothing to do with the breakpoints elsewhere, `Footprint.Clear`. If there
is a breakpoint under it, it must not write over its own first byte, and it must not be a trap of
one byte, `Footprint.Lifts`. None of these conditions can be left out:
`Session.not_stepInstruction_exact`.
-/

namespace SourceDebugger

variable {σ κ : Type} [Tracee σ]

/-- What the next instruction of a program has to do with memory. -/
structure Footprint (κ : Type) where
  /-- The number of bytes of the instruction. -/
  length : ProgramState κ → Nat
  /-- The bytes that it reads or writes as data. -/
  Touches : ProgramState κ → Addr → Prop

namespace Footprint

variable (f : Footprint κ)

/-- The instruction in `s` cannot tell from `t` in which of the two states it is. -/
structure Agree (s t : ProgramState κ) : Prop where
  registers : t.registers = s.registers
  rest : t.rest = s.rest
  /-- The bytes of the instruction are the same, and those that it touches. -/
  memory : ∀ a, a = s.pc ∨ s.pc.Inside (f.length s) a ∨ f.Touches s a → t.memory a = s.memory a

omit [Tracee σ] in
/-- A state agrees with itself. -/
theorem Agree.refl (s : ProgramState κ) : f.Agree s s := ⟨rfl, rfl, fun _ _ => rfl⟩

/-- The instruction has nothing to do with the breakpoints that are not under it. -/
structure Clear (table : BreakpointTable) (s : ProgramState κ) : Prop where
  /-- None of them lies in it behind its first byte. -/
  inside : ∀ a, table.isArmed a = true → ¬ s.pc.Inside (f.length s) a
  /-- It neither reads nor writes one as data. -/
  data : ∀ a, table.isArmed a = true → a ≠ s.pc → ¬ f.Touches s a

/-- The instruction can be executed from under a breakpoint, as the process `q` shows that executes
it by itself. -/
structure Lifts (s : ProgramState κ) (q : σ) : Prop where
  /-- It is no trap of one byte. -/
  trap : f.length s = 1 → (Tracee.singleStep q).1 ≠ .ok (.trap .breakpoint)
  /-- It does not write over its own first byte. -/
  byte : Tracee.isAlive (Tracee.singleStep q).2 = true →
    Tracee.memory (Tracee.singleStep q).2 s.pc = s.memory s.pc

end Footprint

open Tracee in
/-- Processes execute an instruction at a time, which depends on the bytes of its footprint and
changes no others. -/
structure SingleSteps (f : Footprint κ) (rest : σ → κ) : Prop extends Writes rest where
  /-- Where two processes agree on the footprint of an instruction, it ends in the same way and does
  the same. -/
  alike {p q p' q' : σ} {s t : ProgramState κ} {r r' : Except DebugError Stop} :
    Shows rest p s → Shows rest q t → f.Agree s t →
    singleStep p = (r, p') → singleStep q = (r', q') →
    r' = r ∧ isAlive q' = isAlive p' ∧ ∀ s' t', Shows rest p' s' → Shows rest q' t' →
      (Completion.running s').Alike (f.Touches s) t.memory (.running t')
  /-- A process that executed a trap stands behind it. -/
  behind_trap {p q : σ} {s t : ProgramState κ} : Shows rest p s → Shows rest q t →
    singleStep p = (.ok (.trap .breakpoint), q) →
    0 < f.length s ∧ t.pc = s.pc + UInt64.ofNat (f.length s)
  /-- A process that stopped and did not end is still there. -/
  alive_of_stop {p q : σ} {stop : Stop} : isAlive p = true → singleStep p = (.ok stop, q) →
    stop.isTerminal = false → isAlive q = true
  /-- Where something can be written stays the same. -/
  writable_step {p q : σ} {r : Except DebugError Stop} {a : Addr} :
    singleStep p = (r, q) → isAlive q = true → Writable p a → Writable q a

/-- A process with breakpoints is as the process `q` without them, or both are gone. -/
structure Alongside (rest : σ → κ) (d : Debuggee σ) (q : σ) : Prop where
  alive : Tracee.isAlive d.process = Tracee.isAlive q
  /-- Both are in one state of the program. -/
  poised : Tracee.isAlive q = true → ∃ u, Shows rest q u ∧ Poised rest d u

namespace Alongside

variable {rest : σ → κ} {d : Debuggee σ} {q : σ}

/-- The registers are the same. -/
theorem registers (h : Alongside rest d q) (hq : Tracee.isAlive q = true) :
    Tracee.registers d.process = Tracee.registers q := by
  obtain ⟨u, hu, hpoised⟩ := h.poised hq
  obtain ⟨x, hx, hpatched⟩ := hpoised.stands
  rw [hx.registers, hu.registers, hpatched.registers]

/-- So is the memory, once the traps are taken away. -/
theorem memory (h : Alongside rest d q) (hq : Tracee.isAlive q = true) :
    d.breakpoints.unpatched (Tracee.memory d.process) = Tracee.memory q := by
  obtain ⟨u, hu, hpoised⟩ := h.poised hq
  obtain ⟨x, hx, hpatched⟩ := hpoised.stands
  rw [hx.memory, hu.memory, hpatched.coherent.unpatched_eq]

end Alongside

/-! ### Processes on a processor -/

namespace Cpu

variable (cpu : Cpu κ)

/-- The footprint of an instruction of the processor. A trap has one byte and touches nothing. -/
def footprint : Footprint κ where
  length s := if s.AtTrap then 1 else cpu.length s
  Touches s a := ¬ s.AtTrap ∧ cpu.Touches s a

variable {cpu} {s t : ProgramState κ}

omit [Tracee σ] in
/-- In states that agree on the footprint, the processor does the same. -/
theorem step_of_agree (h : cpu.footprint.Agree s t) :
    (cpu.step t).1 = (cpu.step s).1 ∧ (cpu.step t).2.isSome = (cpu.step s).2.isSome ∧
      ∀ s' t', (cpu.step s).2 = some s' → (cpu.step t).2 = some t' →
        (Completion.running s').Alike (cpu.footprint.Touches s) t.memory (.running t') := by
  have hpc : t.pc = s.pc := congrArg Registers.pc h.registers
  have hiff : t.AtTrap ↔ s.AtTrap := by
    rw [ProgramState.AtTrap, ProgramState.AtTrap, hpc, h.memory s.pc (.inl rfl)]
  -- a trap is no instruction of its own to `execute`, so it is treated first
  by_cases htrap : s.AtTrap
  · rw [step_of_atTrap htrap, step_of_atTrap (hiff.2 htrap)]
    refine ⟨rfl, rfl, ?_⟩
    rintro _ _ ⟨⟩ ⟨⟩
    refine ⟨?_, h.rest, fun a ha => absurd htrap ha.1, fun _ _ => rfl⟩
    simp only [ProgramState.behindTrap, ProgramState.withPc, h.registers, hpc]
  have htrap' : ¬ t.AtTrap := fun ht => htrap (hiff.1 ht)
  have hlength : cpu.footprint.length s = cpu.length s := if_neg htrap
  -- an instruction depends on its footprint, and does to memory what it does there
  obtain ⟨-, -, hlocal⟩ := cpu.local_ s t h.registers h.rest fun a ha => by
    refine h.memory a (ha.imp_right (.imp (fun hin => ?_) fun htouch => ⟨htrap, htouch⟩))
    rwa [hlength]
  rcases hs : cpu.execute s with s' | code <;> rcases ht : cpu.execute t with t' | code' <;>
    rw [hs, ht] at hlocal
  · rw [step_of_running htrap hs, step_of_running htrap' ht]
    refine ⟨rfl, rfl, ?_⟩
    rintro _ _ ⟨⟩ ⟨⟩
    obtain ⟨hregisters, hrest, htouched, hkept⟩ := hlocal
    exact ⟨hregisters, hrest, fun a ha => htouched a ha.2,
      fun a ha => hkept a fun htouch => ha ⟨htrap, htouch⟩⟩
  · exact hlocal.elim
  · exact hlocal.elim
  · rw [step_of_exited htrap hs, step_of_exited htrap' ht, show code = code' from hlocal]
    refine ⟨rfl, rfl, ?_⟩
    rintro _ _ ⟨⟩

end Cpu

namespace ComesTo

variable {rest : σ → κ} {end_ : Option (ProgramState κ)} {p : σ}

/-- A process is alive if and only if its program has not ended. -/
theorem isAlive (h : ComesTo rest end_ p) : Tracee.isAlive p = end_.isSome := by
  rcases end_ with _ | s
  · exact h
  · exact Shows.alive h

/-- A process that shows a state came to that state. -/
theorem eq_some (h : ComesTo rest end_ p) {s : ProgramState κ} (hs : Shows rest p s) :
    end_ = some s := by
  rcases end_ with _ | t
  · cases h.isAlive.symm.trans hs.alive
  · exact congrArg some (Shows.unique h hs)

end ComesTo

/-- A process that executes its program on a processor executes an instruction at a time. -/
theorem Executes.singleSteps {cpu : Cpu κ} {rest : σ → κ} (host : Executes cpu rest) :
    SingleSteps cpu.footprint rest where
  toWrites := host.writes
  alike {p q p' q' s t r r'} hp hq hagree hstep hstep' := by
    obtain ⟨p₁, hp₁, hcomes⟩ := host.singleStep hp
    obtain ⟨q₁, hq₁, hcomes'⟩ := host.singleStep hq
    cases hstep.symm.trans hp₁
    cases hstep'.symm.trans hq₁
    obtain ⟨hstop, hends, hsame⟩ := Cpu.step_of_agree hagree
    refine ⟨congrArg Except.ok hstop, ?_, fun s' t' hs' ht' => ?_⟩
    · rw [hcomes'.isAlive, hcomes.isAlive, hends]
    · exact hsame s' t' (hcomes.eq_some hs') (hcomes'.eq_some ht')
  behind_trap {p q s t} hp hq hstep := by
    obtain ⟨q₁, hq₁, hcomes⟩ := host.singleStep hp
    obtain ⟨hstop, rfl⟩ := Prod.mk.inj (hstep.symm.trans hq₁)
    have hend := hcomes.eq_some hq
    -- the processor stops in this way at a trap, which has one byte
    rcases Cpu.step_cases cpu s with ⟨htrap, hs⟩ | ⟨_, -, -, hs⟩ | ⟨_, -, -, hs⟩ <;>
      rw [hs] at hstop hend <;> cases hstop
    cases hend
    rw [show cpu.footprint.length s = 1 from if_pos htrap]
    exact ⟨Nat.one_pos, ProgramState.pc_withPc _ _⟩
  alive_of_stop {p q stop} hp hstep hstop := by
    obtain ⟨s, hs⟩ := host.exists_shows hp
    obtain ⟨q₁, hq₁, hcomes⟩ := host.singleStep hs
    obtain ⟨hr, rfl⟩ := Prod.mk.inj (hstep.symm.trans hq₁)
    rw [hcomes.isAlive]
    -- without a state the program has ended
    rcases Cpu.step_cases cpu s with ⟨-, h⟩ | ⟨_, -, -, h⟩ | ⟨_, -, -, h⟩ <;> rw [h] at hr ⊢
    · rfl
    · rfl
    · cases hr
      cases hstop
  writable_step := host.writable_step

/-! ### One instruction under the debugger -/

namespace Poised

open BreakpointTable

variable {f : Footprint κ} {rest : σ → κ} {d : Debuggee σ} {u : ProgramState κ} {q : σ}
  (host : SingleSteps f rest)
include host

/-- A process executes the instruction that another one executes, if there is no breakpoint under
it. -/
theorem step_alongside (h : Poised rest d u) (hq : Shows rest q u)
    (hfree : d.breakpoints.isArmed u.pc = false) (hclear : f.Clear d.breakpoints u) :
    ∃ p, Tracee.singleStep d.process = ((Tracee.singleStep q).1, p) ∧
      Alongside rest { d with process := p } (Tracee.singleStep q).2 := by
  obtain ⟨x, hx, hpatched⟩ := h.stands
  have hne : ∀ a, d.breakpoints.isArmed a = true → a ≠ u.pc := by
    rintro a ha rfl
    cases hfree.symm.trans ha
  have huntouched : ∀ a, d.breakpoints.isArmed a = true → ¬ f.Touches u a :=
    fun a ha => hclear.data a ha (hne a ha)
  -- the traps lie outside the footprint, so the process cannot be told from the other one
  have hagree : f.Agree u x := by
    refine ⟨hpatched.registers, hpatched.rest, fun a ha => hpatched.coherent.elsewhere a ?_⟩
    rcases harmed : d.breakpoints.isArmed a
    · rfl
    · rcases ha with ha | ha | ha
      · exact absurd ha (hne a harmed)
      · exact absurd ha (hclear.inside a harmed)
      · exact absurd ha (huntouched a harmed)
  rcases hstep : Tracee.singleStep q with ⟨r, q'⟩
  rcases hstep' : Tracee.singleStep d.process with ⟨r', p⟩
  obtain ⟨rfl, halive, heffect⟩ := host.alike hq hx hagree hstep hstep'
  refine ⟨p, rfl, halive, fun hq' => ?_⟩
  obtain ⟨u', hu'⟩ := host.exists_shows hq'
  obtain ⟨x', hx'⟩ := host.exists_shows (halive.trans hq')
  obtain ⟨hregisters, hrest, htouched, hkept⟩ := heffect u' x' hu' hx'
  -- what the other one does not touch stays the same in it, as it is alike to itself
  obtain ⟨-, -, hown⟩ := host.alike hq hq (.refl f u) hstep hstep
  obtain ⟨-, -, -, hkept'⟩ := hown u' u' hu' hu'
  refine ⟨u', hu', ⟨x', hx', ?_⟩, fun a ha => ?_⟩
  · exact hpatched.of_untouched hregisters hrest htouched hkept hkept' huntouched
  · exact host.writable_step hstep' hx'.alive (h.writable a ha)

variable [LawfulTracee σ]

/-- The same from under a breakpoint. -/
theorem withDisarmed_alongside (h : Poised rest d u) (hq : Shows rest q u)
    (harmed : d.breakpoints.isArmed u.pc = true) (hclear : f.Clear d.breakpoints u)
    (hlifts : f.Lifts u q) :
    ∃ p, Debuggee.withDisarmed u.pc Tracee.singleStep d =
        ((Tracee.singleStep q).1, { d with process := p }) ∧
      Alongside rest { d with process := p } (Tracee.singleStep q).2 := by
  obtain ⟨b, hb⟩ := Option.isSome_iff_exists.1 harmed
  obtain ⟨lifted, hlift⟩ := h.writable u.pc harmed b.saved
  -- while the trap is lifted, the table without it describes the memory
  have hcleared := h.clear host.toWrites hb hlift
  have hfree : (d.breakpoints.without u.pc).isArmed u.pc = false := by
    rw [h.distinct.isArmed_without]
    simp
  have hothers : ∀ a, (d.breakpoints.without u.pc).isArmed a = true →
      d.breakpoints.isArmed a = true := by
    intro a ha
    rw [h.distinct.isArmed_without, Bool.and_eq_true] at ha
    exact ha.1
  obtain ⟨stepped, hstep, hbeside⟩ := hcleared.step_alongside host hq hfree
    ⟨fun a ha => hclear.inside a (hothers a ha), fun a ha => hclear.data a (hothers a ha)⟩
  rcases hown : Tracee.singleStep q with ⟨r, q'⟩
  have hbyte := hlifts.byte
  rw [hown] at hstep hbeside hbyte
  simp only [Debuggee.withDisarmed_apply, hb, hlift, show Tracee.singleStep lifted = _ from hstep]
  have hsame : Tracee.isAlive stepped = Tracee.isAlive q' := hbeside.alive
  rcases halive : Tracee.isAlive q' <;> rw [halive] at hsame
  -- if the process is gone, nothing is put back
  · simp only [hsame, Bool.false_eq_true, if_false]
    refine ⟨stepped, rfl, hsame.trans halive.symm, fun hq' => ?_⟩
    cases halive.symm.trans hq'
  · obtain ⟨u', hu', hpoised⟩ := hbeside.poised halive
    -- the trap can be put back, as something was written there before
    have hwritable : Tracee.Writable stepped u.pc :=
      host.writable_step hstep hsame (host.writable_of_write hlift)
    obtain ⟨p, hw⟩ := hwritable trapByte
    -- and the byte that is saved is still the one of the program
    have hsaved : u'.memory u.pc = some b.saved := by
      rw [← hu'.memory]
      exact (hbyte halive).trans (h.saved hb)
    have hback := hpoised.rearm host.toWrites h.distinct hb hsaved hw
    simp only [hsame, if_true, hw]
    refine ⟨p, ?_, hback.alive.trans halive.symm, fun _ => ⟨u', hu', hback⟩⟩
    cases r <;> rfl

end Poised

/-- One byte back from behind some bytes is at the last of them. -/
theorem Addr.eq_of_sub?_add_succ {a b : Addr} {n : Nat}
    (h : (a + UInt64.ofNat (n + 1)).sub? 1 = some b) : b = a + UInt64.ofNat n := by
  unfold sub? at h
  split at h
  · cases h
    refine Addr.ext_iff_val.2 ?_
    rw [UInt64.ofNat_add]
    simp only [val_add, val_sub]
    rw [← UInt64.add_assoc]
    simp
  · cases h

namespace Session

variable {f : Footprint κ} {rest : σ → κ} {s t : Session σ} {u : ProgramState κ} {q : σ}

/-- The program counter is read without changing the session. -/
theorem pc_apply (t : Session σ) : pc t = some (Tracee.pc t.process, t) := rfl

/-- A trap is answered from where the process stands, if it is not behind a breakpoint. -/
theorem rewindAfterTrap_stays {pc : Addr} (hpc : Tracee.pc t.process = .ok pc)
    (hfree : ∀ a, pc.sub? 1 = some a → t.breakpoints.isArmed a = false) :
    rewindAfterTrap t = some (.ok pc, t) := by
  rw [rewindAfterTrap_apply, hpc]
  dsimp only
  split
  · rfl
  · rename_i a ha
    rw [hfree a ha]
    rfl

/-- A stop is answered. The process stays as it is, unless it stands behind a breakpoint after a
trap. -/
theorem stopped_stays (host : Writes rest) {stop : Stop}
    (huser : t.breakpoints.user = t.breakpoints)
    (halive : stop.isTerminal = false → Tracee.isAlive t.process = true)
    (hbehind : stop = .trap .breakpoint → ∀ pc a, Tracee.pc t.process = .ok pc →
      pc.sub? 1 = some a → t.breakpoints.isArmed a = false) :
    ∃ feedback t', stopped stop t = some (.ok feedback, t') ∧ t'.debuggee = t.debuggee ∧
      (stop = .trap .singleStep → t' = t) := by
  have hread : stop.isTerminal = false → ∃ pc, Tracee.pc t.process = .ok pc := by
    intro hstop
    obtain ⟨x, hx⟩ := host.exists_shows (halive hstop)
    exact ⟨x.pc, hx.pc⟩
  have hdiscard : t.debuggee.discardInternal = t.debuggee := by
    show (⟨t.process, t.breakpoints.user⟩ : Debuggee σ) = _
    rw [huser]
    rfl
  rcases stop with kind | signal | code | signal
  · obtain ⟨pc, hpc⟩ := hread rfl
    have hstands : Session.pc t = some (.ok pc, t) := by rw [pc_apply, hpc]
    rcases kind with _ | _ | _
    · exact ⟨_, t, bind_of_ok (rewindAfterTrap_stays hpc (hbehind rfl pc · hpc)), rfl, nofun⟩
    · exact ⟨_, t, bind_of_ok hstands, rfl, fun _ => rfl⟩
    · exact ⟨_, t, bind_of_ok hstands, rfl, nofun⟩
  -- the signal is kept, and the process is not asked to take it yet
  · obtain ⟨pc, hpc⟩ := hread rfl
    have hstands : Session.pc { t with pendingSignal := some signal } =
        some (.ok pc, { t with pendingSignal := some signal }) := by
      rw [pc_apply]
      exact congrArg (fun r => some (r, _)) hpc
    refine ⟨.signalled pc signal, { t with pendingSignal := some signal }, ?_, rfl, nofun⟩
    exact bind_of_ok (f := fun pc => pure (Feedback.signalled pc signal)) hstands
  · exact ⟨_, { t with debuggee := t.debuggee.discardInternal }, rfl, hdiscard, nofun⟩
  · exact ⟨_, { t with debuggee := t.debuggee.discardInternal }, rfl, hdiscard, nofun⟩

/-- The instruction is executed once, from under a breakpoint or not. -/
theorem stepOnce_apply [LawfulTracee σ] (host : SingleSteps f rest)
    (h : Poised rest s.debuggee u) (hq : Shows rest q u) (hclear : f.Clear s.breakpoints u)
    (hlifts : s.breakpoints.isArmed u.pc = true → f.Lifts u q) :
    ∃ p, stepOnce s = some ((Tracee.singleStep q).1,
        { s with debuggee := { s.debuggee with process := p } }) ∧
      (s.breakpoints.isArmed u.pc = true → stepOverBreakpoint u.pc s = stepOnce s) ∧
      Alongside rest { s.debuggee with process := p } (Tracee.singleStep q).2 := by
  have hpc : pc s = some (.ok u.pc, s) := by
    rw [pc_apply]
    exact congrArg (fun r => some (r, s)) h.pc
  -- a step is a step over where a breakpoint is armed, and a plain one elsewhere
  have honce : stepOnce s = (if s.breakpoints.isArmed u.pc then stepOverBreakpoint u.pc
      else onProcess Tracee.singleStep) s := by
    rw [stepOnce, bind_of_ok hpc, bind_apply]
    rfl
  rcases harmed : s.breakpoints.isArmed u.pc
  · obtain ⟨p, hstep, hbeside⟩ := h.step_alongside host hq harmed hclear
    refine ⟨p, ?_, by simp, hbeside⟩
    rw [honce, harmed, if_neg (by simp), onProcess, onDebuggee_apply, Debuggee.onProcess_apply,
      hstep]
  · obtain ⟨p, hover, hbeside⟩ := h.withDisarmed_alongside host hq harmed hclear (hlifts harmed)
    rw [harmed, if_pos rfl] at honce
    refine ⟨p, ?_, fun _ => honce.symm, hbeside⟩
    rw [honce, stepOverBreakpoint, onDebuggee_apply, hover]

/-- After a step that ended by a trap, the process does not stand behind a breakpoint. -/
theorem not_armed_behind (host : SingleSteps f rest) {table : BreakpointTable} (hq : Shows rest q u)
    (hclear : f.Clear table u) (hlifts : table.isArmed u.pc = true → f.Lifts u q)
    (htrap : (Tracee.singleStep q).1 = .ok (.trap .breakpoint)) {v : ProgramState κ}
    (hv : Shows rest (Tracee.singleStep q).2 v) {a : Addr} (ha : v.pc.sub? 1 = some a) :
    table.isArmed a = false := by
  obtain ⟨hpos, hpc⟩ := host.behind_trap hq hv (Prod.ext htrap rfl)
  obtain ⟨n, hn⟩ : ∃ n, f.length u = n + 1 := ⟨f.length u - 1, by omega⟩
  rcases harmed : table.isArmed a
  · rfl
  have hback : a = u.pc + UInt64.ofNat n := by
    rw [hpc, hn] at ha
    exact Addr.eq_of_sub?_add_succ ha
  -- it is one byte back from there to the instruction, and to its first byte if it has only one
  rcases Nat.eq_zero_or_pos n with rfl | hlong
  · obtain rfl : a = u.pc := hback.trans (Addr.ext_iff_val.2 (by simp))
    exact absurd htrap ((hlifts harmed).trap hn)
  · exact absurd ⟨n, hlong, by omega, hback⟩ (hclear.inside a harmed)

/-- The stop of a step is answered, and the process stays where the step left it. -/
theorem stopped_alongside (host : SingleSteps f rest) {stop : Stop} (hq : Shows rest q u)
    (hclear : f.Clear t.breakpoints u) (hlifts : t.breakpoints.isArmed u.pc = true → f.Lifts u q)
    (huser : t.breakpoints.user = t.breakpoints)
    (h : Alongside rest t.debuggee (Tracee.singleStep q).2)
    (hstop : (Tracee.singleStep q).1 = .ok stop) :
    ∃ feedback t', stopped stop t = some (.ok feedback, t') ∧ t'.debuggee = t.debuggee ∧
      (stop = .trap .singleStep → t' = t) := by
  have halive : stop.isTerminal = false → Tracee.isAlive (Tracee.singleStep q).2 = true :=
    host.alive_of_stop hq.alive (Prod.ext hstop rfl)
  refine stopped_stays host.toWrites huser (fun hnot => h.alive.trans (halive hnot)) ?_
  -- behind a trap the process would be moved back only onto a breakpoint
  rintro rfl pc a hpc ha
  obtain ⟨v, hv, hpoised⟩ := h.poised (halive rfl)
  obtain rfl : v.pc = pc := Except.ok.inj (hpoised.pc.symm.trans hpc)
  exact not_armed_behind host hq hclear hlifts hstop hv ha

/-- To execute one instruction is to execute the one of the program, and to continue from a
breakpoint is to execute it too and to go on from there. Here `q` is a process without a debugger,
and `u` is the state in which both are. -/
theorem stepInstruction_exact [LawfulTracee σ] (host : SingleSteps f rest) (s : Session σ) (q : σ)
    (u : ProgramState κ) (hq : Shows rest q u) (h : Poised rest s.debuggee u)
    (hclear : f.Clear s.breakpoints.user u)
    (hlifts : s.breakpoints.user.isArmed u.pc = true → f.Lifts u q) :
    ∃ r t, stepInstruction s = some (r, t) ∧ t.breakpoints = s.breakpoints.user ∧
      Alongside rest t.debuggee (Tracee.singleStep q).2 ∧
      (Tracee.isAlive (Tracee.singleStep q).2 = true →
        Tracee.registers t.process = Tracee.registers (Tracee.singleStep q).2 ∧
        t.breakpoints.unpatched (Tracee.memory t.process) =
          Tracee.memory (Tracee.singleStep q).2) ∧
      (r.map fun _ => ()) = ((Tracee.singleStep q).1.map fun _ => ()) ∧
      (s.breakpoints.user.isArmed u.pc = true →
        ((Tracee.singleStep q).1 = .ok (.trap .singleStep) →
          continueExecution s = (resumeProcess >>= stopped) t) ∧
        ((Tracee.singleStep q).1 ≠ .ok (.trap .singleStep) →
          continueExecution s = some (r, t))) := by
  obtain ⟨q₀, hcleared, hstart⟩ := cleared_apply host.toWrites h
  have hcontinue := continueExecution_apply hcleared hstart
  obtain ⟨p, honce, hover, hbeside⟩ := stepOnce_apply host hcleared hq hclear hlifts
  have hstepped : stepOnce (s.cleared q₀) = some ((Tracee.singleStep q).1, s.cleared p) := honce
  have hbeside : Alongside rest (s.cleared p).debuggee (Tracee.singleStep q).2 := hbeside
  have hlook := fun hq' : Tracee.isAlive (Tracee.singleStep q).2 = true =>
    And.intro (hbeside.registers hq') (hbeside.memory hq')
  have hstep : stepInstruction s = (stepOnce >>= stopped) (s.cleared q₀) := hstart _
  rcases hr : (Tracee.singleStep q).1 with e | stop
  -- a step that failed is answered by both commands with the same error
  · rw [hr] at hstepped
    refine ⟨.error e, s.cleared p, ?_, rfl, hbeside, hlook, rfl, fun harmed => ⟨nofun, fun _ => ?_⟩⟩
    · rw [hstep, bind_apply, hstepped]
    · rw [hcontinue, if_pos harmed, bind_apply, hover harmed, hstepped]
  rw [hr] at hstepped
  obtain ⟨feedback, t, hstopped, hsame, hsingle⟩ := stopped_alongside host (t := s.cleared p) hq
    hclear hlifts (BreakpointTable.user_user _) hbeside hr
  have hbreakpoints : t.breakpoints = s.breakpoints.user := congrArg Debuggee.breakpoints hsame
  have hprocess : t.process = (s.cleared p).process := congrArg Debuggee.process hsame
  refine ⟨.ok feedback, t, ?_, hbreakpoints, hsame ▸ hbeside, ?_, rfl, fun harmed => ?_⟩
  · rw [hstep, bind_of_ok hstepped, hstopped]
  · rw [hprocess, hbreakpoints]
    exact hlook
  -- to continue is to step over the breakpoint first
  · have hfirst : stepOverBreakpoint u.pc (s.cleared q₀) = some (.ok stop, s.cleared p) :=
      (hover harmed).trans hstepped
    rw [hcontinue, if_pos harmed, bind_of_ok hfirst]
    refine ⟨fun hstop => ?_, fun hstop => ?_⟩
    · cases hstop
      rw [if_neg (by simp), hsingle rfl]
    · rw [if_pos fun heq => hstop (congrArg Except.ok heq), hstopped]

end Session

/-! ### A breakpoint and one instruction -/

/-- An instruction does not start behind its first byte. -/
theorem Addr.not_inside_self {a : Addr} {n : Nat} (h : n ≤ UInt64.size) : ¬ a.Inside n a := by
  rintro ⟨i, hpos, hlt, heq⟩
  have hzero : UInt64.ofNat i = 0 := by
    have hval : a.val = a.val + UInt64.ofNat i := congrArg Addr.val heq
    simpa using hval
  have hnat := congrArg UInt64.toNat hzero
  rw [UInt64.toNat_ofNat_of_lt' (Nat.lt_of_lt_of_le hlt h)] at hnat
  exact absurd hnat (Nat.ne_of_gt hpos)

namespace CpuProcess

variable {cpu : Cpu κ} [cpu.Terminating]

/-- A session in which one breakpoint was set. -/
def breaking (p : CpuProcess cpu) (b : Breakpoint) (h : p.state.memory b.addr = some b.saved) :
    Session (CpuProcess cpu) :=
  { Session.start p (.empty "/") none .null ⟨"/", []⟩ with
    debuggee := ⟨p.store b.addr trapByte (by rw [h]; simp), [b]⟩ }

variable {p : CpuProcess cpu} {b : Breakpoint} {h : p.state.memory b.addr = some b.saved}

/-- The process with a breakpoint is poised at the state of its program. -/
theorem poised_breaking (hp : p.alive = true) :
    Poised (·.state.rest) (p.breaking b h).debuggee p.state := by
  have hstart : Poised (·.state.rest) (.ofProcess p) p.state :=
    ⟨⟨_, shows hp, rfl, rfl, .nil _⟩, nofun⟩
  have hbyte : p.state.memory b.addr ≠ none := by
    rw [h]
    simp
  refine hstart.arm executes.writes b rfl ?_ (dif_pos ⟨hp, hbyte⟩)
  exact (congrFun (memory_eq hp) _).trans h

omit [cpu.Terminating] in
/-- There is no other breakpoint of the operator. -/
theorem eq_of_isArmed_breaking {a : Addr}
    (ha : (p.breaking b h).breakpoints.user.isArmed a = true) : a = b.addr := by
  obtain ⟨c, hc, rfl⟩ := BreakpointTable.isArmed_iff.1 ha
  rw [List.mem_singleton.1 (List.mem_filter.1 hc).1]

omit [cpu.Terminating] in
/-- The instruction under the only breakpoint has nothing to do with others. -/
theorem clear_breaking {f : Footprint κ} (hpc : p.state.pc = b.addr)
    (hlength : f.length p.state ≤ UInt64.size) :
    f.Clear (p.breaking b h).breakpoints.user p.state := by
  refine ⟨fun a ha => ?_, fun a ha hne => ?_⟩
  · rw [eq_of_isArmed_breaking ha, hpc]
    exact Addr.not_inside_self hlength
  · exact absurd ((eq_of_isArmed_breaking ha).trans hpc.symm) hne

end CpuProcess

namespace CallCpu

open Session

/-- A call of a function, the end of the program, the function, which returns, and a trap. -/
def trappingMemory : AddressSpace := fun a =>
  [0xe8, 2, 0, 0, 0, 0x90, 0xf4, 0x90, 0x90, 0xc3, 0xcc][(a.val - 0x1000).toNat]?.or
    (if (a.val - 0x2000).toNat < 16 then some 0 else none)

/-- The program at one of its instructions. -/
def trapping (pc : Addr) (sp : UInt64) : CpuProcess cpu where
  state := ⟨(Registers.zero.setPc pc).set .rsp sp, trappingMemory, 99⟩
  alive := true
  memory_last := show trappingMemory Addr.last = none by decide

/-- There is a breakpoint on the call. -/
def breakingCall (sp : UInt64) : Session (CpuProcess cpu) :=
  (trapping ⟨0x1000⟩ sp).breaking ⟨⟨0x1000⟩, 0xe8, "a.c", 1, .user⟩ rfl

/-- Instructions of this processor have at most five bytes. -/
theorem length_le (s : ProgramState Nat) : cpu.footprint.length s ≤ 5 := by
  show (if s.AtTrap then 1 else if s.memory s.pc = some 0xe8 then 5 else 1) ≤ 5
  split
  · decide
  · split <;> decide

/-- So no instruction goes round the address space. -/
theorem length_le_size (s : ProgramState Nat) : cpu.footprint.length s ≤ UInt64.size :=
  Nat.le_trans (length_le s) (by decide)

/-- The call does not write to the breakpoint, wherever the stack is. -/
theorem clear_breakingCall (sp : UInt64) :
    cpu.footprint.Clear (breakingCall sp).breakpoints.user (trapping ⟨0x1000⟩ sp).state :=
  CpuProcess.clear_breaking rfl (length_le_size _)

/-- A call is executed from under a breakpoint. -/
theorem stepInstruction_exact_call :
    ∃ r t, stepInstruction (breakingCall 0x2010) = some (r, t) ∧
      Tracee.pc t.process = .ok ⟨0x1007⟩ ∧
      t.breakpoints.unpatched (Tracee.memory t.process) ⟨0x1000⟩ = some 0xe8 ∧
      continueExecution (breakingCall 0x2010) = (resumeProcess >>= stopped) t := by
  obtain ⟨r, t, hstep, -, -, hlook, -, hcontinue⟩ := stepInstruction_exact
    CpuProcess.executes.singleSteps (breakingCall 0x2010) (trapping ⟨0x1000⟩ 0x2010) _
    (CpuProcess.shows rfl) (CpuProcess.poised_breaking rfl) (clear_breakingCall _)
    fun _ => ⟨nofun, fun _ => by decide +kernel⟩
  obtain ⟨hregisters, hmemory⟩ := hlook rfl
  refine ⟨r, t, hstep, ?_, ?_, (hcontinue rfl).1 rfl⟩
  · rw [Tracee.pc, hregisters]
    rfl
  · rw [hmemory]
    decide +kernel

end CallCpu

/-- One instruction under the debugger is not what it is when the process `q` executes it by
itself. -/
def Session.Deviates (s : Session σ) (q : σ) : Prop :=
  Tracee.isAlive (Tracee.singleStep q).2 = true ∧ ∃ r t, stepInstruction s = some (r, t) ∧
    ¬ (Tracee.registers t.process = Tracee.registers (Tracee.singleStep q).2 ∧
      t.breakpoints.unpatched (Tracee.memory t.process) = Tracee.memory (Tracee.singleStep q).2)

/-- The program counter or a byte tells. -/
theorem Session.deviates_of_any {s : Session σ} {q : σ} (a : Addr)
    (hq : Tracee.isAlive (Tracee.singleStep q).2 = true)
    (h : (stepInstruction s).any (fun (_, t) => decide (
      (Tracee.pc t.process).toOption ≠ (Tracee.pc (Tracee.singleStep q).2).toOption ∨
      t.breakpoints.unpatched (Tracee.memory t.process) a ≠
        Tracee.memory (Tracee.singleStep q).2 a)) = true) : s.Deviates q := by
  obtain ⟨⟨r, t⟩, hstep, hend⟩ := (Option.any_eq_true _ _).1 h
  refine ⟨hq, r, t, hstep, fun ⟨hregisters, hmemory⟩ => ?_⟩
  rcases of_decide_eq_true hend with hpc | hbyte
  · apply hpc
    rw [Tracee.pc, hregisters]
    rfl
  · exact hbyte (congrFun hmemory a)

open CallCpu in
/-- A process under the debugger does not always do what it does by itself: not if an instruction
reads or writes a breakpoint that is elsewhere, nor if one from under a breakpoint writes over
itself or is a trap. -/
theorem Session.not_stepInstruction_exact :
    (∃ (s : Session (CpuProcess cpu)) (q : CpuProcess cpu) (u : ProgramState Nat),
      Shows (·.state.rest) q u ∧ Poised (·.state.rest) s.debuggee u ∧
      (∀ a, s.breakpoints.user.isArmed a = true → ¬ u.pc.Inside (cpu.footprint.length u) a) ∧
      s.breakpoints.user.isArmed u.pc = false ∧
      (∀ a, s.breakpoints.user.isArmed a = true →
        Tracee.memory (Tracee.singleStep q).2 a = u.memory a) ∧ s.Deviates q) ∧
    (∃ (s : Session (CpuProcess cpu)) (q : CpuProcess cpu) (u : ProgramState Nat),
      Shows (·.state.rest) q u ∧ Poised (·.state.rest) s.debuggee u ∧
      (∀ a, s.breakpoints.user.isArmed a = true → ¬ u.pc.Inside (cpu.footprint.length u) a) ∧
      s.breakpoints.user.isArmed u.pc = false ∧
      (∀ a, s.breakpoints.user.isArmed a = true →
        Tracee.memory (Tracee.singleStep q).2 a ≠ u.memory a) ∧ s.Deviates q) ∧
    (∃ (s : Session (CpuProcess cpu)) (q : CpuProcess cpu) (u : ProgramState Nat),
      Shows (·.state.rest) q u ∧ Poised (·.state.rest) s.debuggee u ∧
      cpu.footprint.Clear s.breakpoints.user u ∧
      (Tracee.singleStep q).1 = .ok (.trap .singleStep) ∧ s.Deviates q) ∧
    ∃ (s : Session (CpuProcess cpu)) (q : CpuProcess cpu) (u : ProgramState Nat),
      Shows (·.state.rest) q u ∧ Poised (·.state.rest) s.debuggee u ∧
      cpu.footprint.Clear s.breakpoints.user u ∧
      (∀ a, ¬ cpu.footprint.Touches u a) ∧ s.Deviates q := by
  refine ⟨?_, ?_, ?_, ?_⟩
  -- a return to an address with a trap among its bytes
  · refine ⟨(trapping ⟨0x1009⟩ 0x1000).breaking ⟨⟨0x1000⟩, 0xe8, "a.c", 1, .user⟩ rfl,
      trapping ⟨0x1009⟩ 0x1000, _, CpuProcess.shows rfl, CpuProcess.poised_breaking rfl,
      fun a ha => ?_, rfl, fun a ha => ?_, deviates_of_any ⟨0x1000⟩ rfl (by decide +kernel)⟩ <;>
      obtain rfl := CpuProcess.eq_of_isArmed_breaking ha
    · rintro ⟨i, hpos, hlt, -⟩
      exact absurd hlt (Nat.not_lt.2 hpos)
    · rfl
  -- a call that leaves the return address over a trap
  · refine ⟨(trapping ⟨0x1000⟩ 0x1010).breaking ⟨⟨0x100a⟩, 0xcc, "a.c", 1, .user⟩ rfl,
      trapping ⟨0x1000⟩ 0x1010, _, CpuProcess.shows rfl, CpuProcess.poised_breaking rfl,
      fun a ha => ?_, rfl, fun a ha => ?_, deviates_of_any ⟨0x100a⟩ rfl (by decide +kernel)⟩ <;>
      obtain rfl := CpuProcess.eq_of_isArmed_breaking ha
    · rintro ⟨i, -, hlt, hinside⟩
      have hbehind : ∀ i < 5, (⟨0x100a⟩ : Addr) ≠ (⟨0x1000⟩ : Addr) + UInt64.ofNat i := by decide
      exact hbehind i (Nat.lt_of_lt_of_le hlt (length_le _)) hinside
    · decide +kernel
  -- a call that leaves the return address over itself
  · exact ⟨breakingCall 0x1008, trapping ⟨0x1000⟩ 0x1008, _, CpuProcess.shows rfl,
      CpuProcess.poised_breaking rfl, clear_breakingCall _, rfl,
      deviates_of_any ⟨0x1000⟩ rfl (by decide +kernel)⟩
  -- a breakpoint on a trap, onto which the process is moved back every time
  · exact ⟨(trapping ⟨0x100a⟩ 0x2010).breaking ⟨⟨0x100a⟩, 0xcc, "a.c", 1, .user⟩ rfl,
      trapping ⟨0x100a⟩ 0x2010, _, CpuProcess.shows rfl, CpuProcess.poised_breaking rfl,
      CpuProcess.clear_breaking rfl (length_le_size _), fun a ha => ha.1 rfl,
      deviates_of_any ⟨0x1000⟩ rfl (by decide +kernel)⟩

end SourceDebugger
