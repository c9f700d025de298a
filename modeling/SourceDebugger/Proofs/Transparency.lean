import SourceDebugger.Proofs.Coherence
import SourceDebugger.Proofs.NopProcess
import SourceDebugger.Proofs.Poised

/-!
# The debugger is transparent to the program

Seen through its breakpoints, a process under the debugger is always in a state of the program's own
run: `Session.transparent`. No command skips an instruction, repeats one, or takes the process to a
state that the program by itself would not come to.

The invariant, `Follows`, is stated for any set of program states that is closed under steps. Taken
for all states that the program comes to from its start, it says where the process is; taken for
those that it comes to from where a command starts, it says that the command does not go back.
-/

namespace SourceDebugger

variable {σ κ : Type} [Tracee σ]

/-! ### What is asked of the program -/

open Recorded in
/-- The program had nothing to do with the traps of the debugger: no instruction that it executed
read one or wrote over one, or had one inside; nor did an instruction from which a trap was lifted
to execute it write over its first byte. -/
structure Undisturbed (cpu : Cpu κ) (rest : σ → κ) (events : List (Event σ)) : Prop where
  /-- Single steps. -/
  step : ∀ e earlier r, e :: earlier <:+ events → e.deed = .step r →
    ∀ s, Shows rest e.before s → ∀ a, armed earlier a = true → ¬ cpu.Disturbs s a
  /-- Single steps from under a trap, which is put back right afterwards. -/
  lifted : ∀ back e lift earlier a x y r r', back :: e :: lift :: earlier <:+ events →
    lift.deed = .write a [x] (.ok ()) → e.deed = .step r → back.deed = .write a [y] r' →
    ∀ s, Shows rest e.before s → s.pc = a → ¬ cpu.Disturbs s a
  /-- Whatever was executed on the way to a stop. -/
  resume : ∀ e earlier signal r, e :: earlier <:+ events → e.deed = .resume signal r →
    ∀ s, Shows rest e.before s → ∀ t, cpu.Passes s t → ∀ a, armed earlier a = true →
    ¬ cpu.Disturbs t a

theorem Undisturbed.of_suffix {cpu : Cpu κ} {rest : σ → κ} {events earlier : List (Event σ)}
    (h : Undisturbed cpu rest events) (hsuffix : earlier <:+ events) :
    Undisturbed cpu rest earlier where
  step e earlier r he := h.step e earlier r (he.trans hsuffix)
  lifted back e lift earlier a x y r r' he :=
    h.lifted back e lift earlier a x y r r' (he.trans hsuffix)
  resume e earlier signal r he := h.resume e earlier signal r (he.trans hsuffix)

/-- A program that was not let go yet had nothing to do with anything. -/
theorem Undisturbed.nil {cpu : Cpu κ} {rest : σ → κ} : Undisturbed cpu rest [] where
  step _ _ _ h := by cases List.suffix_nil.1 h
  lifted _ _ _ _ _ _ _ _ _ h := by cases List.suffix_nil.1 h
  resume _ _ _ _ h := by cases List.suffix_nil.1 h

/-! ### The invariant -/

open BreakpointTable Recorded

/-- A process with breakpoints in its memory, in a program state of which `P` holds. -/
structure Follows (rest : σ → κ) (P : ProgramState κ → Prop) (d : Debuggee (Recorded σ)) :
    Prop where
  /-- The table has an entry for each trap. -/
  tracks : Tracks d.breakpoints d.process.events
  /-- The program is in a state of which `P` holds. -/
  poised : ∃ u, Poised rest d.plain u ∧ P u

theorem Follows.mono {rest : σ → κ} {P Q : ProgramState κ → Prop} {d : Debuggee (Recorded σ)}
    (h : Follows rest P d) (weaker : ∀ u, P u → Q u) : Follows rest Q d where
  tracks := h.tracks
  poised := by
    obtain ⟨u, hpoised, hu⟩ := h.poised
    exact ⟨u, hpoised, weaker u hu⟩

/-- How a process that was let go is then: it executed an instruction or a trap, or it could not be
let go. After a trap it is known where it will be once it is moved back. -/
def FollowsAfter (rest : σ → κ) (P : ProgramState κ → Prop) (r : Except DebugError Stop)
    (d : Debuggee (Recorded σ)) : Prop :=
  (r = .ok (.trap .singleStep) ∧ Follows rest P d) ∨
  (r = .ok (.trap .breakpoint) ∧ Follows rest (fun u => P (u.rewound d.breakpoints)) d)

/-- The same where there is a breakpoint under the instruction. The process is in the run of the
program then whether it is moved back or not. -/
def FollowsOver (rest : σ → κ) (P : ProgramState κ → Prop) (r : Except DebugError Stop)
    (d : Debuggee (Recorded σ)) : Prop :=
  (r = .ok (.trap .singleStep) ∧ Follows rest P d) ∨
  (r = .ok (.trap .breakpoint) ∧ Follows rest (fun u => P u ∧ P (u.rewound d.breakpoints)) d)

namespace FollowsOver

variable {rest : σ → κ} {P : ProgramState κ → Prop} {r : Except DebugError Stop}
  {d : Debuggee (Recorded σ)}

theorem after (h : FollowsOver rest P r d) : FollowsAfter rest P r d :=
  h.imp_right fun ⟨hr, hf⟩ => ⟨hr, hf.mono fun _ hu => hu.2⟩

theorem follows (h : FollowsOver rest P r d) : Follows rest P d :=
  h.elim (fun ⟨_, hf⟩ => hf) fun ⟨_, hf⟩ => hf.mono fun _ hu => hu.1

end FollowsOver

namespace Follows

variable {cpu : Cpu κ} {rest : σ → κ} (host : Executes cpu rest)
  {P : ProgramState κ → Prop} {d : Debuggee (Recorded σ)} {q : σ}
  (closed : ∀ s t, P s → (cpu.step s).2 = some t → P t)
include host closed

/-- A single step of a process where there is no breakpoint. -/
theorem step (h : Follows rest P d) {pc : Addr} (hpc : Tracee.pc d.process.process = .ok pc)
    (hfree : d.breakpoints.isArmed pc = false) {r : Except DebugError Stop}
    (hstep : Tracee.singleStep d.process.process = (r, q)) (halive : Tracee.isAlive q = true)
    (hclear : ∀ x, Shows rest d.process.process x → ∀ a, armed d.process.events a = true →
      ¬ cpu.Disturbs x a) :
    FollowsAfter rest P r { d with process := d.process.next (.step r) q } := by
  obtain ⟨u, hpoised, hu⟩ := h.poised
  obtain rfl : u.pc = pc := Except.ok.inj (hpoised.pc.symm.trans hpc)
  have hclear' : ∀ x, Shows rest d.process.process x → ∀ a, d.breakpoints.isArmed a = true →
      ¬ cpu.Disturbs x a := fun x hx a ha => hclear x hx a (h.tracks a ▸ ha)
  obtain ⟨q', hq', hafter⟩ := hpoised.step host hfree fun a ha =>
    hpoised.undisturbed hfree hclear' fun x hx _ => hclear' x hx a ha
  cases (hstep.symm.trans hq' : (r, q) = _)
  rcases Cpu.step_cases cpu u with ⟨-, hs⟩ | ⟨u', -, -, hs⟩ | ⟨code, -, -, hs⟩ <;>
    rw [hs] at hafter ⊢
  -- a trap of the program, an instruction, and the end, at which the process is gone
  · exact .inr ⟨rfl, h.tracks.release rfl, _, hafter, Patched.rewound_of_step closed hfree hs hu⟩
  · exact .inl ⟨rfl, h.tracks.release rfl, u', hafter, closed u u' hu (by rw [hs])⟩
  · exact absurd (hafter.symm.trans halive) (by simp)

/-- A process is let go until it stops. -/
theorem resume (h : Follows rest P d) {r : Except DebugError Stop}
    (hresume : Tracee.resume none d.process.process = some (r, q))
    (halive : Tracee.isAlive q = true)
    (hclear : ∀ x, Shows rest d.process.process x → ∀ y, cpu.Passes x y → ∀ a,
      armed d.process.events a = true → ¬ cpu.Disturbs y a) :
    FollowsAfter rest P r { d with process := d.process.next (.resume none r) q } := by
  obtain ⟨u, hpoised, hu⟩ := h.poised
  obtain ⟨x, hx, hpatched⟩ := hpoised.stands
  obtain ⟨stop, end_, hrun, rfl, hcomes⟩ := host.resume hx hresume
  have hlast : ∀ y, end_ = some y → y.memory Addr.last = none := by
    rintro y rfl
    rw [← hcomes.memory]
    exact host.last halive
  -- it stops at a trap of either kind, or it ends
  rcases hpatched.runsTo closed hrun hu
    (fun y hy a ha => hclear x hx y hy a (h.tracks a ▸ ha)) hlast with
    ⟨x', u', rfl, rfl, h', hu'⟩ | rfl
  · refine .inr ⟨rfl, h.tracks.release rfl, u', ⟨⟨x', hcomes, h'⟩, fun a ha => ?_⟩, hu'⟩
    exact host.writable_resume hresume halive (hpoised.writable a ha)
  · exact absurd (hcomes.symm.trans halive) (by simp)

/-- A single step from under a breakpoint: the trap is lifted and put back. If the program has a
trap of its own there, the process stands behind it, and is moved back to where it was. -/
theorem stepOver [LawfulTracee σ] (h : Follows rest P d) {addr : Addr} {b : Breakpoint}
    (hb : d.breakpoints.locate? addr = some b) (hpc : Tracee.pc d.process.process = .ok addr)
    {lifted stepped : σ} {r : Except DebugError Stop} {r' : Except DebugError Unit}
    (hlift : Tracee.writeMemory addr [b.saved] d.process.process = (.ok (), lifted))
    (hstep : Tracee.singleStep lifted = (r, stepped))
    (hstepped : Tracee.isAlive stepped = true)
    (hback : Tracee.writeMemory addr [trapByte] stepped = (r', q))
    (hclear : ∀ x, Shows rest lifted x → ∀ a,
      armed (d.process.next (.write addr [b.saved] (.ok ())) lifted).events a = true →
      ¬ cpu.Disturbs x a)
    (hown : ∀ x, Shows rest lifted x → x.pc = addr → ¬ cpu.Disturbs x addr) :
    r' = .ok () ∧ FollowsOver rest P r
      ⟨((d.process.next (.write addr [b.saved] (.ok ())) lifted).next (.step r) stepped).next
        (.write addr [trapByte] r') q, d.breakpoints⟩ := by
  obtain ⟨u, hpoised, hu⟩ := h.poised
  obtain rfl : u.pc = addr := Except.ok.inj (hpoised.pc.symm.trans hpc)
  have hdistinct : d.breakpoints.Distinct := hpoised.distinct
  have harmed := isArmed_of_locate? hb
  have htracks := h.tracks.clear hdistinct harmed (q := lifted) [b.saved]
  have hcleared := hpoised.clear host.writes hb hlift
  have hfree : (d.breakpoints.without u.pc).isArmed u.pc = false := by
    rw [hdistinct.isArmed_without]
    simp
  have hothers : ∀ x, Shows rest lifted x → ∀ a, (d.breakpoints.without u.pc).isArmed a = true →
      ¬ cpu.Disturbs x a := fun x hx a ha => hclear x hx a (htracks a ▸ ha)
  -- the lifted trap counts among those with which the program has nothing to do
  have hundisturbed : ∀ a, d.breakpoints.isArmed a = true → ¬ cpu.Disturbs u a := by
    intro a ha
    refine hcleared.undisturbed hfree hothers fun x hx hpc => ?_
    by_cases haddr : a = u.pc
    · rw [haddr]
      exact hown x hx hpc
    · refine hothers x hx a ?_
      rw [hdistinct.isArmed_without, ha]
      simpa using haddr
  obtain ⟨stepped', hstep', hafter⟩ := hpoised.stepOver host hb hlift hundisturbed
  cases hstep.symm.trans hstep'
  rcases Cpu.step_cases cpu u with ⟨-, hs⟩ | ⟨u', -, -, hs⟩ | ⟨code, -, -, hs⟩ <;>
    rw [hs] at hafter ⊢
  -- a trap of the program is under the breakpoint, and moving back leads to it again
  · obtain ⟨-, q', hw, hback'⟩ := hafter
    cases hback.symm.trans hw
    refine ⟨rfl, .inr ⟨rfl, (htracks.release rfl).rearm hdistinct harmed _, _, hback',
      closed u _ hu (by rw [hs]), ?_⟩⟩
    rwa [ProgramState.rewound_of_isArmed harmed (hpoised.pc_ne_last host harmed)]
  · obtain ⟨-, q', hw, hback'⟩ := hafter
    cases hback.symm.trans hw
    exact ⟨rfl, .inl ⟨rfl, (htracks.release rfl).rearm hdistinct harmed _, u', hback',
      closed u u' hu (by rw [hs])⟩⟩
  · exact absurd (hafter.symm.trans hstepped) (by simp)

end Follows

/-- As long as the process is alive and the program had nothing to do with the traps, the debuggee
is in a state of which `P` holds; and so does `Y`. -/
def Claimed (cpu : Cpu κ) (rest : σ → κ) (Y : Prop) (P : ProgramState κ → Prop)
    (d : Debuggee (Recorded σ)) : Prop :=
  Undisturbed cpu rest d.process.events → Tracee.isAlive d.process = true → Y ∧ Follows rest P d

/-- The same after the process was let go. -/
def ClaimedAfter (cpu : Cpu κ) (rest : σ → κ) (Y : Prop) (P : ProgramState κ → Prop)
    (r : Except DebugError Stop) (d : Debuggee (Recorded σ)) : Prop :=
  Undisturbed cpu rest d.process.events → Tracee.isAlive d.process = true →
    Y ∧ (FollowsAfter rest P r d ∨ ∃ e, r = .error e ∧ Follows rest P d)

namespace Claimed

variable {cpu : Cpu κ} {rest : σ → κ} {Y : Prop} {P Q : ProgramState κ → Prop}
  {d : Debuggee (Recorded σ)}

/-- After one more event, what was claimed before it may be used. -/
theorem next {table : BreakpointTable} (h : Claimed cpu rest Y P d) (deed : Deed) (q : σ)
    (halive : Tracee.isAlive q = true → Tracee.isAlive d.process.process = true)
    (step : Undisturbed cpu rest (d.process.next deed q).events → Tracee.isAlive q = true →
      Follows rest P d → Follows rest Q ⟨d.process.next deed q, table⟩) :
    Claimed cpu rest Y Q ⟨d.process.next deed q, table⟩ := by
  intro hundisturbed hq
  obtain ⟨hY, hfollows⟩ := h (hundisturbed.of_suffix (List.suffix_cons _ _)) (halive hq)
  exact ⟨hY, step hundisturbed hq hfollows⟩

variable [LawfulTracee σ] (host : Executes cpu rest)
include host

/-- A write that failed. -/
theorem write_error (h : Claimed cpu rest Y P d) {addr : Addr} {byte : UInt8} {e : DebugError}
    {q : σ} (hw : Tracee.writeMemory addr [byte] d.process.process = (.error e, q)) :
    Claimed cpu rest Y P
      { d with process := d.process.next (.write addr [byte] (.error e)) q } := by
  refine h.next _ q (LawfulTracee.alive_of_write hw) fun _ hq hf => ?_
  obtain ⟨u, hpoised, hu⟩ := hf.poised
  exact ⟨hf.tracks, u, hpoised.write_error host.writes hw hq, hu⟩

theorem arm (h : Claimed cpu rest Y P d) (addr : Addr) (file : String) (line : UInt64)
    (kind : BreakpointKind) : Claimed cpu rest Y P (Debuggee.arm addr file line kind d).2 := by
  rw [Debuggee.arm_apply, Recorded.readExact_eq]
  split
  · exact h
  rename_i hfree
  rcases hread : Tracee.readExact d.process.process addr 1 with e | bytes
  · exact h
  rw [Recorded.writeMemory_apply]
  rcases hw : Tracee.writeMemory addr [trapByte] d.process.process with ⟨e | _, q⟩
  · exact h.write_error host hw
  · refine h.next _ q (LawfulTracee.alive_of_write hw) fun _ _ hf => ?_
    obtain ⟨u, hpoised, hu⟩ := hf.poised
    have hfree : d.breakpoints.isArmed addr = false := by simpa using hfree
    exact ⟨hf.tracks.arm (b := ⟨addr, bytes.headD 0, file, line, kind⟩) hfree _, u,
      hpoised.arm host.writes _ hfree (Tracee.memory_of_readExact hread) hw, hu⟩

theorem clearAt (h : Claimed cpu rest Y P d) (addr : Addr) :
    Claimed cpu rest Y P (Debuggee.clearAt addr d).2 := by
  rw [Debuggee.clearAt_apply]
  rcases hb : d.breakpoints.locate? addr with _ | b
  · exact h
  simp only [Recorded.writeMemory_apply]
  rcases hw : Tracee.writeMemory addr [b.saved] d.process.process with ⟨e | _, q⟩
  · exact h.write_error host hw
  · refine h.next _ q (LawfulTracee.alive_of_write hw) fun _ _ hf => ?_
    obtain ⟨u, hpoised, hu⟩ := hf.poised
    exact ⟨hf.tracks.clear hpoised.distinct (isArmed_of_locate? hb) _, u,
      hpoised.clear host.writes hb hw, hu⟩

/-- A process that executed the trap of a breakpoint is moved back onto it. -/
theorem rewind (h : Claimed cpu rest Y (fun u => P (u.rewound d.breakpoints)) d) {pc a : Addr}
    (hpc : Tracee.pc d.process = .ok pc) (hbehind : pc.sub? 1 = some a)
    (harmed : d.breakpoints.isArmed a = true) :
    Claimed cpu rest Y P (Debuggee.onProcess (Tracee.setPc a) d).2 := by
  rw [Debuggee.onProcess_apply, Recorded.setPc_apply]
  -- the registers of a process that is alive can be read
  rcases hregs : Tracee.registers d.process.process with e | regs
  · intro hundisturbed halive
    obtain ⟨-, -, u, hpoised, -⟩ := h hundisturbed halive
    have hpc' := hpoised.pc
    simp only [Debuggee.plain, Tracee.pc, hregs] at hpc'
    cases hpc'
  dsimp only
  rcases hset : Tracee.setRegisters (regs.setPc a) d.process.process with ⟨r, q⟩
  refine h.next _ q (LawfulTracee.alive_of_setRegisters hset) fun _ _ hf => ?_
  obtain ⟨u, hpoised, hu⟩ := hf.poised
  obtain ⟨q', hq', hmoved⟩ := hpoised.setPc host a
  rw [Tracee.setPc_apply, Debuggee.plain, hregs] at hq'
  cases hset.symm.trans hq'
  obtain rfl : u.pc = pc := Except.ok.inj (hpoised.pc.symm.trans hpc)
  refine ⟨hf.tracks, _, hmoved, ?_⟩
  rwa [← ProgramState.rewound_of_behind hbehind harmed]

variable (closed : ∀ s t, P s → (cpu.step s).2 = some t → P t)
include closed

theorem step (h : Claimed cpu rest Y P d) {pc : Addr} (hpc : Tracee.pc d.process = .ok pc)
    (hfree : d.breakpoints.isArmed pc = false) :
    ClaimedAfter cpu rest Y P (Debuggee.onProcess Tracee.singleStep d).1
      (Debuggee.onProcess Tracee.singleStep d).2 := by
  rw [Debuggee.onProcess_apply, Recorded.singleStep_apply]
  rcases hstep : Tracee.singleStep d.process.process with ⟨r, q⟩
  intro hundisturbed hq
  have halive : Tracee.isAlive d.process.process = true := LawfulTracee.alive_of_step hstep hq
  obtain ⟨hY, hfollows⟩ := h (hundisturbed.of_suffix (List.suffix_cons _ _)) halive
  exact ⟨hY, .inl (hfollows.step host closed hpc hfree hstep hq
    (hundisturbed.step _ _ r List.suffix_rfl rfl))⟩

theorem stepOver (h : Claimed cpu rest Y P d) (addr : Addr)
    (hpc : Tracee.isAlive d.process = true → Tracee.pc d.process = .ok addr) :
    ClaimedAfter cpu rest Y P (Debuggee.withDisarmed addr Tracee.singleStep d).1
      (Debuggee.withDisarmed addr Tracee.singleStep d).2 ∧
    ((Debuggee.withDisarmed addr Tracee.singleStep d).1 = .ok (.trap .breakpoint) →
      Claimed cpu rest Y P (Debuggee.withDisarmed addr Tracee.singleStep d).2) := by
  rw [Debuggee.withDisarmed_apply]
  rcases hb : d.breakpoints.locate? addr with _ | b
  · refine ⟨fun hundisturbed halive => ?_, fun hr => nomatch hr⟩
    obtain ⟨hY, hf⟩ := h hundisturbed halive
    exact ⟨hY, .inr ⟨_, rfl, hf⟩⟩
  simp only [Recorded.writeMemory_apply]
  rcases hlift : Tracee.writeMemory addr [b.saved] d.process.process with ⟨e | _, lifted⟩
  · refine ⟨fun hundisturbed halive => ?_, fun hr => nomatch hr⟩
    obtain ⟨hY, hf⟩ := h.write_error host hlift hundisturbed halive
    exact ⟨hY, .inr ⟨_, rfl, hf⟩⟩
  simp only [Recorded.singleStep_apply, Recorded.isAlive_eq, Recorded.next]
  rcases hstep : Tracee.singleStep lifted with ⟨r, stepped⟩
  by_cases hstepped : Tracee.isAlive stepped = false
  · simp only [hstepped, Bool.false_eq_true, if_false]
    exact ⟨fun _ halive => absurd (hstepped.symm.trans halive) (by simp),
      fun _ _ halive => absurd (hstepped.symm.trans halive) (by simp)⟩
  rw [Bool.not_eq_false] at hstepped
  simp only [hstepped, if_true]
  rcases hback : Tracee.writeMemory addr [trapByte] stepped with ⟨r', q⟩
  have hlifted := LawfulTracee.alive_of_step hstep hstepped
  have halive := LawfulTracee.alive_of_write hlift hlifted
  -- afterwards the trap is back, so only the answer of the step is left
  have hrun : ∀ r'', r'' = (r.bind fun a => r'.map fun _ => a) →
      Undisturbed cpu rest (⟨.write addr [trapByte] r', stepped, q⟩ ::
        ⟨.step r, lifted, stepped⟩ :: ⟨.write addr [b.saved] (.ok ()), d.process.process, lifted⟩ ::
        d.process.events) → Tracee.isAlive q = true → Y ∧ FollowsOver rest P r''
      ⟨((d.process.next (.write addr [b.saved] (.ok ())) lifted).next (.step r) stepped).next
        (.write addr [trapByte] r') q, d.breakpoints⟩ := by
    rintro r'' rfl hundisturbed hq
    obtain ⟨hY, hf⟩ := h (hundisturbed.of_suffix ((List.suffix_cons _ _).trans
      ((List.suffix_cons _ _).trans (List.suffix_cons _ _)))) halive
    obtain ⟨rfl, hover⟩ := hf.stepOver host closed hb (hpc halive) hlift hstep hstepped hback
      (hundisturbed.step _ _ r (List.suffix_cons _ _) rfl)
      (hundisturbed.lifted _ _ _ _ addr b.saved trapByte r r' List.suffix_rfl rfl rfl rfl)
    refine ⟨hY, ?_⟩
    have hr : (r.bind fun a => (Except.ok () : Except DebugError Unit).map fun _ => a) = r := by
      cases r <;> rfl
    rw [hr]
    exact hover
  constructor
  · intro hundisturbed hq
    obtain ⟨hY, hover⟩ := hrun _ rfl hundisturbed hq
    exact ⟨hY, .inl hover.after⟩
  · intro _ hundisturbed hq
    obtain ⟨hY, hover⟩ := hrun _ rfl hundisturbed hq
    exact ⟨hY, hover.follows⟩

end Claimed

/-! ### Sessions -/

namespace Session

variable {cpu : Cpu κ} {rest : σ → κ} {P : ProgramState κ → Prop}

/-- The process is in a program state of which `P` holds, and no signal waits for it. After a trap
it is in such a state once it is moved back; signals do not occur. -/
def followsInvariant (cpu : Cpu κ) (rest : σ → κ) (P : ProgramState κ → Prop) :
    Invariant (Recorded σ) where
  holds s := Claimed cpu rest (s.pendingSignal = none) P s.debuggee
  trapped s := Claimed cpu rest (s.pendingSignal = none)
    (fun u => P (u.rewound s.breakpoints)) s.debuggee
  signalled _ s := Claimed cpu rest False P s.debuggee

theorem followsInvariant_released {r : Except DebugError Stop} {t : Session (Recorded σ)}
    (h : ClaimedAfter cpu rest (t.pendingSignal = none) P r t.debuggee)
    (hterminal : ∀ stop, r = .ok stop → stop.isTerminal = true →
      Tracee.isAlive t.process = false) :
    (followsInvariant cpu rest P).released r t := by
  -- a stop that the processor does not know does not occur
  have impossible : ∀ {X : Prop}, (∀ e, r ≠ .error e) → r ≠ .ok (.trap .singleStep) →
      r ≠ .ok (.trap .breakpoint) → Undisturbed cpu rest t.debuggee.process.events →
      Tracee.isAlive t.debuggee.process = true → X := by
    intro X herror hstep htrap hundisturbed halive
    obtain ⟨-, (⟨hr, -⟩ | ⟨hr, -⟩) | ⟨e, hr, -⟩⟩ := h hundisturbed halive
    · exact absurd hr hstep
    · exact absurd hr htrap
    · exact absurd hr (herror e)
  -- what is known of the stop is what the invariant asks for
  rcases r with e | stop
  · intro hundisturbed halive
    obtain ⟨hpending, (⟨hr, -⟩ | ⟨hr, -⟩) | ⟨_, -, hf⟩⟩ := h hundisturbed halive
    · cases hr
    · cases hr
    · exact ⟨hpending, hf⟩
  rcases stop with (_ | _ | _) | sig | code | sig
  · intro hundisturbed halive
    obtain ⟨hpending, (⟨hr, -⟩ | ⟨-, hf⟩) | ⟨_, hr, -⟩⟩ := h hundisturbed halive
    · cases hr
    · exact ⟨hpending, hf⟩
    · cases hr
  · intro hundisturbed halive
    obtain ⟨hpending, (⟨-, hf⟩ | ⟨hr, -⟩) | ⟨_, hr, -⟩⟩ := h hundisturbed halive
    · exact ⟨hpending, hf⟩
    · cases hr
    · cases hr
  · exact impossible (by simp) (by simp) (by simp)
  · exact impossible (by simp) (by simp) (by simp)
  · exact hterminal _ rfl rfl
  · exact hterminal _ rfl rfl

variable [LawfulTracee σ] (host : Executes cpu rest)
  (closed : ∀ s t, P s → (cpu.step s).2 = some t → P t)
include host closed

theorem followsInvariant_maintained :
    (followsInvariant (σ := σ) cpu rest P).Maintained where
  -- an ended process stands in no state of the program, so nothing is asked
  gone s h := by
    have hgone : ∀ {X : Prop}, Tracee.isAlive s.debuggee.process = true → X :=
      fun halive => absurd (h.symm.trans halive) (by simp)
    exact ⟨fun _ halive => hgone halive, fun _ halive => hgone halive,
      fun _ _ halive => hgone halive⟩
  arm s addr file line kind h := Claimed.arm host h addr file line kind
  clearAt s addr h := Claimed.clearAt host h addr
  clearKind_signalled s sig h := by
    refine Debuggee.clearKind_keeps (fun addr d hd => ?_) .internal h
    have hcleared := Claimed.clearAt host hd addr
    rcases (Debuggee.clearAt addr d).1 with _ | _
    · exact fun hundisturbed halive => (hcleared hundisturbed halive).1.elim
    · exact hcleared
  -- a pending signal is a disturbance
  note s sig h := fun hundisturbed halive => (h hundisturbed halive).1.elim
  step s pc h hpc hfree := by
    refine ensures_onDebuggee.2 (followsInvariant_released
      (Claimed.step host closed h hpc hfree) ?_)
    exact fun stop hstop => LawfulTracee.step_terminal (σ := σ) (Prod.ext hstop rfl)
  stepOver s addr h hpc := by
    obtain ⟨hafter, htrap⟩ := Claimed.stepOver host closed h addr hpc
    refine ensures_onDebuggee.2 ⟨followsInvariant_released hafter ?_, htrap⟩
    obtain ⟨r, d', hx, hy⟩ :=
      (Debuggee.mirrors_withDisarmed addr Recorded.mirrors_singleStep).ends s.debuggee
    intro stop hstop hterminal
    rw [hx] at hstop ⊢
    cases hstop
    exact LawfulTracee.withDisarmed_terminal (σ := σ) hy hterminal
  resume s h := by
    intro r t hresume
    simp only [resumeProcess, Recorded.resume_apply] at hresume
    rcases hr : Tracee.resume s.pendingSignal s.process.process with _ | ⟨r', q⟩
    · simp [hr] at hresume
    simp only [hr, Option.map_some] at hresume
    cases hresume
    -- the program reaches the stop by its own steps; the signal that was passed on is none
    refine followsInvariant_released (fun hundisturbed hq => ?_) fun stop hstop hterminal => ?_
    · have halive : Tracee.isAlive s.process.process = true := LawfulTracee.alive_of_resume hr hq
      obtain ⟨hpending, hf⟩ := h (hundisturbed.of_suffix (List.suffix_cons _ _)) halive
      rw [hpending] at hr hundisturbed ⊢
      refine ⟨rfl, .inl (hf.resume host closed hr hq fun x hx => ?_)⟩
      exact hundisturbed.resume _ _ none _ List.suffix_rfl rfl x hx
    · cases hstop
      exact LawfulTracee.resume_terminal (σ := σ) hr hterminal
  rewind s h := by
    intro r t hrewind
    refine ⟨?_, fun addr hr => pc_of_rewindAfterTrap (hr ▸ hrewind)⟩
    -- either the pc can not be read, or it is not behind a trap, or the trap is taken back
    rcases rewindAfterTrap_cases hrewind with ⟨e, hpc, rfl, -⟩ | ⟨pc, hpc, rfl, -, hfree⟩ |
      ⟨pc, a, hpc, hbehind, harmed, rfl, -⟩
    · intro hundisturbed halive
      obtain ⟨-, -, u, hpoised, -⟩ := h hundisturbed halive
      cases hpoised.pc.symm.trans hpc
    · intro hundisturbed halive
      obtain ⟨hpending, htracks, u, hpoised, hu⟩ := h hundisturbed halive
      obtain rfl : u.pc = pc := Except.ok.inj (hpoised.pc.symm.trans hpc)
      refine ⟨hpending, htracks, u, hpoised, ?_⟩
      rwa [ProgramState.rewound_of_not_behind hfree] at hu
    · exact Claimed.rewind host h hpc hbehind harmed

omit [LawfulTracee σ] host closed

/-- Seen through its breakpoints, the process of a session is in a state of the program. -/
structure Stands (rest : σ → κ) (t : Session σ) (u : ProgramState κ) : Prop where
  /-- The registers are those of the state. -/
  registers : Tracee.registers t.process = .ok u.registers
  /-- Once the traps are taken away, so is the memory. -/
  memory : t.breakpoints.unpatched (Tracee.memory t.process) = u.memory
  /-- And everything else. -/
  rest : rest t.process = u.rest

theorem Stands.of_poised {t : Session σ} {u : ProgramState κ} (h : Poised rest t.debuggee u) :
    t.Stands rest u := by
  obtain ⟨x, hx, hpatched⟩ := h.stands
  refine ⟨?_, ?_, hx.rest.trans hpatched.rest⟩
  · rw [process, hx.registers, hpatched.registers]
  · rw [process, breakpoints, hx.memory, hpatched.coherent.unpatched_eq]

/-- A process at its start is in the state in which its program starts. -/
theorem claimed_start (p : σ) (s₀ : ProgramState κ) (hp : Shows rest p s₀) (hs₀ : P s₀)
    (index : DebugIndex) (frames : Option FrameIndex) (bias : Addr) (files : FileSystem) :
    (followsInvariant cpu rest P).holds (start (.ofProcess p) index frames bias files) := by
  refine fun _ _ => ⟨rfl, fun _ => rfl, s₀, ⟨⟨s₀, hp, rfl, rfl, ?_⟩, fun a ha => ?_⟩, hs₀⟩
  · exact Coherent.nil _
  · cases ha

variable [LawfulTracee σ]
include host

/-- Commands other than a restart take the process from states of which `P` holds to such states. -/
theorem claimed_of_executeAll (closed : ∀ s t, P s → (cpu.step s).2 = some t → P t)
    {commands : List (Nat × Command)} (hcommands : ∀ c ∈ commands, c.2 ≠ .restart)
    {s t : Session (Recorded σ)} (h : executeAll commands s = some t)
    (hs : (followsInvariant cpu rest P).holds s) : (followsInvariant cpu rest P).holds t :=
  executeAll_keeps commands (fun fuel c hmem u hu =>
    (followsInvariant_maintained host closed).handle fuel c (hcommands _ hmem) u hu) h hs

/-- Whatever commands are executed, seen through its breakpoints the process is in a state of the
run of the program by itself. It is so after the first commands, `before`, and at the end, and from
the one state to the other it executed instructions of the program. -/
theorem transparent (p : σ) (s₀ : ProgramState κ) (hp : Shows rest p s₀) (index : DebugIndex)
    (frames : Option FrameIndex) (bias : Addr) (files : FileSystem)
    (before after : List (Nat × Command)) (hcommands : ∀ c ∈ before ++ after, c.2 ≠ .restart)
    (t₁ t₂ : Session σ)
    (hbefore : executeAll before (start p index frames bias files) = some t₁)
    (hafter : executeAll after t₁ = some t₂) :
    ∃ r : Session (Recorded σ),
      executeAll (before ++ after) (start (.ofProcess p) index frames bias files) = some r ∧
      r.plain = t₂ ∧
      (Undisturbed cpu rest r.process.events → Tracee.isAlive t₂.process = true →
        ∃ m n u₁ u₂, cpu.after m s₀ = some u₁ ∧ t₁.Stands rest u₁ ∧
          cpu.after n u₁ = some u₂ ∧ t₂.Stands rest u₂) := by
  obtain ⟨r₁, hr₁, rfl⟩ :=
    exists_recorded (s := start (.ofProcess p) index frames bias files) hbefore
  obtain ⟨r₂, hr₂, rfl⟩ := exists_recorded hafter
  refine ⟨r₂, by rw [executeAll_append, hr₁]; exact hr₂, rfl, fun hundisturbed halive => ?_⟩
  -- first the states to which the program comes from its start
  have hfirst : (followsInvariant cpu rest fun u => ∃ m, cpu.after m s₀ = some u).holds r₁ := by
    refine claimed_of_executeAll host (fun s t hs hstep => ?_)
      (fun c hc => hcommands c (List.mem_append_left _ hc)) hr₁
      (claimed_start p s₀ hp ⟨0, rfl⟩ index frames bias files)
    exact Cpu.after_closed hs hstep
  -- then those to which it comes from where the first commands left it
  have hsecond : (followsInvariant cpu rest fun u₂ => ∃ u₁, (∃ m, cpu.after m s₀ = some u₁) ∧
      r₁.plain.Stands rest u₁ ∧ ∃ n, cpu.after n u₁ = some u₂).holds r₂ := by
    refine claimed_of_executeAll host (fun s t hs hstep => ?_)
      (fun c hc => hcommands c (List.mem_append_right _ hc)) hr₂ fun hundisturbed halive => ?_
    · obtain ⟨u₁, hm, hstands, hn⟩ := hs
      exact ⟨u₁, hm, hstands, Cpu.after_closed hn hstep⟩
    · obtain ⟨hpending, htracks, u, hpoised, hm⟩ := hfirst hundisturbed halive
      exact ⟨hpending, htracks, u, hpoised, u, hm, Stands.of_poised hpoised, 0, rfl⟩
  obtain ⟨-, -, u₂, hpoised, u₁, ⟨m, hm⟩, hstands₁, n, hn⟩ := hsecond hundisturbed halive
  exact ⟨m, n, u₁, u₂, hm, hstands₁, hn, Stands.of_poised hpoised⟩

end Session

/-! ### A run of a process without side effects -/

theorem NopProcess.undisturbed (events : List (Event NopProcess)) :
    Undisturbed cpu (fun _ => ()) events where
  step _ _ _ _ _ s _ a _ := not_disturbs s a
  lifted _ _ _ _ a _ _ _ _ _ _ _ _ s _ _ := not_disturbs s a
  resume _ _ _ _ _ _ _ _ t _ a _ := not_disturbs t a

open NopProcess in
/-- A breakpoint is set at the second instruction of a program and the process runs to it. Then one
more instruction is executed. -/
theorem Session.transparent_nops :
    ∃ t₁ t₂, executeAll [(0, .setBreakpoint "a.c" 1), (0, .resume)]
        (start nops Machine.nopsIndex none .null ⟨"/", []⟩) = some t₁ ∧
      executeAll [(0, .stepInstruction)] t₁ = some t₂ ∧
      Tracee.pc t₂.process = .ok ⟨0x1002⟩ ∧
      ∃ m n u₁ u₂, cpu.after m nops.state = some u₁ ∧ t₁.Stands (fun _ => ()) u₁ ∧
        cpu.after n u₁ = some u₂ ∧ t₂.Stands (fun _ => ()) u₂ := by
  have hruns : (executeAll [(0, .setBreakpoint "a.c" 1), (0, .resume)]
      (start nops Machine.nopsIndex none .null ⟨"/", []⟩)).any (fun t₁ =>
        (executeAll [(0, .stepInstruction)] t₁).any fun t₂ =>
          t₂.process.alive && decide (t₂.process.registers.pc = ⟨0x1002⟩)) = true := by
    decide +kernel
  obtain ⟨t₁, ht₁, hrest⟩ := (Option.any_eq_true _ _).1 hruns
  obtain ⟨t₂, ht₂, hend⟩ := (Option.any_eq_true _ _).1 hrest
  obtain ⟨halive, hpc⟩ := Bool.and_eq_true_iff.1 hend
  obtain ⟨r, -, -, htransparent⟩ := transparent executes nops nops.state (shows rfl)
    Machine.nopsIndex none .null ⟨"/", []⟩ _ [(0, .stepInstruction)] (by simp) t₁ t₂ ht₁ ht₂
  refine ⟨t₁, t₂, ht₁, ht₂, ?_, htransparent (undisturbed _) halive⟩
  rw [(shows halive).pc]
  exact congrArg Except.ok (of_decide_eq_true hpc)

end SourceDebugger
