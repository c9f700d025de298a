import Mathlib.Control.Monad.Basic
import SourceDebugger.Proofs.Transparency

/-!
# To continue is to run to the next breakpoint

In whatever state a session is, when the operator lets the program continue, it stops at the first
state behind the current one at which there is a breakpoint of the operator, or it is reported how
the program ended: `Session.continueExecution_exact`.

The run of the program by itself from one state to another is `Cpu.Crosses`. A process with
breakpoints runs along it, `Patched.runsTo_of_crosses`, up to the trap at its end. The instruction
at which the process stands may have a breakpoint under it; it is executed first, from under its
trap.
-/

namespace SourceDebugger

variable {σ κ : Type}

/-- The program comes from `u` to `v` in `n` steps. In between it stands at no breakpoint of a
table, and all the while it has no trap of its own and nothing to do with the breakpoints. -/
structure Cpu.Crosses (cpu : Cpu κ) (table : BreakpointTable) (n : Nat)
    (u v : ProgramState κ) : Prop where
  /-- The program comes to `v`. -/
  after : cpu.after n u = some v
  /-- There is no breakpoint on the way. -/
  free : ∀ i, 0 < i → i < n → ∀ w, cpu.after i u = some w → table.isArmed w.pc = false
  /-- No instruction on the way is a trap of the program. -/
  noTrap : ∀ i < n, ∀ w, cpu.after i u = some w → ¬ w.AtTrap
  /-- No instruction on the way has to do with a breakpoint. -/
  clear : ∀ i < n, ∀ w, cpu.after i u = some w → ∀ a, table.isArmed a = true → ¬ cpu.Disturbs w a

namespace Cpu.Crosses

variable {cpu : Cpu κ} {table : BreakpointTable} {n : Nat} {u v : ProgramState κ}

/-- The first step is an instruction, and the rest of the way starts behind it. -/
theorem tail (h : cpu.Crosses table (n + 1) u v) :
    ∃ u', cpu.step u = (.trap .singleStep, some u') ∧ cpu.Crosses table n u' v ∧
      (0 < n → table.isArmed u'.pc = false) := by
  have hafter := h.after
  rw [Cpu.after] at hafter
  -- neither a trap nor the end is on the way
  rcases step_cases cpu u with ⟨htrap, -⟩ | ⟨u', -, -, hs⟩ | ⟨code, -, -, hs⟩
  · exact absurd htrap (h.noTrap 0 (Nat.succ_pos n) u rfl)
  · have hnext : ∀ i w, cpu.after i u' = some w → cpu.after (i + 1) u = some w := by
      intro i w hw
      rw [Cpu.after, hs]
      exact hw
    rw [hs] at hafter
    refine ⟨u', hs, ⟨hafter, fun i _ hi w hw => ?_, fun i hi w hw => ?_, fun i hi w hw => ?_⟩,
      fun hn => ?_⟩
    · exact h.free (i + 1) (Nat.succ_pos i) (Nat.succ_lt_succ hi) w (hnext i w hw)
    · exact h.noTrap (i + 1) (Nat.succ_lt_succ hi) w (hnext i w hw)
    · exact h.clear (i + 1) (Nat.succ_lt_succ hi) w (hnext i w hw)
    · exact h.free 1 Nat.one_pos (Nat.succ_lt_succ hn) u' (hnext 0 u' rfl)
  · rw [hs] at hafter
    cases hafter

end Cpu.Crosses

/-- A process with breakpoints runs along with the program, from a state without a breakpoint: it
stops as it does from the end of the way. -/
theorem Patched.runsTo_of_crosses {cpu : Cpu κ} {table : BreakpointTable} {n : Nat}
    {x u v : ProgramState κ} (h : Patched table x u) (hcrosses : cpu.Crosses table n u v)
    (hfirst : 0 < n → table.isArmed u.pc = false) :
    ∃ y, Patched table y v ∧ ∀ stop end_, cpu.RunsTo y stop end_ → cpu.RunsTo x stop end_ := by
  -- the way gets shorter by one instruction, in both states
  induction n generalizing x u with
  | zero =>
    cases hcrosses.after
    exact ⟨x, h, fun _ _ => id⟩
  | succ n ih =>
    obtain ⟨u', hs, htail, hsecond⟩ := hcrosses.tail
    rcases h.step (hfirst (Nat.succ_pos n)) (hcrosses.clear 0 (Nat.succ_pos n) u rfl) with
      ⟨stop, x', u'', hx', hu', h'⟩ | ⟨stop, -, hu'⟩ <;> cases hs.symm.trans hu'
    obtain ⟨y, hy, hruns⟩ := ih h' htail hsecond
    exact ⟨y, hy, fun stop end_ hrun => .next hx' (hruns stop end_ hrun)⟩

namespace Session

variable [Tracee σ] {cpu : Cpu κ} {rest : σ → κ}

/-- Behind the trap of a breakpoint the process is moved back onto it. -/
theorem rewindAfterTrap_trap (host : Executes cpu rest) {s : Session σ} {v : ProgramState κ}
    (h : Poised rest s.debuggee v.behindTrap) (hlast : v.pc ≠ Addr.last)
    (harmed : s.breakpoints.isArmed v.pc = true) :
    ∃ q, rewindAfterTrap s =
        some (.ok v.pc, { s with debuggee := { s.debuggee with process := q } }) ∧
      Poised rest { s.debuggee with process := q } v := by
  obtain ⟨q, hset, hq⟩ := h.setPc host v.pc
  have hpc : v.behindTrap.pc.sub? 1 = some v.pc := by
    rw [ProgramState.behindTrap, ProgramState.pc_withPc, Addr.sub?_add_one hlast]
  -- to move behind the trap and back changes nothing
  rw [ProgramState.behindTrap, ProgramState.withPc_withPc, ProgramState.withPc_pc] at hq
  refine ⟨q, ?_, hq⟩
  rw [rewindAfterTrap_apply, process, h.pc]
  simp only [hpc, harmed, if_true, Debuggee.onProcess_apply, hset]
  rfl

/-- The answer to a trap at a breakpoint. -/
theorem stopped_trap (host : Executes cpu rest) {s : Session σ} {v : ProgramState κ}
    (h : Poised rest s.debuggee v.behindTrap) (hlast : v.pc ≠ Addr.last)
    (harmed : s.breakpoints.isArmed v.pc = true) :
    ∃ q, stopped (.trap .breakpoint) s =
        some (.ok (s.stopFeedback v.pc), { s with debuggee := { s.debuggee with process := q } }) ∧
      Poised rest { s.debuggee with process := q } v := by
  obtain ⟨q, hrewind, hq⟩ := rewindAfterTrap_trap host h hlast harmed
  exact ⟨q, bind_of_ok hrewind, hq⟩

/-- The answer to the end of the process. -/
theorem stopped_exited (s : Session σ) (code : Int) :
    stopped (.exited code) s = some (.ok (.exited (Tracee.pid s.process) code),
      { s with debuggee := s.debuggee.discardInternal }) := rfl

/-- A process that is let go where there is no breakpoint stops at the next one. -/
theorem resume_stops [LawfulTracee σ] (host : Executes cpu rest) {s : Session σ} {n : Nat}
    {u v : ProgramState κ} (h : Poised rest s.debuggee u) (hpending : s.pendingSignal = none)
    (hcrosses : cpu.Crosses s.breakpoints n u v)
    (hfirst : 0 < n → s.breakpoints.isArmed u.pc = false)
    (harmed : s.breakpoints.isArmed v.pc = true) :
    ∃ q, (resumeProcess >>= stopped) s =
        some (.ok (s.stopFeedback v.pc), { s with debuggee := { s.debuggee with process := q } }) ∧
      Poised rest { s.debuggee with process := q } v := by
  obtain ⟨x, hx, hpatched⟩ := h.stands
  obtain ⟨y, hy, hruns⟩ := hpatched.runsTo_of_crosses hcrosses hfirst
  -- at the end of the way the process executes the trap of the breakpoint
  have htrap := cpu.step_of_atTrap (hy.atTrap_of_isArmed harmed)
  obtain ⟨p, hresume, hp⟩ := host.resume_of_runsTo hx (hruns _ _ (.stop htrap (by simp)))
  have hp : Shows rest p y.behindTrap := hp
  have hpoised : Poised rest { s.debuggee with process := p } v.behindTrap := by
    refine ⟨⟨_, hp, hy.behindTrap⟩, fun a ha => ?_⟩
    exact host.writable_resume hresume hp.alive (h.writable a ha)
  have hresumed : resumeProcess s = some (.ok (.trap .breakpoint),
      { s with debuggee := { s.debuggee with process := p } }) := by
    simp only [resumeProcess, process, hpending, hresume]
  -- there is a trap at the last state, so it is not at the end of the address space
  have hlast : v.pc ≠ Addr.last := by
    apply hy.pc_ne_last harmed
    have hmemory : y.memory = Tracee.memory p := hp.memory.symm
    rw [hmemory]
    exact host.last hp.alive
  rw [bind_of_ok hresumed]
  exact stopped_trap host (s := { s with debuggee := { s.debuggee with process := p } }) hpoised
    hlast harmed

/-- If there is none, it ends as the program does. -/
theorem resume_exits (host : Executes cpu rest) {s : Session σ} {n : Nat}
    {u w : ProgramState κ} {code : Int} (h : Poised rest s.debuggee u)
    (hpending : s.pendingSignal = none) (hcrosses : cpu.Crosses s.breakpoints n u w)
    (hfirst : 0 < n → s.breakpoints.isArmed u.pc = false)
    (hfree : s.breakpoints.isArmed w.pc = false)
    (hclear : ∀ a, s.breakpoints.isArmed a = true → ¬ cpu.Disturbs w a)
    (hexit : cpu.step w = (.exited code, none)) :
    ∃ t, (resumeProcess >>= stopped) s = some (.ok (.exited (Tracee.pid t.process) code), t) ∧
      Tracee.isAlive t.process = false := by
  obtain ⟨x, hx, hpatched⟩ := h.stands
  obtain ⟨y, hy, hruns⟩ := hpatched.runsTo_of_crosses hcrosses hfirst
  -- the program ends there, so the process does
  rcases hy.step hfree hclear with ⟨_, _, _, -, hw, -⟩ | ⟨stop, hy', hw⟩ <;>
    cases hexit.symm.trans hw
  obtain ⟨p, hresume, hp⟩ := host.resume_of_runsTo hx (hruns _ _ (.stop hy' (by simp)))
  have hresumed : resumeProcess s = some (.ok (.exited code),
      { s with debuggee := { s.debuggee with process := p } }) := by
    simp only [resumeProcess, process, hpending, hresume]
  rw [bind_of_ok hresumed]
  exact ⟨_, rfl, hp⟩

/-- The session with its process in another state and the breakpoints of the operator alone. -/
def cleared (s : Session σ) (q : σ) : Session σ :=
  { s with debuggee := ⟨q, s.breakpoints.user⟩ }

/-- A command first clears the breakpoints of the step engine. -/
theorem cleared_apply [LawfulTracee σ] (host : Writes rest) {s : Session σ} {u : ProgramState κ}
    (h : Poised rest s.debuggee u) :
    ∃ q, Poised rest (s.cleared q).debuggee u ∧ ∀ x : Task σ Feedback,
      (do ensureAlive; clearInternal; x) s = x (s.cleared q) := by
  obtain ⟨n, q, hq, hpoised⟩ := h.clearInternal host
  refine ⟨q, hpoised, fun x => ?_⟩
  have halive : ensureAlive s = some (.ok (), s) := by
    simp only [ensureAlive, observe, process, h.alive, if_true]
  have hcleared : clearInternal s = some (.ok (), s.cleared q) := by
    simp only [clearInternal, bind_apply, onDebuggee_apply, hq]
    rfl
  rw [bind_of_ok halive, bind_of_ok hcleared]

/-- What is left to do then to continue. -/
theorem continueExecution_apply {s : Session σ} {u : ProgramState κ} {q : σ}
    (h : Poised rest (s.cleared q).debuggee u)
    (hstart : ∀ x : Task σ Feedback, (do ensureAlive; clearInternal; x) s = x (s.cleared q)) :
    continueExecution s =
      (if s.breakpoints.user.isArmed u.pc then do
        let stop ← stepOverBreakpoint u.pc
        if stop ≠ .trap .singleStep then stopped stop else resumeProcess >>= stopped
      else resumeProcess >>= stopped) (s.cleared q) := by
  have hpc : pc (s.cleared q) = some (.ok u.pc, s.cleared q) := by
    rw [pc, observe, show Tracee.pc (s.cleared q).process = _ from h.pc]
  -- the rest starts from the session without transient breakpoints
  unfold continueExecution
  rw [hstart, bind_of_ok hpc, bind_apply]
  rfl

/-- What the instruction under a breakpoint does is done before anything else. -/
theorem stepOverBreakpoint_apply [LawfulTracee σ] (host : Executes cpu rest) {s : Session σ}
    {u : ProgramState κ} (h : Poised rest s.debuggee u) (harmed : s.breakpoints.isArmed u.pc = true)
    (hclear : ∀ a, s.breakpoints.isArmed a = true → ¬ cpu.Disturbs u a) :
    ∃ q, stepOverBreakpoint u.pc s =
        some (.ok (cpu.step u).1, { s with debuggee := { s.debuggee with process := q } }) ∧
      PoisedOrGone rest (cpu.step u).2 { s.debuggee with process := q } := by
  obtain ⟨q, hover, hq⟩ := h.withDisarmed host harmed hclear
  exact ⟨q, by rw [stepOverBreakpoint, onDebuggee_apply, hover], hq⟩

/-- If there is a way to go, the process is soon let go on it, from where there is no breakpoint. -/
theorem continueExecution_of_crosses [LawfulTracee σ] (host : Executes cpu rest) {s : Session σ}
    {u v : ProgramState κ} (h : Poised rest s.debuggee u) {n : Nat}
    (hcrosses : cpu.Crosses s.breakpoints.user n u v)
    (hway : 0 < n ∨ s.breakpoints.user.isArmed u.pc = false) :
    ∃ m u' q, cpu.Crosses s.breakpoints.user m u' v ∧
      (0 < m → s.breakpoints.user.isArmed u'.pc = false) ∧
      Poised rest (s.cleared q).debuggee u' ∧
      continueExecution s = (resumeProcess >>= stopped) (s.cleared q) := by
  obtain ⟨q, hpoised, hstart⟩ := cleared_apply host.writes h
  have hcontinue := continueExecution_apply hpoised hstart
  -- with a breakpoint under the first instruction, this one is executed first
  rcases hunder : s.breakpoints.user.isArmed u.pc
  · rw [hunder, if_neg (by simp)] at hcontinue
    exact ⟨n, u, q, hcrosses, fun _ => hunder, hpoised, hcontinue⟩
  · rw [hunder, if_pos rfl] at hcontinue
    obtain ⟨m, rfl⟩ : ∃ m, n = m + 1 := by
      refine ⟨n - 1, (Nat.sub_add_cancel ?_).symm⟩
      exact hway.resolve_right (by simp [hunder])
    obtain ⟨u', hs, htail, hfirst⟩ := hcrosses.tail
    obtain ⟨p, hover, hp⟩ := stepOverBreakpoint_apply host (s := s.cleared q) hpoised hunder
      (hcrosses.clear 0 (Nat.succ_pos m) u rfl)
    rw [hs] at hover hp
    refine ⟨m, u', p, htail, hfirst, hp, ?_⟩
    rw [hcontinue, bind_of_ok hover, if_neg (by simp)]
    rfl

/-- The program is continued to its next breakpoint. -/
theorem continueExecution_stops [LawfulTracee σ] (host : Executes cpu rest) {s : Session σ}
    {u v : ProgramState κ} (h : Poised rest s.debuggee u) (hpending : s.pendingSignal = none)
    {n : Nat} (hn : 0 < n) (hcrosses : cpu.Crosses s.breakpoints.user n u v)
    (harmed : s.breakpoints.user.isArmed v.pc = true) :
    ∃ q, continueExecution s = some (.ok (s.stopFeedback v.pc), s.cleared q) ∧
      Poised rest (s.cleared q).debuggee v := by
  obtain ⟨m, u', q, hrest, hfirst, hpoised, hcontinue⟩ :=
    continueExecution_of_crosses host h hcrosses (.inl hn)
  rw [hcontinue]
  exact resume_stops host (s := s.cleared q) hpoised hpending hrest hfirst harmed

/-- If it comes to none, the end of the program is reported. -/
theorem continueExecution_exits [LawfulTracee σ] (host : Executes cpu rest) {s : Session σ}
    {u w : ProgramState κ} {code : Int} (h : Poised rest s.debuggee u)
    (hpending : s.pendingSignal = none) {n : Nat}
    (hcrosses : cpu.Crosses s.breakpoints.user n u w)
    (hfree : 0 < n → s.breakpoints.user.isArmed w.pc = false)
    (hclear : ∀ a, s.breakpoints.user.isArmed a = true → ¬ cpu.Disturbs w a)
    (hexit : cpu.step w = (.exited code, none)) :
    ∃ t, continueExecution s = some (.ok (.exited (Tracee.pid t.process) code), t) ∧
      Tracee.isAlive t.process = false := by
  have way : (0 < n ∨ s.breakpoints.user.isArmed u.pc = false) →
      s.breakpoints.user.isArmed w.pc = false →
      ∃ t, continueExecution s = some (.ok (.exited (Tracee.pid t.process) code), t) ∧
        Tracee.isAlive t.process = false := by
    intro hway hlast
    obtain ⟨m, u', q, hrest, hfirst, hpoised, hcontinue⟩ :=
      continueExecution_of_crosses host h hcrosses hway
    rw [hcontinue]
    exact resume_exits host (s := s.cleared q) hpoised hpending hrest hfirst hlast hclear hexit
  -- the program may end by its first instruction
  rcases Nat.eq_zero_or_pos n with rfl | hn
  · cases hcrosses.after
    rcases hunder : s.breakpoints.user.isArmed u.pc
    · exact way (.inr hunder) hunder
    -- the program ends by the instruction under the breakpoint at which it stands
    obtain ⟨q, hpoised, hstart⟩ := cleared_apply host.writes h
    have hcontinue := continueExecution_apply hpoised hstart
    obtain ⟨p, hover, hp⟩ := stepOverBreakpoint_apply host (s := s.cleared q) hpoised hunder hclear
    rw [hexit] at hover hp
    rw [hcontinue, if_pos hunder, bind_of_ok hover, if_pos (by simp)]
    refine ⟨{ s.cleared p with debuggee := (s.cleared p).debuggee.discardInternal }, ?_, hp⟩
    exact stopped_exited (s.cleared p) code
  · exact way (.inl hn) (hfree hn)

/-! ### Whatever happened before -/

/-- A restart leads to a state of the program too, if not of the same run. -/
theorem followsInvariant_restart [LawfulTracee σ] (host : Executes cpu rest)
    (s : Session (Recorded σ)) (h : (followsInvariant cpu rest fun _ => True).holds s) :
    Ensures restart s fun _ t => (followsInvariant cpu rest fun _ => True).holds t := by
  refine (followsInvariant_maintained host fun _ _ _ _ => trivial).restart s (fun e q hr => ?_)
    fun q hr => ?_
  · rcases hr' : Tracee.restart s.process.process with ⟨r, p⟩
    rw [Recorded.restart_apply, hr'] at hr
    cases hr
    intro hundisturbed hp
    obtain ⟨halive, hmemory⟩ := LawfulTracee.restart_error hr' hp
    obtain ⟨hpending, htracks, u, hpoised, -⟩ :=
      h (hundisturbed.of_suffix (List.suffix_cons _ _)) halive
    obtain ⟨x, hx, hpatched⟩ := hpoised.stands
    obtain ⟨y, hy⟩ := host.exists_shows hp
    -- only the registers may be others now
    have hsame : y.memory = x.memory := hy.memory.symm.trans (hmemory.trans hx.memory)
    refine ⟨hpending, htracks, ⟨y.registers, u.memory, y.rest⟩, ⟨⟨y, hy, rfl, rfl, ?_⟩, ?_⟩,
      trivial⟩
    · exact hsame ▸ hpatched.coherent
    · exact fun a ha => host.writable_restart hr' hp (hpoised.writable a ha)
  · rcases hr' : Tracee.restart s.process.process with ⟨r, p⟩
    rw [Recorded.restart_apply, hr'] at hr
    cases hr
    intro _ hp
    obtain ⟨y, hy⟩ := host.exists_shows hp
    refine ⟨rfl, fun _ => rfl, y, ⟨⟨y, hy, rfl, rfl, Coherent.nil _⟩, fun a ha => ?_⟩, trivial⟩
    cases ha

/-- After any commands, if the program had nothing to do with the traps so far, the process stands
in a state of the program. -/
theorem poised_of_executeAll [LawfulTracee σ] (host : Executes cpu rest) {p : σ}
    {index : DebugIndex} {frames : Option FrameIndex} {bias : Addr} {files : FileSystem}
    {commands : List (Nat × Command)} {r : Session (Recorded σ)}
    (h : executeAll commands (start (.ofProcess p) index frames bias files) = some r)
    (hundisturbed : Undisturbed cpu rest r.process.events)
    (halive : Tracee.isAlive r.process = true) :
    r.pendingSignal = none ∧ ∃ u, Poised rest r.plain.debuggee u := by
  have hholds : (followsInvariant cpu rest fun _ => True).holds r := by
    -- every state is in some run of the program, so nothing has to be said of the run
    refine executeAll_keeps commands (fun fuel c _ s hs => ?_) h fun hnone hp => ?_
    · by_cases hc : c = .restart
      · rw [hc]
        exact followsInvariant_restart host s hs
      · exact (followsInvariant_maintained host fun _ _ _ _ => trivial).handle fuel c hc s hs
    · obtain ⟨s₀, hs₀⟩ := host.exists_shows hp
      exact claimed_start p s₀ hs₀ trivial index frames bias files hnone hp
  obtain ⟨hpending, -, u, hpoised, -⟩ := hholds hundisturbed halive
  exact ⟨hpending, u, hpoised⟩

/-- To continue is to run to the next breakpoint. Whatever commands were executed before, let `u` be
the state of the program by itself in which the process is. If the program comes from there to a
breakpoint of the operator, in one step at least, then the process stops in the first such state
and no other; if it ends before that, its end is reported. -/
theorem continueExecution_exact [LawfulTracee σ] (host : Executes cpu rest) (p : σ)
    (index : DebugIndex) (frames : Option FrameIndex) (bias : Addr) (files : FileSystem)
    (commands : List (Nat × Command)) (t : Session σ)
    (h : executeAll commands (start p index frames bias files) = some t) :
    ∃ r : Session (Recorded σ),
      executeAll commands (start (.ofProcess p) index frames bias files) = some r ∧ r.plain = t ∧
      (Undisturbed cpu rest r.process.events → Tracee.isAlive t.process = true →
        ∃ u, t.Stands rest u ∧
          (∀ n v, 0 < n → cpu.Crosses t.breakpoints.user n u v →
            t.breakpoints.user.isArmed v.pc = true →
            ∃ t', continueExecution t = some (.ok (t.stopFeedback v.pc), t') ∧
              t'.Stands rest v ∧ t'.breakpoints = t.breakpoints.user) ∧
          ∀ n w code, cpu.Crosses t.breakpoints.user n u w →
            (0 < n → t.breakpoints.user.isArmed w.pc = false) →
            (∀ a, t.breakpoints.user.isArmed a = true → ¬ cpu.Disturbs w a) →
            cpu.step w = (.exited code, none) →
            ∃ t', continueExecution t = some (.ok (.exited (Tracee.pid t'.process) code), t') ∧
              Tracee.isAlive t'.process = false) := by
  obtain ⟨r, hr, rfl⟩ :=
    exists_recorded (s := start (.ofProcess p) index frames bias files) h
  refine ⟨r, hr, rfl, fun hundisturbed halive => ?_⟩
  obtain ⟨hpending, u, hpoised⟩ := poised_of_executeAll host hr hundisturbed halive
  refine ⟨u, Stands.of_poised hpoised, fun n v hn hcrosses harmed => ?_, ?_⟩
  · obtain ⟨q, hcontinue, hv⟩ := continueExecution_stops host hpoised hpending hn hcrosses harmed
    exact ⟨_, hcontinue, Stands.of_poised hv, rfl⟩
  · intro n w code hcrosses hfree hclear hexit
    exact continueExecution_exits host hpoised hpending hcrosses hfree hclear hexit

end Session

namespace NopProcess

/-- The line table of a program whose second instruction is on a line. -/
def secondNop : DebugIndex := (DebugIndex.empty "/").addLineRecord "a.c" 1 ⟨0x1001⟩ false

end NopProcess

open NopProcess Session in
/-- From its start a program is continued to a breakpoint at its second instruction. -/
theorem Session.continueExecution_exact_nops :
    ∃ t u v t', executeAll [(0, .setBreakpoint "a.c" 1)]
        (start nops secondNop none .null ⟨"/", []⟩) = some t ∧
      t.Stands (fun _ => ()) u ∧ cpu.after 1 u = some v ∧
      continueExecution t = some (.ok (.stopped ⟨0x1001⟩ (some ⟨"a.c", 1⟩) none), t') ∧
      t'.Stands (fun _ => ()) v := by
  have hrun : (executeAll [(0, .setBreakpoint "a.c" 1)]
      (start nops secondNop none .null ⟨"/", []⟩)).any (fun t =>
        t.process.alive && decide (t.process.registers.pc = ⟨0x1000⟩ ∧
          t.breakpoints.unpatched (Tracee.memory t.process) ⟨0x1000⟩ = some 0x90 ∧
          t.breakpoints.user.isArmed ⟨0x1001⟩ = true ∧ t.index = secondNop ∧
          t.files = ⟨"/", []⟩)) = true := by
    decide +kernel
  obtain ⟨t, ht, hend⟩ := (Option.any_eq_true _ _).1 hrun
  obtain ⟨halive, hfacts⟩ := Bool.and_eq_true_iff.1 hend
  obtain ⟨hpc, hbyte, harmed, hindex, hfiles⟩ := of_decide_eq_true hfacts
  obtain ⟨r, -, -, hexact⟩ := continueExecution_exact executes nops secondNop none .null
    ⟨"/", []⟩ _ t ht
  obtain ⟨u, hstands, hstops, -⟩ := hexact (undisturbed _) halive
  -- where the process stands, and what is there
  have hupc : u.pc = ⟨0x1000⟩ := by
    have hregisters := (shows halive).registers.symm.trans hstands.registers
    rw [ProgramState.pc, ← Except.ok.inj hregisters]
    exact hpc
  have hnop : u.memory u.pc = some 0x90 := by
    rw [hupc, ← hstands.memory]
    exact hbyte
  have hrunning : cpu.step u = (.trap .singleStep, some (u.withPc (u.pc + (1 : UInt64)))) := by
    refine Cpu.step_of_running ?_ (if_pos hnop)
    rw [ProgramState.AtTrap, hnop]
    decide
  have hafter : cpu.after 1 u = some (u.withPc (u.pc + (1 : UInt64))) := by
    rw [Cpu.after, hrunning]
    rfl
  -- one instruction leads to the breakpoint
  have hcrosses : cpu.Crosses t.breakpoints.user 1 u (u.withPc (u.pc + (1 : UInt64))) := by
    refine ⟨hafter, fun i hpos hlt => absurd hpos (by omega), fun i hlt w hw => ?_,
      fun _ _ w _ a _ => not_disturbs w a⟩
    obtain rfl : i = 0 := by omega
    cases hw
    rw [ProgramState.AtTrap, hnop]
    decide
  have hvpc : (u.withPc (u.pc + (1 : UInt64))).pc = ⟨0x1001⟩ := by
    rw [ProgramState.pc_withPc, hupc]
    rfl
  obtain ⟨t', hcontinue, hstands', -⟩ := hstops 1 _ Nat.one_pos hcrosses (hvpc ▸ harmed)
  -- the line is known, but there is no file with it
  have hshown : t.stopFeedback ⟨0x1001⟩ = .stopped ⟨0x1001⟩ (some ⟨"a.c", 1⟩) none := by
    have hline : t.index.resolveAddress ⟨0x1001⟩ = .ok ⟨"a.c", 1⟩ := by
      rw [hindex]
      decide +kernel
    have hfile : t.files.readText "a.c" = .error (FileSystem.failure .enoent) := by
      rw [hfiles]
      decide +kernel
    exact stopFeedback_of_unreadable hline hfile
  rw [hvpc, hshown] at hcontinue
  exact ⟨t, u, _, t', ht, hstands, hafter, hcontinue, hstands'⟩

end SourceDebugger
