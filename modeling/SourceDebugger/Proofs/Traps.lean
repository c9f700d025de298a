import SourceDebugger.Proofs.Coherence
import SourceDebugger.Proofs.LineTable

/-!
# Traps of the operator

While a command lets the process run, the process may execute the trap of a breakpoint that the
operator has set. The command is to stop there.

* `Session.trap_reported`: a command that continues or steps reports such a trap, and does not let
  the process go again, unless it passes over the trap.

What a command passes over is said by `Session.Passes`: a trap behind a call that it runs to its
return. There the step engine looks for the return of the call and takes a trap in an inner call for
none of its own; and where it steps into calls, it goes on behind the call as long as the line is
the same.
-/

namespace SourceDebugger

variable {σ : Type} [Tracee σ]

open Tracee in
/-- The registers of a process are what the debugger stored last, until it lets the process go. -/
class SteadyRegisters (σ : Type) [Tracee σ] : Prop where
  /-- Registers that were replaced are the new ones. -/
  registers_setRegisters {p q : σ} {regs : Registers} :
    setRegisters regs p = (.ok (), q) → registers q = .ok regs
  /-- To write to memory leaves them as they are. -/
  registers_write {p q : σ} {addr : Addr} {data : List UInt8} :
    writeMemory addr data p = (.ok (), q) → registers q = registers p

instance : SteadyRegisters Machine where
  registers_setRegisters {p q regs} h := by
    rcases hp : p.alive
    · rw [show Tracee.setRegisters regs p = _ from Machine.bind_of_ended hp] at h
      cases h
    · rw [show Tracee.setRegisters regs p = _ from Machine.bind_of_alive hp] at h
      cases h
      exact if_pos hp
  registers_write {p q addr data} h := by
    rcases hp : p.alive
    · rw [show Tracee.writeMemory addr data p = _ from Machine.bind_of_ended hp] at h
      cases h
    · rw [show Tracee.writeMemory addr data p = _ from Machine.bind_of_alive hp,
        Machine.write_apply] at h
      rcases hstore : Machine.store false addr data p.regions with e | regions <;>
        rw [hstore] at h <;> cases h
      rfl

/-! ### Events of a command -/

namespace Deed

/-- Whether the debugger could not change memory or registers. -/
def fails : Deed → Bool
  | write _ _ (.error _) | setRegisters _ (.error _) => true
  | _ => false

end Deed

namespace Event

/-- The trap that the process executed while it ran, and behind which it stands. -/
def trap? (e : Event σ) : Option Addr :=
  match e.deed with
  | .resume _ (.ok (.trap .breakpoint)) => (Tracee.pc e.after).toOption.bind (·.sub? 1)
  | _ => none

/-- Whether the instruction at an address is executed as a single step, perhaps from under a
breakpoint, which is lifted first. -/
def executes (e : Event σ) (pc : Addr) : Bool :=
  match e.deed with
  | .step _ => true
  | .write addr [_] _ => addr = pc
  | _ => false

/-- If a call is executed as a single step, where it returns to, and the stack pointer before it. -/
def call? (table : BreakpointTable) (e : Event σ) : Option (Addr × Addr) := do
  let regs ← (Tracee.registers e.before).toOption
  guard (e.executes regs.pc)
  let bytes ← (Tracee.readMemory e.before regs.pc X86.maxInstructionLength).toOption
  let info ← (InstructionInfo.decode (table.unpatch regs.pc bytes) regs.pc).toOption
  guard info.isCall
  return (regs.pc + UInt64.ofNat info.length, regs.stackPointer)

/-- A trap ends a resume, and the breakpoint is right before the program counter. -/
theorem trap?_eq_some {e : Event σ} {a : Addr} (h : e.trap? = some a) :
    (∃ signal, e.deed = .resume signal (.ok (.trap .breakpoint))) ∧
      ∃ pc, Tracee.pc e.after = .ok pc ∧ pc.sub? 1 = some a := by
  unfold trap? at h
  split at h
  · rename_i signal hdeed
    refine ⟨⟨signal, hdeed⟩, ?_⟩
    rcases hpc : Tracee.pc e.after with err | pc <;> rw [hpc] at h
    · cases h
    · exact ⟨pc, rfl, h⟩
  · cases h

/-- Only a resume can end in a trap. -/
theorem trap?_eq_none {e : Event σ}
    (h : ∀ signal, e.deed ≠ .resume signal (.ok (.trap .breakpoint))) : e.trap? = none := by
  rcases htrap : e.trap? with _ | a
  · rfl
  · obtain ⟨⟨signal, hdeed⟩, -⟩ := trap?_eq_some htrap
    exact absurd hdeed (h signal)

/-- An event executes a call if the instruction that it lets the process execute is one. -/
theorem call?_eq_some {table : BreakpointTable} {e : Event σ} {regs : Registers}
    {bytes : List UInt8} {info : InstructionInfo} (hregs : Tracee.registers e.before = .ok regs)
    (hexecutes : e.executes regs.pc = true)
    (hread : Tracee.readMemory e.before regs.pc X86.maxInstructionLength = .ok bytes)
    (hdecode : InstructionInfo.decode (table.unpatch regs.pc bytes) regs.pc = .ok info)
    (hcall : info.isCall = true) :
    e.call? table = some (regs.pc + UInt64.ofNat info.length, regs.stackPointer) := by
  simp [call?, hregs, hexecutes, hread, hdecode, hcall, Except.toOption, guard]

end Event

namespace Session

/-- Among the events since the session, a call is executed that returns to `ret`. -/
def Called (s : Session (Recorded σ)) (ret callerSp : Addr) (events : List (Event σ)) : Prop :=
  ∃ call rest, call :: rest <:+ events ∧ s.process.events <:+ rest ∧
    call.call? s.breakpoints.user = some (ret, callerSp)

/-- Whether a command passes over a trap at `a` that ends the event `e`. The trap stands behind a
call that the command runs to its return, and either an inner call returned there, or the command
steps into calls and finds the line there to be the one on which it started, or no line. -/
def Passes (s : Session (Recorded σ)) (c : Command) (e : Event σ) (earlier : List (Event σ))
    (a : Addr) : Prop :=
  ∃ callerSp, s.Called a callerSp earlier ∧
    ((c = .step ∨ c = .next) ∧
        (∃ regs, Tracee.registers e.after = .ok regs ∧ ¬ callerSp ≤ regs.stackPointer) ∨
      c = .step ∧ ∀ location, s.lineOf a = .ok location →
        ∃ pc, Tracee.pc s.process = .ok pc ∧ s.lineOf pc = .ok location)

/-- Behind every trap of the operator over which the command does not pass the process was not let
go again, and `Q` holds of what came of it. -/
def Settles (s : Session (Recorded σ)) (c : Command)
    (Q : List (Event σ) → List (Event σ) → Addr → Prop) (events : List (Event σ)) : Prop :=
  ∀ later e earlier a, events = later ++ e :: earlier → s.process.events <:+ earlier →
    s.breakpoints.user.isArmed a = true → e.trap? = some a → ¬ s.Passes c e earlier a →
    (∀ e' ∈ later, e'.deed.letsGo = false) ∧ Q later earlier a

/-- There is no trap of the operator over which the command does not pass. -/
def Clean (s : Session (Recorded σ)) (c : Command) (events : List (Event σ)) : Prop :=
  s.Settles c (fun _ _ _ => False) events

/-- Every such trap is followed by an access that failed. -/
def Broken (s : Session (Recorded σ)) (c : Command) (events : List (Event σ)) : Prop :=
  s.Settles c (fun later _ _ => ∃ e' ∈ later, e'.deed.fails = true) events

/-- Every such trap is reported by the answer, as far as no access fails behind it. -/
def Reported (s : Session (Recorded σ)) (c : Command) (r : Except DebugError Feedback)
    (t : Session (Recorded σ)) : Prop :=
  s.Settles c (fun later _ a => r = .ok (t.stopFeedback a) ∧ Tracee.pc t.process = .ok a ∨
    ∃ e' ∈ later, e'.deed.fails = true) t.process.events

section Settles

variable {s : Session (Recorded σ)} {c : Command} {events : List (Event σ)}
  {Q R : List (Event σ) → List (Event σ) → Addr → Prop}

/-- What is known behind traps may be weakened. -/
theorem Settles.mono (h : s.Settles c Q events)
    (hQ : ∀ later earlier a, s.breakpoints.user.isArmed a = true → Q later earlier a →
      R later earlier a) : s.Settles c R events :=
  fun later e earlier a hevents hnew harmed htrap hpasses =>
    (h later e earlier a hevents hnew harmed htrap hpasses).imp_right (hQ later earlier a harmed)

/-- Without a trap anything is known of what is behind one. -/
theorem Clean.settles (h : s.Clean c events) : s.Settles c Q events :=
  Settles.mono h fun _ _ _ _ => False.elim

/-- Traps that are followed by a failure count as reported, whatever the answer is. -/
theorem Broken.reported {t : Session (Recorded σ)} (h : s.Broken c t.process.events)
    (r : Except DebugError Feedback) : s.Reported c r t :=
  Settles.mono h fun _ _ _ _ => .inr

/-- Without a trap there is nothing to report. -/
theorem Clean.reported {t : Session (Recorded σ)} (h : s.Clean c t.process.events)
    (r : Except DebugError Feedback) : s.Reported c r t :=
  h.settles

/-- Nothing has happened yet. -/
theorem clean_start : s.Clean c s.process.events := by
  intro later e earlier a hevents hnew
  -- no event lies behind the start, since there are no more events than at the start
  have hlength := congrArg List.length hevents
  have hle := hnew.length_le
  rw [List.length_append, List.length_cons] at hlength
  omega

/-- Another access of the debugger. -/
theorem Settles.cons (h : s.Settles c Q events) {e : Event σ} (hdeed : e.deed.letsGo = false)
    (hQ : ∀ later earlier a, Q later earlier a → R (e :: later) earlier a) :
    s.Settles c R (e :: events) := by
  intro later e' earlier a hevents hnew harmed htrap hpasses
  rcases later with _ | ⟨first, later⟩
  -- a trap comes only from letting the process go
  · obtain ⟨rfl, rfl⟩ := List.cons.inj hevents
    obtain ⟨⟨signal, hresume⟩, -⟩ := Event.trap?_eq_some htrap
    rw [hresume] at hdeed
    cases hdeed
  · obtain ⟨rfl, rfl⟩ := List.cons.inj hevents
    obtain ⟨hlater, hq⟩ := h later e' earlier a rfl hnew harmed htrap hpasses
    refine ⟨fun e'' he => ?_, hQ later earlier a hq⟩
    rcases List.mem_cons.1 he with rfl | he
    · exact hdeed
    · exact hlater e'' he

/-- The process is let go once more. -/
theorem Clean.release (h : s.Clean c events) {e : Event σ}
    (hQ : ∀ a, s.breakpoints.user.isArmed a = true → e.trap? = some a → ¬ s.Passes c e events a →
      Q [] events a) : s.Settles c Q (e :: events) := by
  intro later e' earlier a hevents hnew harmed htrap hpasses
  rcases later with _ | ⟨first, later⟩
  · obtain ⟨rfl, rfl⟩ := List.cons.inj hevents
    exact ⟨by simp, hQ a harmed htrap hpasses⟩
  -- a trap before would have had to be reported
  · obtain ⟨rfl, rfl⟩ := List.cons.inj hevents
    exact (h later e' earlier a rfl hnew harmed htrap hpasses).2.elim

/-- An event that is no trap leaves nothing to be reported. -/
theorem Clean.cons (h : s.Clean c events) {e : Event σ} (he : e.trap? = none) :
    s.Clean c (e :: events) :=
  h.release fun a _ htrap _ => by cases he.symm.trans htrap

end Settles

/-! ### The accesses one by one -/

section Parts

open BreakpointTable

variable {s : Session (Recorded σ)} {c : Command} {u : Session (Recorded σ)}
  {Q : List (Event σ) → List (Event σ) → Addr → Prop}

/-- Events that are no traps leave nothing to be reported. -/
theorem Clean.append {events new : List (Event σ)} (h : s.Clean c events)
    (hnew : ∀ e ∈ new, e.trap? = none) : s.Clean c (new ++ events) := by
  induction new with
  | nil => exact h
  | cons e new ih =>
    exact (ih fun e' he => hnew e' (List.mem_cons_of_mem e he)).cons (hnew e List.mem_cons_self)

/-- The breakpoints of the step engine are cleared. -/
theorem clearInternal_settles [SteadyRegisters σ] (h : s.Settles c Q u.process.events)
    (hQ : ∀ e later earlier a, Q later earlier a → Q (e :: later) earlier a)
    (hdistinct : u.breakpoints.Distinct) :
    Ensures clearInternal u (Outcome
      (fun t => t.breakpoints = u.breakpoints.user ∧ t.index = u.index ∧
        u.process.events <:+ t.process.events ∧
        Tracee.registers t.process = Tracee.registers u.process ∧
        s.Settles c Q t.process.events)
      fun t => s.Broken c t.process.events) := by
  have hcleared := Debuggee.clearKind_keeps_of_distinct
    (K := fun d => u.process.events <:+ d.process.events ∧
      Tracee.registers d.process = Tracee.registers u.process ∧ s.Settles c Q d.process.events)
    (F := fun d => s.Broken c d.process.events) (fun addr d harmed hd => ?_) .internal hdistinct
    ⟨List.suffix_rfl, rfl, h⟩
  · refine Ensures.bind (R := Outcome
      (fun t => t.breakpoints = u.breakpoints.user ∧ t.index = u.index ∧
        u.process.events <:+ t.process.events ∧
        Tracee.registers t.process = Tracee.registers u.process ∧
        s.Settles c Q t.process.events)
      fun t => s.Broken c t.process.events) (ensures_onDebuggee.2 ?_)
      (fun n t ht => ensures_pure.2 ht) fun e t ht => ht
    rcases hrun : Debuggee.clearInternal u.debuggee with ⟨e | n, d⟩ <;>
      rw [show Debuggee.clearKind .internal u.debuggee = _ from hrun] at hcleared
    · exact hcleared
    · exact ⟨Debuggee.clearInternal_breakpoints hdistinct hrun, rfl, hcleared⟩
  -- one of them is cleared, or that fails
  · obtain ⟨hsuffix, hregisters, hsettles⟩ := hd
    rw [Debuggee.clearAt_apply]
    obtain ⟨b, hb⟩ := Option.isSome_iff_exists.1 harmed
    simp only [hb, Recorded.writeMemory_apply]
    rcases hw : Tracee.writeMemory addr [b.saved] d.process.process with ⟨e | _, q⟩
    · exact hsettles.cons rfl fun _ _ _ _ => ⟨_, List.mem_cons_self, rfl⟩
    · exact ⟨hsuffix.trans (List.suffix_cons _ _),
        (SteadyRegisters.registers_write (σ := σ) hw).trans hregisters,
        hsettles.cons rfl fun later earlier a => hQ _ later earlier a⟩

/-- A command is under way, and its traps are dealt with. -/
structure Going (s : Session (Recorded σ)) (c : Command) (table : BreakpointTable)
    (u : Session (Recorded σ)) : Prop where
  breakpoints : u.breakpoints = table
  index : u.index = s.index
  new : s.process.events <:+ u.process.events
  clean : s.Clean c u.process.events

/-- The step engine sets a breakpoint of its own. -/
theorem setInternal_going {table : BreakpointTable} (h : s.Going c table u) (ret : Addr) :
    Ensures (onDebuggee (Debuggee.setInternal u.index ret)) u (Outcome
      (fun t => ∃ b : Breakpoint, b.addr = ret ∧ b.kind = .internal ∧
        table.isArmed ret = false ∧ s.Going c (table ++ [b]) t ∧
        u.process.events <:+ t.process.events)
      fun t => s.Clean c t.process.events) := by
  refine ensures_onDebuggee.2 ?_
  rw [Debuggee.setInternal_apply]
  dsimp only
  generalize (u.index.resolveAddress ret).toOption.getD ⟨"", 0⟩ = location
  rw [outcome_map, Debuggee.arm_apply, Recorded.readExact_eq]
  by_cases harmed : u.debuggee.breakpoints.isArmed ret = true
  · rw [if_pos harmed]
    exact h.clean
  rw [if_neg harmed]
  rcases Tracee.readExact u.debuggee.process.process ret 1 with e | bytes
  · exact h.clean
  rw [Recorded.writeMemory_apply]
  rcases Tracee.writeMemory ret [trapByte] u.debuggee.process.process with ⟨e | _, q⟩
  -- the breakpoint is in the table, and nothing has trapped on it yet
  · exact h.clean.cons rfl
  · refine ⟨⟨ret, bytes.headD 0, location.file, location.line, .internal⟩, rfl, rfl, ?_,
      ⟨?_, h.index, ?_, ?_⟩, List.suffix_cons _ _⟩
    · rw [← h.breakpoints]
      exact Bool.eq_false_iff.2 harmed
    · exact congrArg (· ++ _) h.breakpoints
    · exact h.new.trans (List.suffix_cons _ _)
    · exact h.clean.cons rfl

/-- What is executed from under a breakpoint is seen as a few events, none of which is a trap after
a run. The first one lifts the breakpoint. -/
theorem withDisarmed_events (addr : Addr) (d : Debuggee (Recorded σ)) :
    ∃ new, (Debuggee.withDisarmed addr Tracee.singleStep d).2.process.events =
        new ++ d.process.events ∧
      (Debuggee.withDisarmed addr Tracee.singleStep d).2.breakpoints = d.breakpoints ∧
      (∀ e ∈ new, e.trap? = none) ∧
      ∀ stop, (Debuggee.withDisarmed addr Tracee.singleStep d).1 = .ok stop →
        ∃ later first, new = later ++ [first] ∧ first.before = d.process.process ∧
          first.executes addr = true := by
  rw [Debuggee.withDisarmed_apply]
  rcases d.breakpoints.locate? addr with _ | b
  · exact ⟨[], rfl, rfl, by simp, by simp⟩
  simp only [Recorded.writeMemory_apply, Recorded.singleStep_apply, Recorded.isAlive_eq,
    Recorded.next]
  rcases Tracee.writeMemory addr [b.saved] d.process.process with ⟨e | _, lifted⟩
  · exact ⟨[_], rfl, rfl, by simp [Event.trap?], by simp⟩
  dsimp only
  -- the trap is put back unless the process is gone
  split
  · exact ⟨[_, _, _], rfl, rfl, by simp [Event.trap?],
      fun _ _ => ⟨[_, _], _, rfl, rfl, by simp [Event.executes]⟩⟩
  · exact ⟨[_, _], rfl, rfl, by simp [Event.trap?],
      fun _ _ => ⟨[_], _, rfl, rfl, by simp [Event.executes]⟩⟩

/-- The instruction under a breakpoint is executed. -/
theorem stepOver_going {table : BreakpointTable} (h : s.Going c table u) (addr : Addr) :
    Ensures (stepOverBreakpoint addr) u fun r t => s.Going c table t ∧
      u.process.events <:+ t.process.events ∧
      ∀ stop, r = .ok stop → ∃ first, first :: u.process.events <:+ t.process.events ∧
        first.before = u.process.process ∧ first.executes addr = true := by
  obtain ⟨new, hevents, htable, hquiet, hfirst⟩ := withDisarmed_events addr u.debuggee
  refine ensures_onDebuggee.2 ⟨⟨htable.trans h.breakpoints, h.index, ?_, ?_⟩, ?_, fun stop hr => ?_⟩
  · exact h.new.trans ⟨new, hevents.symm⟩
  · show s.Clean c (Debuggee.withDisarmed addr Tracee.singleStep u.debuggee).2.process.events
    rw [hevents]
    exact h.clean.append hquiet
  · exact ⟨new, hevents.symm⟩
  · obtain ⟨later, first, rfl, hbefore, hdeed⟩ := hfirst stop hr
    rw [List.append_assoc] at hevents
    exact ⟨first, ⟨later, hevents.symm⟩, hbefore, hdeed⟩

/-- One instruction is executed. -/
theorem stepOnce_going {table : BreakpointTable} (h : s.Going c table u) :
    Ensures stepOnce u fun r t => s.Going c table t ∧
      ∀ stop, r = .ok stop → ∃ first pc, first :: u.process.events <:+ t.process.events ∧
        first.before = u.process.process ∧ Tracee.pc u.process.process = .ok pc ∧
        first.executes pc = true := by
  refine ensures_observe_bind.2 ?_
  rcases hpc : Tracee.pc u.process with e | pc
  · exact ⟨h, by simp⟩
  refine ensures_get_bind.2 (ensures_ite.2 ⟨fun _ => ?_, fun _ => ?_⟩)
  · refine (stepOver_going h pc).mono fun r t ⟨hgoing, _, hfirst⟩ => ⟨hgoing, fun stop hr => ?_⟩
    obtain ⟨first, hsuffix, hbefore, hdeed⟩ := hfirst stop hr
    exact ⟨first, pc, hsuffix, hbefore, hpc, hdeed⟩
  · refine ensures_onDebuggee.2 ?_
    rw [Debuggee.onProcess_apply, Recorded.singleStep_apply]
    refine ⟨⟨h.breakpoints, h.index, h.new.trans (List.suffix_cons _ _), ?_⟩, fun stop hr => ?_⟩
    · exact h.clean.cons rfl
    · exact ⟨_, pc, List.suffix_rfl, rfl, hpc, rfl⟩

/-- The process was let go and stopped. -/
structure Stopped (s : Session (Recorded σ)) (c : Command) (table : BreakpointTable)
    (earlier : List (Event σ)) (e : Event σ) (u : Session (Recorded σ)) : Prop where
  breakpoints : u.breakpoints = table
  index : u.index = s.index
  new : s.process.events <:+ earlier
  clean : s.Clean c earlier
  events : u.process.events = e :: earlier
  after : e.after = u.process.process

/-- A resume adds one event, and the process is in the state behind it. -/
theorem resume_stopped {table : BreakpointTable} (h : s.Going c table u) :
    Ensures resumeProcess u fun r t => ∃ signal e, e.deed = .resume signal r ∧
      s.Stopped c table u.process.events e t := by
  intro r t hresume
  simp only [resumeProcess, Recorded.resume_apply] at hresume
  rcases hr : Tracee.resume u.pendingSignal u.process.process with _ | ⟨r', q⟩
  · simp [hr] at hresume
  simp only [hr, Option.map_some] at hresume
  cases hresume
  exact ⟨_, _, rfl, h.breakpoints, h.index, h.new, h.clean, rfl, rfl⟩

/-- Unless the stop is a trap, there is nothing to report. -/
theorem Stopped.going {table : BreakpointTable} {earlier : List (Event σ)} {e : Event σ}
    (h : s.Stopped c table earlier e u) {signal : Option Signal} {r : Except DebugError Stop}
    (hdeed : e.deed = .resume signal r) (hr : r ≠ .ok (.trap .breakpoint)) :
    s.Going c table u where
  breakpoints := h.breakpoints
  index := h.index
  new := by
    rw [h.events]
    exact h.new.trans (List.suffix_cons _ _)
  clean := by
    rw [h.events]
    refine h.clean.cons (Event.trap?_eq_none fun signal' heq => hr ?_)
    rw [hdeed] at heq
    cases heq
    rfl

variable [SteadyRegisters σ] {table : BreakpointTable} {earlier : List (Event σ)} {e : Event σ}

/-- The program counter of the process is set, or that fails. -/
theorem setPc_settles {regs : Registers} (hregs : Tracee.registers u.process = .ok regs)
    (h : s.Settles c Q u.process.events)
    (hQ : ∀ e later earlier a, Q later earlier a → Q (e :: later) earlier a) (pc : Addr) :
    Ensures (onProcess (Tracee.setPc pc)) u (Outcome
      (fun t => t.breakpoints = u.breakpoints ∧ t.index = u.index ∧
        u.process.events <:+ t.process.events ∧
        Tracee.registers t.process = .ok (regs.setPc pc) ∧ s.Settles c Q t.process.events)
      fun t => s.Broken c t.process.events) := by
  refine ensures_onDebuggee.2 ?_
  rw [Debuggee.onProcess_apply, Recorded.setPc_apply,
    show Tracee.registers u.debuggee.process.process = .ok regs from hregs]
  dsimp only
  rcases hset : Tracee.setRegisters (regs.setPc pc) u.debuggee.process.process with ⟨err | _, q⟩
  · exact h.cons rfl fun _ _ _ _ => ⟨_, List.mem_cons_self, rfl⟩
  · exact ⟨rfl, rfl, List.suffix_cons _ _, SteadyRegisters.registers_setRegisters (σ := σ) hset,
      h.cons rfl fun later earlier a => hQ _ later earlier a⟩

/-- The process executed a trap, and stands at the breakpoint if there is one. -/
structure Rewound (s : Session (Recorded σ)) (c : Command) (table : BreakpointTable)
    (earlier : List (Event σ)) (e : Event σ) (pc : Addr) (t : Session (Recorded σ)) : Prop where
  breakpoints : t.breakpoints = table
  index : t.index = s.index
  new : e :: earlier <:+ t.process.events
  stands : Tracee.pc t.process = .ok pc
  stackPointer : ∃ regs regs', Tracee.registers e.after = .ok regs ∧
    Tracee.registers t.process = .ok regs' ∧ regs'.stackPointer = regs.stackPointer
  settles : s.Settles c (fun _ before a => a = pc ∧ before = earlier ∧ ¬ s.Passes c e earlier a)
    t.process.events

omit [SteadyRegisters σ] in
/-- The process stands behind the trap that it executed. -/
theorem Stopped.pc_of_trap (h : s.Stopped c table earlier e u) {a : Addr}
    (htrap : e.trap? = some a) : ∃ pc, Tracee.pc u.process = .ok pc ∧ pc.sub? 1 = some a := by
  obtain ⟨-, pc, hafter, hsub⟩ := Event.trap?_eq_some htrap
  rw [h.after] at hafter
  exact ⟨pc, hafter, hsub⟩

omit [SteadyRegisters σ] in
/-- Without a breakpoint before the program counter there is nothing to report. -/
theorem Stopped.rewound (h : s.Stopped c table earlier e u)
    (hcovers : ∀ a, s.breakpoints.user.isArmed a = true → table.isArmed a = true)
    {regs : Registers} (hregs : Tracee.registers u.process = .ok regs)
    (hfree : ∀ a, regs.pc.sub? 1 = some a → table.isArmed a = false) :
    s.Rewound c table earlier e regs.pc u := by
  have hpc : Tracee.pc u.process = .ok regs.pc := by
    rw [Tracee.pc, hregs]
    rfl
  refine ⟨h.breakpoints, h.index, h.events ▸ List.suffix_rfl, hpc,
    ⟨regs, regs, h.after ▸ hregs, hregs, rfl⟩, ?_⟩
  rw [h.events]
  refine h.clean.release fun a harmed htrap _ => ?_
  obtain ⟨pc, hpc', hsub⟩ := h.pc_of_trap htrap
  cases hpc.symm.trans hpc'
  cases (hfree a hsub).symm.trans (hcovers a harmed)

/-- If the process trapped at a breakpoint of the operator, the program counter is moved back onto
it, unless an access fails. -/
theorem rewind_stopped (h : s.Stopped c table earlier e u)
    (hcovers : ∀ a, s.breakpoints.user.isArmed a = true → table.isArmed a = true) :
    Ensures rewindAfterTrap u fun r t => match r with
      | .error _ => s.Broken c t.process.events
      | .ok pc => s.Rewound c table earlier e pc t := by
  refine ensures_observe_bind.2 ?_
  -- without registers no trap can be said to have been taken back, and none was reported
  rcases hregs : Tracee.registers u.process with err | regs
  · have hpc : Tracee.pc u.process = .error err := by
      rw [Tracee.pc, hregs]
      rfl
    rw [hpc]
    refine (h.events ▸ h.clean.release fun a _ htrap _ => ?_ : s.Broken c u.process.events)
    obtain ⟨pc, hpc', -⟩ := h.pc_of_trap htrap
    cases hpc.symm.trans hpc'
  have hpc : Tracee.pc u.process = .ok regs.pc := by
    rw [Tracee.pc, hregs]
    rfl
  rw [hpc]
  -- the place before the pc is either armed, so the trap is taken back, or free
  dsimp only
  split
  · rename_i at_ hsub
    refine ensures_get_bind.2 (ensures_ite.2 ⟨fun harmed => ?_, fun hfree => ensures_pure.2 ?_⟩)
    · have hsettles : s.Settles c
          (fun _ before a => a = at_ ∧ before = earlier ∧ ¬ s.Passes c e earlier a)
          u.process.events := by
        rw [h.events]
        refine h.clean.release fun a _ htrap hpasses => ⟨?_, rfl, hpasses⟩
        obtain ⟨pc, hpc', hsub'⟩ := h.pc_of_trap htrap
        cases hpc.symm.trans hpc'
        exact Option.some.inj (hsub'.symm.trans hsub)
      refine (setPc_settles hregs hsettles (fun _ _ _ _ => id) at_).bind ?_ fun err t ht => ht
      rintro _ t ⟨htable, hindex, hsuffix, hregs', hsettles'⟩
      refine ensures_pure.2 ⟨htable.trans h.breakpoints, hindex.trans h.index,
        h.events ▸ hsuffix, ?_, ⟨regs, _, h.after ▸ hregs, hregs', ?_⟩, hsettles'⟩
      · rw [Tracee.pc, hregs']
        exact congrArg Except.ok (Registers.pc_setPc regs at_)
      -- the stack pointer is not touched by setting the pc
      · rw [Registers.stackPointer, Registers.stackPointer, Registers.setPc,
          Registers.get_set_of_ne _ _ (by decide)]
    -- no trap happened at a place that is not armed
    · refine h.rewound hcovers hregs fun a ha => ?_
      cases hsub.symm.trans ha
      rw [← h.breakpoints]
      exact Bool.eq_false_iff.2 hfree
  · rename_i hsub
    refine ensures_pure.2 (h.rewound hcovers hregs fun a ha => ?_)
    cases hsub.symm.trans ha

/-- The answer to a trap reports it. -/
theorem stopped_reports (h : s.Stopped c table earlier e u)
    (hcovers : ∀ a, s.breakpoints.user.isArmed a = true → table.isArmed a = true) :
    Ensures (stopped (.trap .breakpoint)) u fun r t => s.Reported c r t := by
  refine (rewind_stopped h hcovers).bind (fun pc t ht => ?_) fun err t ht => Broken.reported ht _
  refine ensures_reading.2 (ht.settles.mono fun _ _ a _ ⟨ha, _⟩ => .inl ?_)
  rw [ha]
  exact ⟨rfl, ht.stands⟩

omit [SteadyRegisters σ] in
/-- Where there is nothing to report, the answer to a stop leaves nothing to be reported. -/
theorem stopped_clean (stop : Stop) (h : s.Clean c u.process.events) :
    Ensures (stopped stop) u fun _ t => s.Clean c t.process.events := by
  let K : Session (Recorded σ) → Prop := fun t => s.Clean c t.process.events
  rcases stop with kind | sig | code | sig
  · rcases kind with _ | _ | _
    · refine Ensures.bind_keeps (K := K) ?_ fun pc t ht => ensures_reading.2 ht
      intro r t hrewind
      rcases rewindAfterTrap_cases hrewind with ⟨err, -, rfl, -⟩ | ⟨pc, -, rfl, -⟩ |
        ⟨pc, a, -, -, -, rfl, -⟩
      · exact h
      · exact h
      -- the registers are replaced, which is no trap
      · show s.Clean c (Debuggee.onProcess (Tracee.setPc a) u.debuggee).2.process.events
        rw [Debuggee.onProcess_apply, Recorded.setPc_apply]
        rcases Tracee.registers u.debuggee.process.process with err | regs
        · exact h
        · exact h.cons rfl
    all_goals
      exact Ensures.bind_keeps (K := K) (ensures_observe.2 h) fun pc t ht => ensures_reading.2 ht
  · refine Ensures.bind_keeps (K := K) (ensures_modify.2 h) fun _ t ht => ?_
    exact Ensures.bind_keeps (K := K) (ensures_observe.2 ht) fun pc t ht => ensures_pure.2 ht
  all_goals
    refine Ensures.bind_keeps (K := K) (ensures_modify.2 h) fun _ t ht => ?_
    exact ensures_get_bind.2 (ensures_pure.2 ht)

/-- However the process stops, the stop is answered so that a trap is reported. -/
theorem resume_reports (h : s.Going c table u)
    (hcovers : ∀ a, s.breakpoints.user.isArmed a = true → table.isArmed a = true) :
    Ensures (do stopped (← resumeProcess)) u fun r t => s.Reported c r t := by
  refine (resume_stopped h).bind (fun stop t ⟨signal, e, hdeed, ht⟩ => ?_)
    fun err t ⟨signal, e, hdeed, ht⟩ => (ht.going hdeed (by simp)).clean.settles
  by_cases hstop : stop = .trap .breakpoint
  · rw [hstop]
    exact stopped_reports ht hcovers
  · exact (stopped_clean stop (ht.going hdeed (by simpa using hstop)).clean).mono
      fun r t ht => ht.reported r

end Parts

/-! ### Running a call to its return -/

section Calls

open BreakpointTable

variable [SteadyRegisters σ] {s : Session (Recorded σ)} {c : Command} {u : Session (Recorded σ)}
  {table : BreakpointTable} {ret callerSp : Addr}

omit [SteadyRegisters σ] in
/-- A call that was executed stays executed. -/
theorem Called.mono {events events' : List (Event σ)} (h : s.Called ret callerSp events)
    (hsuffix : events <:+ events') : s.Called ret callerSp events' := by
  obtain ⟨call, rest, hcall, hnew, hcalls⟩ := h
  exact ⟨call, rest, hcall.trans hsuffix, hnew, hcalls⟩

/-- What is known of a trap of the operator after a call was run. Either the process is back from
the call, and stands at the trap, or the trap is the stop that ended the run. -/
def BackAt (s : Session (Recorded σ)) (c : Command) (ret callerSp : Addr)
    (pc : Except DebugError Addr) (outcome : Option Stop) (earlier : List (Event σ)) (a : Addr) :
    Prop :=
  pc = .ok a ∧ match outcome with
    | none => a = ret ∧ s.Called ret callerSp earlier ∧ ∃ e, ¬ s.Passes c e earlier a
    | some stop => stop = .trap .breakpoint

/-- A call was run to its return, or something else stopped the process. -/
structure Ran (s : Session (Recorded σ)) (c : Command) (table : BreakpointTable)
    (ret callerSp : Addr) (outcome : Option Stop) (u : Session (Recorded σ)) : Prop where
  breakpoints : u.breakpoints = table
  index : u.index = s.index
  new : s.process.events <:+ u.process.events
  pc : outcome = none → Tracee.pc u.process = .ok ret
  settles : s.Settles c (fun _ => s.BackAt c ret callerSp (Tracee.pc u.process) outcome)
    u.process.events

omit [SteadyRegisters σ] in
/-- Any stop may end a run, as long as no trap is left to be reported. -/
theorem Going.ran (h : s.Going c table u) (stop : Stop) :
    s.Ran c table ret callerSp (some stop) u :=
  ⟨h.breakpoints, h.index, h.new, nofun, h.clean.settles⟩

/-- How a way back from a call ends, unless an access fails. -/
def AfterBack (s : Session (Recorded σ)) (c : Command) (table : BreakpointTable)
    (ret callerSp : Addr) : Except DebugError (Option Stop) → Session (Recorded σ) → Prop
  | .error _, t => s.Broken c t.process.events
  | .ok outcome, t => s.Ran c table ret callerSp outcome t

/-- The process trapped on the way back, and goes on if an inner call is back. -/
theorem backOnward_afterBack {earlier : List (Event σ)} {e : Event σ}
    (h : s.Stopped c table earlier e u)
    (hcovers : ∀ a, s.breakpoints.user.isArmed a = true → table.isArmed a = true)
    (hc : c = .step ∨ c = .next) (hcalled : s.Called ret callerSp earlier) {fuel : Nat}
    (hagain : ∀ t, s.Going c table t → earlier <:+ t.process.events →
      Ensures (runBack ret callerSp fuel) t (s.AfterBack c table ret callerSp)) :
    Ensures (backOnward ret callerSp fuel) u (s.AfterBack c table ret callerSp) := by
  refine (rewind_stopped h hcovers).bind ?_ fun err t ht => ht
  rintro pc t ⟨htable, hindex, hsuffix, hpc, ⟨regs, regs', hregs, hregs', hsp⟩, hsettles⟩
  have hafter : earlier <:+ t.process.events := (List.suffix_cons _ _).trans hsuffix
  -- the process stands at another breakpoint, or it is back
  refine ensures_ite.2 ⟨fun _ => ensures_pure.2 ?_, fun hback => ?_⟩
  · refine ⟨htable, hindex, h.new.trans hafter, nofun, hsettles.mono ?_⟩
    rintro _ _ a _ ⟨rfl, -, -⟩
    exact ⟨hpc, rfl⟩
  obtain rfl : pc = ret := Decidable.not_not.1 hback
  refine ensures_observe_bind.2 ?_
  rw [show Tracee.registers t.process = .ok regs' from hregs']
  refine ensures_ite.2 ⟨fun _ => ensures_pure.2 ?_, fun hdeep => ?_⟩
  · refine ⟨htable, hindex, h.new.trans hafter, fun _ => hpc, hsettles.mono ?_⟩
    rintro _ _ a _ ⟨rfl, rfl, hpasses⟩
    exact ⟨hpc, rfl, hcalled, e, hpasses⟩
  -- an inner call is back, and the command passes over the trap
  have hgoing : s.Going c table t := by
    refine ⟨htable, hindex, h.new.trans hafter, hsettles.mono ?_⟩
    rintro _ _ a _ ⟨rfl, rfl, hpasses⟩
    refine hpasses ⟨callerSp, hcalled, .inl ⟨hc, regs, hregs, ?_⟩⟩
    rw [← hsp]
    exact hdeep
  refine (stepOver_going hgoing pc).bind (fun stop v ⟨hv, hsuffix', _⟩ => ?_)
    fun err v ⟨hv, _⟩ => hv.clean.settles
  exact ensures_ite.2 ⟨fun _ => ensures_pure.2 (hv.ran stop),
    fun _ => hagain v hv (hafter.trans hsuffix')⟩

/-- A run back passes over the returns of inner calls, and ends at any other breakpoint. -/
theorem runBack_afterBack (h : s.Going c table u)
    (hcovers : ∀ a, s.breakpoints.user.isArmed a = true → table.isArmed a = true)
    (hc : c = .step ∨ c = .next) (hcalled : s.Called ret callerSp u.process.events) (fuel : Nat) :
    Ensures (runBack ret callerSp fuel) u (s.AfterBack c table ret callerSp) := by
  -- the process is let go once for each inner call that is back
  induction fuel generalizing u with
  | zero => exact ensures_diverge
  | succ fuel ih =>
    refine (resume_stopped h).bind (fun stop t ⟨signal, e, hdeed, ht⟩ => ?_)
      fun err t ⟨signal, e, hdeed, ht⟩ => (ht.going hdeed (by simp)).clean.settles
    refine ensures_ite.2 ⟨fun hstop => ensures_pure.2 ?_, fun hstop => ?_⟩
    · exact (ht.going hdeed (by simpa using hstop)).ran stop
    rw [Decidable.not_not.1 hstop]
    exact backOnward_afterBack ht hcovers hc hcalled fun v hv hsuffix =>
      ih hv (hcalled.mono hsuffix)

/-- Without the breakpoint of the step engine behind the call. -/
theorem Ran.takenBack {outcome : Option Stop} (h : s.Ran c table ret callerSp outcome u)
    (hdistinct : table.Distinct) :
    Ensures takeBack u (Outcome (s.Ran c table.user ret callerSp outcome)
      fun t => s.Broken c t.process.events) := by
  refine ensures_get_bind.2 (ensures_ite.2 ⟨fun _ => ?_, fun _ => ?_⟩)
  · refine (clearInternal_settles h.settles (fun _ _ _ _ => id)
      (h.breakpoints ▸ hdistinct)).mono ?_
    rintro (err | _) t ht
    · exact ht
    · obtain ⟨htable, hindex, hsuffix, hregisters, hsettles⟩ := ht
      have hpc : Tracee.pc t.process = Tracee.pc u.process := by
        rw [Tracee.pc, Tracee.pc, hregisters]
      exact ⟨htable.trans (congrArg BreakpointTable.user h.breakpoints), hindex.trans h.index,
        h.new.trans hsuffix, fun ho => hpc.trans (h.pc ho), hpc ▸ hsettles⟩
  · exact ensures_modify.2
      ⟨congrArg BreakpointTable.user h.breakpoints, h.index, h.new, h.pc, h.settles⟩

/-- How a run to the return of a call ends. -/
def AfterRun (s : Session (Recorded σ)) (c : Command) (ret callerSp : Addr) :
    Except DebugError (Option Feedback) → Session (Recorded σ) → Prop
  | .error _, t => s.Broken c t.process.events
  | .ok none, t => s.Ran c s.breakpoints.user ret callerSp none t
  | .ok (some feedback), t => s.Reported c (.ok feedback) t

omit [SteadyRegisters σ] in
/-- A trap that ended the run is reported by its answer. -/
theorem answerFor_afterRun {outcome : Option Stop}
    (h : s.Ran c s.breakpoints.user ret callerSp outcome u) :
    Ensures (answerFor outcome) u (s.AfterRun c ret callerSp) := by
  unfold answerFor
  -- without an outcome the command goes on; a trap is answered, every other stop is shown
  split
  · exact ensures_pure.2 h
  · refine ensures_observe_bind.2 ?_
    rcases hpc : Tracee.pc u.process with err | pc
    -- the pc can not be read, so no trap was taken back to it
    · refine h.settles.mono ?_
      rintro _ _ a _ ⟨hpc', -⟩
      cases hpc.symm.trans hpc'
    · refine ensures_get_bind.2 (ensures_pure.2 (h.settles.mono ?_))
      rintro _ _ a _ ⟨hpc', -⟩
      cases hpc.symm.trans hpc'
      exact .inl ⟨rfl, hpc⟩
  · rename_i stop hstop
    have hclean : s.Clean c u.process.events := by
      refine h.settles.mono ?_
      rintro _ _ a _ ⟨-, htrap⟩
      exact hstop htrap
    exact (stopped_clean stop hclean).bind (fun feedback t ht => ensures_pure.2 (ht.reported _))
      fun err t ht => ht.settles

/-- A run to a return reports the trap that ended it, if there was one. -/
theorem runToReturn_afterRun (h : s.Going c s.breakpoints.user u)
    (hdistinct : s.breakpoints.Distinct) (hc : c = .step ∨ c = .next)
    (hcalled : s.Called ret callerSp u.process.events) (fuel : Nat) :
    Ensures (runToReturn fuel ret callerSp) u (s.AfterRun c ret callerSp) := by
  have hown_distinct : s.breakpoints.user.Distinct := hdistinct.sublist (List.filter_sublist.map _)
  rw [ensures_runToReturn]
  refine ⟨fun _ => ?_, fun _ => ?_⟩
  · refine (setInternal_going h ret).bind ?_ fun err t ht => ht.settles
    rintro _ t ⟨b, rfl, hkind, hfree, ht, hsuffix⟩
    -- what traps at the operator's own is covered by the table with the temporary one
    have hcovers : ∀ a, s.breakpoints.user.isArmed a = true →
        isArmed (s.breakpoints.user ++ [b]) a = true := by
      intro a ha
      rw [isArmed_append, ha, Bool.true_or]
    have hboth : (s.breakpoints.user ++ [b] : BreakpointTable).user = s.breakpoints.user := by
      rw [user_append_internal hkind, user_user]
    refine (runBack_afterBack ht hcovers hc (hcalled.mono hsuffix) fuel).bind
      (fun outcome v hv => ?_) fun err v hv => hv
    -- the temporary breakpoint was free, so clearing it gives the operator's own table again
    refine (hv.takenBack (hown_distinct.append hfree)).bind (fun _ w hw => ?_) fun err w hw => hw
    rw [hboth] at hw
    exact answerFor_afterRun hw
  · exact (runBack_afterBack h (fun _ => id) hc hcalled fuel).bind
      (fun outcome v hv => answerFor_afterRun hv) fun err v hv => hv

end Calls

/-! ### Whole commands -/

section Commands

open BreakpointTable

variable [SteadyRegisters σ] {s : Session (Recorded σ)} {c : Command} {u : Session (Recorded σ)}
  {start : SourceLocation}

omit [SteadyRegisters σ] in
/-- A call was executed as a single step. -/
theorem called_of_step {regs : Registers} {info : InstructionInfo} {bytes : List UInt8}
    {t : Session (Recorded σ)} {first : Event σ} {pc : Addr}
    (h : s.Going c s.breakpoints.user u) (hregs : Tracee.registers u.process = .ok regs)
    (hread : Tracee.readMemory u.process regs.pc X86.maxInstructionLength = .ok bytes)
    (hdecode : InstructionInfo.decode (u.breakpoints.unpatch regs.pc bytes) regs.pc = .ok info)
    (hcall : info.isCall = true) (hsuffix : first :: u.process.events <:+ t.process.events)
    (hbefore : first.before = u.process.process) (hpc : Tracee.pc u.process.process = .ok pc)
    (hexecutes : first.executes pc = true) :
    s.Called (regs.pc + UInt64.ofNat info.length) regs.stackPointer t.process.events := by
  -- the instruction of the first event is the one that was decoded before
  have hpc' : pc = regs.pc := by
    rw [Tracee.pc, show Tracee.registers u.process.process = _ from hregs] at hpc
    exact (Except.ok.inj hpc).symm
  rw [h.breakpoints] at hdecode
  refine ⟨first, u.process.events, hsuffix, h.new, Event.call?_eq_some ?_ (hpc' ▸ hexecutes) ?_
    hdecode hcall⟩
  · rw [hbefore]
    exact hregs
  · rw [hbefore]
    exact hread

omit [SteadyRegisters σ] in
/-- Behind an instruction, which may have been a call. -/
theorem instructionThen_reports {onward : Registers → InstructionInfo → Task (Recorded σ) Feedback}
    (h : s.Going c s.breakpoints.user u)
    (honward : ∀ regs info v, s.Going c s.breakpoints.user v →
      (info.isCall = true → s.Called (regs.pc + UInt64.ofNat info.length) regs.stackPointer
        v.process.events) → Ensures (onward regs info) v fun r t => s.Reported c r t) :
    Ensures (instructionThen onward) u fun r t => s.Reported c r t := by
  refine ensures_observe_bind.2 ?_
  rcases hregs : Tracee.registers u.process with err | regs
  · exact h.clean.reported _
  refine (instructionAt_decodes regs.pc u).bind ?_ fun err t ⟨ht, _⟩ => ht ▸ h.clean.reported _
  rintro info _ ⟨rfl, hinfo⟩
  obtain ⟨bytes, hread, hdecode⟩ := hinfo info rfl
  refine (stepOnce_going h).bind (fun stop v ⟨hv, hfirst⟩ => ?_)
    fun err v ⟨hv, _⟩ => hv.clean.reported _
  obtain ⟨first, pc, hsuffix, hbefore, hpc, hexecutes⟩ := hfirst stop rfl
  refine ensures_ite.2 ⟨fun _ => (stopped_clean stop hv.clean).mono fun r t ht => ht.reported r,
    -- a stop on the way is shown at once; otherwise the callee has been entered if it was a call
    fun _ => honward regs info v hv fun hcall => ?_⟩
  exact called_of_step h hregs hread hdecode hcall hsuffix hbefore hpc hexecutes

omit [SteadyRegisters σ] in
/-- To stop where the process stands reports the trap there. -/
theorem Ran.reported {ret callerSp : Addr} {t : Session (Recorded σ)}
    (h : s.Ran c s.breakpoints.user ret callerSp none t) :
    s.Reported c (.ok (t.stopFeedback ret)) t := by
  refine h.settles.mono ?_
  rintro _ _ a _ ⟨hpc, rfl, -⟩
  exact .inl ⟨rfl, hpc⟩

omit [SteadyRegisters σ] in
/-- A command that steps into calls passes over a trap behind one as long as the line is the
same. -/
theorem Ran.going {ret callerSp : Addr} {t : Session (Recorded σ)}
    (h : s.Ran .step s.breakpoints.user ret callerSp none t)
    (hstart : ∃ pc, Tracee.pc s.process = .ok pc ∧ s.lineOf pc = .ok start)
    (hline : ∀ location, t.lineOf ret = .ok location → location = start) :
    s.Going .step s.breakpoints.user t := by
  refine ⟨h.breakpoints, h.index, h.new, h.settles.mono ?_⟩
  rintro _ _ a _ ⟨hpc, rfl, hcalled, e, hpasses⟩
  refine hpasses ⟨callerSp, hcalled, .inr ⟨rfl, fun location hlocation => ?_⟩⟩
  rw [hline location (by rw [lineOf, h.index]; exact hlocation)]
  exact hstart

/-- Steps up to another line report every trap of the operator but those over which the command
passes. -/
theorem stepFrom_reports (hdistinct : s.breakpoints.Distinct)
    (hstart : ∃ pc, Tracee.pc s.process = .ok pc ∧ s.lineOf pc = .ok start)
    (h : s.Going .step s.breakpoints.user u) (fuel : Nat) :
    Ensures (stepFrom start fuel) u fun r t => s.Reported .step r t := by
  -- each round leaves nothing to be reported, or ends
  induction fuel generalizing u with
  | zero => exact ensures_diverge
  | succ fuel ih =>
    refine instructionThen_reports h fun regs info v hv hcalled => ?_
    refine Ensures.bind (R := fun _ t => t = v) (ensures_observe.2 rfl) ?_
      fun err t ht => ht ▸ hv.clean.reported _
    rintro pc' _ rfl
    refine ensures_get_bind.2 ?_
    split
    · exact ensures_ite.2 ⟨fun _ => ensures_reading.2 (hv.clean.reported _), fun _ => ih hv⟩
    refine ensures_ite.2 ⟨fun _ => ensures_reading.2 (hv.clean.reported _), fun hcall => ?_⟩
    -- the call went into code without lines, which is run until it is back
    have hback := runToReturn_afterRun hv hdistinct (.inl rfl) (hcalled (by simpa using hcall)) fuel
    refine hback.bind ?_ fun err w hw => Broken.reported hw _
    rintro (_ | feedback) w hw
    · refine ensures_observe_bind.2 ?_
      rw [hw.pc rfl]
      refine ensures_get_bind.2 ?_
      rcases hline : w.lineOf (regs.pc + UInt64.ofNat info.length) with err | location
      · exact ih (hw.going hstart fun location hlocation => by cases hline.symm.trans hlocation)
      refine ensures_ite.2 ⟨fun _ => ensures_reading.2 hw.reported, fun hsame => ih ?_⟩
      refine hw.going hstart fun location' hlocation => ?_
      rw [← Except.ok.inj (hline.symm.trans hlocation)]
      exact Decidable.not_not.1 hsame
    · exact ensures_pure.2 hw

/-- Behind an instruction, or behind a call: every trap of the operator is where the process
stands. -/
structure Onward (s : Session (Recorded σ)) (u : Session (Recorded σ)) : Prop where
  breakpoints : u.breakpoints = s.breakpoints.user
  index : u.index = s.index
  new : s.process.events <:+ u.process.events
  settles : s.Settles .next (fun _ _ a => Tracee.pc u.process = .ok a) u.process.events

omit [SteadyRegisters σ] in
/-- One round of steps over calls reports its trap if the rounds behind it do. -/
theorem nextOnward_reports {fuel : Nat} (h : s.Onward u)
    (hnext : ∀ t, s.Going .next s.breakpoints.user t →
      Ensures (nextFrom start fuel) t fun r t => s.Reported .next r t) :
    Ensures (nextOnward start fuel) u fun r t => s.Reported .next r t := by
  refine ensures_observe_bind.2 ?_
  rcases hpc : Tracee.pc u.process with err | pc
  · refine h.settles.mono ?_
    rintro _ _ a _ hpc'
    cases hpc.symm.trans hpc'
  refine ensures_get_bind.2 (ensures_ite.2 ⟨fun _ => ensures_reading.2 (h.settles.mono ?_),
    fun hfree => ?_⟩)
  · rintro _ _ a _ hpc'
    cases hpc.symm.trans hpc'
    exact .inl ⟨rfl, hpc⟩
  -- without a breakpoint here there is nothing to report
  have hgoing : s.Going .next s.breakpoints.user u := by
    refine ⟨h.breakpoints, h.index, h.new, h.settles.mono ?_⟩
    rintro _ _ a harmed hpc'
    cases hpc.symm.trans hpc'
    obtain ⟨b, hb, rfl⟩ := isArmed_iff.1 harmed
    refine hfree (List.any_eq_true.2 ⟨b, List.mem_filter.2 ⟨h.breakpoints ▸ hb, ?_⟩, by simp⟩)
    exact (List.mem_filter.1 hb).2
  refine ensures_get_bind.2 ?_
  split
  · exact ensures_ite.2 ⟨fun _ => hnext u hgoing,
      fun _ => ensures_reading.2 (hgoing.clean.reported _)⟩
  · exact ensures_reading.2 (hgoing.clean.reported _)

/-- Steps over calls up to another line report every trap of the operator but those over which the
command passes. -/
theorem nextFrom_reports (hdistinct : s.breakpoints.Distinct)
    (h : s.Going .next s.breakpoints.user u) (fuel : Nat) :
    Ensures (nextFrom start fuel) u fun r t => s.Reported .next r t := by
  -- every round goes on from a line of the start, with the run so far as `Going`
  induction fuel generalizing u with
  | zero => exact ensures_diverge
  | succ fuel ih =>
    refine instructionThen_reports h fun regs info v hv hcalled => ?_
    refine Ensures.bind (R := fun _ t => t = v) (ensures_observe.2 rfl) ?_
      fun err t ht => ht ▸ hv.clean.reported _
    rintro pc' _ rfl
    -- a call is run until it is back, any other instruction goes on by itself
    refine ensures_ite.2 ⟨fun hcall => ?_, fun _ => nextOnward_reports
      ⟨hv.breakpoints, hv.index, hv.new, hv.clean.settles⟩ fun t ht => ih ht⟩
    refine (runToReturn_afterRun hv hdistinct (.inr rfl) (hcalled hcall.1) fuel).bind ?_
      fun err w hw => Broken.reported hw _
    -- the call came back without a stop, so the line is looked at behind it
    rintro (_ | feedback) w hw
    · refine nextOnward_reports ⟨hw.breakpoints, hw.index, hw.new, hw.settles.mono ?_⟩
        fun t ht => ih ht
      rintro _ _ a _ ⟨hpc, -⟩
      exact hpc
    · exact ensures_pure.2 hw

/-- How a command begins: what the step engine left behind is cleared. -/
theorem begin_going (hdistinct : s.breakpoints.Distinct) :
    Ensures clearInternal s (Outcome
      (fun t => s.Going c s.breakpoints.user t ∧
        Tracee.registers t.process = Tracee.registers s.process)
      fun t => s.Broken c t.process.events) := by
  refine (clearInternal_settles (clean_start (c := c)) (fun _ _ _ _ => id) hdistinct).mono ?_
  rintro (err | _) t ht
  · exact ht
  · obtain ⟨htable, hindex, hsuffix, hregisters, hclean⟩ := ht
    exact ⟨⟨htable, hindex, hsuffix, hclean⟩, hregisters⟩

/-- A process that is continued reports the trap it came to. -/
theorem continueExecution_reports (hdistinct : s.breakpoints.Distinct) :
    Ensures continueExecution s fun r t => s.Reported c r t := by
  refine Ensures.bind (R := fun _ t => t = s) (ensures_observe.2 rfl) ?_
    fun err t ht => ht ▸ clean_start.reported _
  intro _ t ht
  obtain rfl : s = t := ht.symm
  refine (begin_going hdistinct).bind (fun _ u ⟨hu, _⟩ => ?_) fun err u hu => Broken.reported hu _
  refine ensures_observe_bind.2 ?_
  rcases Tracee.pc u.process with err | pc
  · exact hu.clean.reported _
  refine ensures_get_bind.2 (ensures_ite.2 ⟨fun _ => ?_, fun _ => resume_reports hu fun _ => id⟩)
  -- the instruction under a breakpoint comes first
  refine (stepOver_going hu pc).bind (fun stop v ⟨hv, _⟩ => ?_) fun err v ⟨hv, _⟩ =>
    hv.clean.reported _
  exact ensures_ite.2 ⟨fun _ => (stopped_clean stop hv.clean).mono fun r t ht => ht.reported r,
    fun _ => resume_reports hv fun _ => id⟩

/-- A command that steps by lines reports every such trap if its steps from the line it starts on
do. -/
theorem stepLineWith_reports {from_ : SourceLocation → Task (Recorded σ) Feedback}
    (hdistinct : s.breakpoints.Distinct)
    (hfrom : ∀ start t, (∃ pc, Tracee.pc s.process = .ok pc ∧ s.lineOf pc = .ok start) →
      s.Going c s.breakpoints.user t → Ensures (from_ start) t fun r t => s.Reported c r t) :
    Ensures (stepLineWith from_) s fun r t => s.Reported c r t := by
  refine Ensures.bind (R := fun _ t => t = s) (ensures_observe.2 rfl) ?_
    fun err t ht => ht ▸ clean_start.reported _
  intro _ t ht
  obtain rfl : s = t := ht.symm
  -- the line is asked for where the process stood before anything was run
  refine (begin_going hdistinct).bind (fun _ u ⟨hu, hregisters⟩ => ?_)
    fun err u hu => Broken.reported hu _
  have hsame : Tracee.pc u.process = Tracee.pc s.process := by
    rw [Tracee.pc, Tracee.pc, hregisters]
  refine ensures_observe_bind.2 ?_
  rcases hpc : Tracee.pc u.process with err | pc
  · exact hu.clean.reported _
  refine ensures_get_bind.2 ?_
  rcases hline : u.lineOf pc with err | start
  · exact ensures_throw.2 (hu.clean.reported _)
  · refine hfrom start u ⟨pc, hsame.symm.trans hpc, ?_⟩ hu
    rw [lineOf, ← hu.index]
    exact hline

/-- While a command that continues or steps is executed, the process may run until it executes the
trap of a breakpoint of the operator. Unless the command passes over the trap, it lets the process
go no more, and its answer is that the process stopped there; only a failure to change memory or
registers afterwards is answered instead. -/
theorem trap_reported (s : Session (Recorded σ)) (hdistinct : s.breakpoints.Distinct) (fuel : Nat)
    {c : Command} (hc : c = .resume ∨ c = .step ∨ c = .next) {r : Except DebugError Feedback}
    {t : Session (Recorded σ)} (h : handle fuel c s = some (r, t))
    {later earlier : List (Event σ)} {e : Event σ} {a : Addr}
    (hevents : t.process.events = later ++ e :: earlier) (hnew : s.process.events <:+ earlier)
    (harmed : s.breakpoints.user.isArmed a = true) (htrap : e.trap? = some a)
    (hpasses : ¬ s.Passes c e earlier a) :
    (∀ e' ∈ later, e'.deed.letsGo = false) ∧
      (r = .ok (t.stopFeedback a) ∧ Tracee.pc t.process = .ok a ∨
        ∃ e' ∈ later, e'.deed.fails = true) := by
  have hreported : Ensures (handle fuel c) s fun r t => s.Reported c r t := by
    rcases hc with rfl | rfl | rfl
    · exact continueExecution_reports hdistinct
    · exact stepLineWith_reports hdistinct fun start t hstart ht =>
        stepFrom_reports hdistinct hstart ht fuel
    · exact stepLineWith_reports hdistinct fun start t _ ht => nextFrom_reports hdistinct ht fuel
  exact hreported r t h later e earlier a hevents hnew harmed htrap hpasses

end Commands

end Session

namespace Machine

/-- A program that calls a function, with a trap at one of its addresses. -/
def calls (offset : Nat) : Machine :=
  let code := [0xe8, 2, 0, 0, 0, 0x90, 0xf4, 0x90, 0x90, 0xc3]
  .ofImage ⟨[⟨⟨0x1000⟩, code.set offset trapByte, false⟩, ⟨⟨0x2000⟩, List.replicate 16 0, false⟩],
    (Registers.zero.setPc ⟨0x1000⟩).set .rsp 0x2010, 0, [], [], [], false⟩ []

end Machine

namespace Session

/-- A session in which the program stands before the call, and the trap is that of a breakpoint. -/
def atCall (offset : Nat) (entries : List DebugIndex.LineEntry) : Session (Recorded Machine) :=
  let process := Recorded.ofProcess (Machine.calls offset)
  { start process (.ofEntries "/" entries) none .null ⟨"/", []⟩ with
    debuggee := ⟨process, [⟨⟨0x1000 + UInt64.ofNat offset⟩, 0x90, "a.c", 1, .user⟩]⟩ }

/-- The lines of the program, with a line for the function and one for the code behind the call. -/
def linedCall : List DebugIndex.LineEntry :=
  [.record "a.c" 1 ⟨0x1000⟩ false, .record "a.c" 2 ⟨0x1005⟩ false, .record "a.c" 3 ⟨0x1007⟩ false,
    .sequence ⟨0x1000⟩ ⟨0x100a⟩]

/-- A breakpoint in a function is reported when the call is stepped over. -/
theorem trap_reported_in_call :
    ∃ r t, handle 20 .next (atCall 8 linedCall) = some (r, t) ∧
      r = .ok (.stopped ⟨0x1008⟩ (some ⟨"a.c", 3⟩) none) ∧ Tracee.pc t.process = .ok ⟨0x1008⟩ := by
  have hrun : (handle 20 .next (atCall 8 linedCall)).any (fun (_, t) =>
      decide (t.index = .ofEntries "/" linedCall ∧ t.files = ⟨"/", []⟩) &&
      (t.process.events.take 2).all (!·.deed.fails) &&
      match t.process.events.drop 2 with
      | [] => false
      | e :: earlier => e.trap? = some ⟨0x1008⟩ &&
        earlier.all fun call =>
          (call.call? (atCall 8 linedCall).breakpoints.user).all (·.1 ≠ ⟨0x1008⟩)) = true := by
    decide +kernel
  obtain ⟨⟨r, t⟩, h, hend⟩ := (Option.any_eq_true _ _).1 hrun
  obtain ⟨hend, hevents⟩ := Bool.and_eq_true_iff.1 hend
  obtain ⟨hkept, hfine⟩ := Bool.and_eq_true_iff.1 hend
  rcases hdrop : t.process.events.drop 2 with _ | ⟨e, earlier⟩ <;> rw [hdrop] at hevents
  · cases hevents
  obtain ⟨htrap, hcalls⟩ := Bool.and_eq_true_iff.1 hevents
  -- no call returns to the breakpoint
  have hpasses : ¬ (atCall 8 linedCall).Passes .next e earlier ⟨0x1008⟩ := by
    rintro ⟨callerSp, ⟨call, rest, hcall, -, hreturns⟩, -⟩
    have hother := List.all_eq_true.1 hcalls call (hcall.subset List.mem_cons_self)
    rw [hreturns] at hother
    cases hother
  obtain ⟨-, hreport | ⟨e', he', hfails⟩⟩ := trap_reported (atCall 8 linedCall)
    (List.nodup_singleton _) 20
    (.inr (.inr rfl)) h (hdrop ▸ (List.take_append_drop 2 t.process.events).symm)
    (List.nil_suffix) (by decide +kernel) (of_decide_eq_true htrap) hpasses
  · -- the line is known, but there is no file with it
    obtain ⟨hindex, hfiles⟩ := of_decide_eq_true hkept
    have hline : t.index.resolveAddress ⟨0x1008⟩ = .ok ⟨"a.c", 3⟩ := by
      rw [hindex]
      decide +kernel
    have hfile : t.files.readText "a.c" = .error (FileSystem.failure .enoent) := by
      rw [hfiles]
      decide +kernel
    rw [stopFeedback_of_unreadable hline hfile] at hreport
    exact ⟨r, t, h, hreport⟩
  · have hnot := List.all_eq_true.1 hfine e' he'
    rw [hfails] at hnot
    cases hnot

/-- The same lines, but without one for the function, and the code behind the call is on the line of
the call. -/
def unlinedCall : List DebugIndex.LineEntry :=
  [.record "a.c" 1 ⟨0x1000⟩ false, .record "a.c" 2 ⟨0x1006⟩ false, .sequence ⟨0x1000⟩ ⟨0x1007⟩]

/-- A breakpoint behind a call is passed over when the line is stepped through. -/
theorem trap_passed_behind_call :
    ∃ r t later e earlier, handle 20 .step (atCall 5 unlinedCall) = some (r, t) ∧
      t.process.events = later ++ e :: earlier ∧
      (atCall 5 unlinedCall).breakpoints.user.isArmed ⟨0x1005⟩ = true ∧
      e.trap? = some ⟨0x1005⟩ ∧ Tracee.pc t.process = .ok ⟨0x1006⟩ := by
  -- the run is computed once, and only its last state and its traps are asked for
  have hrun : (handle 20 .step (atCall 5 unlinedCall)).any (fun (_, t) =>
      decide (t.process.process.alive = true ∧ t.process.process.regs.pc = ⟨0x1006⟩) &&
      t.process.events.any fun e => e.trap? = some ⟨0x1005⟩) = true := by
    decide +kernel
  obtain ⟨⟨r, t⟩, h, hend⟩ := (Option.any_eq_true _ _).1 hrun
  obtain ⟨hpc, htrap⟩ := Bool.and_eq_true_iff.1 hend
  obtain ⟨halive, hpc⟩ := of_decide_eq_true hpc
  obtain ⟨e, he, htrap⟩ := List.any_eq_true.1 htrap
  obtain ⟨later, earlier, hevents⟩ := List.append_of_mem he
  refine ⟨r, t, later, e, earlier, h, hevents, by decide +kernel, of_decide_eq_true htrap, ?_⟩
  have hregs : Tracee.registers t.process = .ok t.process.process.regs := if_pos halive
  rw [Tracee.pc, hregs]
  exact congrArg Except.ok hpc

end Session

end SourceDebugger
