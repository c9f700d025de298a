import SourceDebugger.Proofs.Invariant
import SourceDebugger.Proofs.LawfulMachine
import SourceDebugger.Proofs.LawfulTracee
import SourceDebugger.Proofs.Recording

/-!
# Breakpoints and memory agree at all times

The record of a process tells which traps the debugger has in memory, `Recorded.armed`, and what the
program itself has there, `Recorded.ownMemory`: the memory with which it started, changed where the
program changed it. `Obedient` says of a record that the program left the traps alone and that they
could always be put back.

* `Session.breakpoints_coherent`: after any run of commands, whatever failed on the way, the table
  of the breakpoints and the memory of the process agree, as long as the process is alive.

The invariant is `Kept`. A command that lifts a breakpoint and puts it back passes through states in
which one entry of the table has no trap; there `Kept` holds of the table without that entry.
-/

namespace SourceDebugger

variable {σ : Type} [Tracee σ]

/-! ### What a record tells -/

namespace Deed

/-- Whether the process was let go. -/
def letsGo : Deed → Bool
  | step _ | resume .. => true
  | write .. | setRegisters .. | restart _ | kill _ => false

end Deed

namespace Recorded

/-- Whether the debugger has a trap at an address. It stores a trap there and the byte of the
program in turn, and has none in a fresh process. -/
def armed : List (Event σ) → Addr → Bool
  | [], _ => false
  | e :: earlier, a =>
    match e.deed with
    | .write addr _ (.ok _) => if addr = a then !armed earlier a else armed earlier a
    | .restart (.ok _) => false
    | _ => armed earlier a

/-- Whether the debugger has ever stored something at an address of this process. -/
def written : List (Event σ) → Addr → Bool
  | [], _ => false
  | e :: earlier, a =>
    match e.deed with
    | .write addr _ (.ok _) => if addr = a then true else written earlier a
    | .restart (.ok _) => false
    | _ => written earlier a

/-- What the program itself has in memory, if it started with `start`. -/
def ownMemory (start : AddressSpace) : List (Event σ) → AddressSpace
  | [] => start
  | e :: earlier =>
    match e.deed with
    | .step _ | .resume .. =>
      AddressSpace.follow (Tracee.memory e.before) (Tracee.memory e.after) (ownMemory start earlier)
    | .restart (.ok _) => Tracee.memory e.after
    | _ => ownMemory start earlier

end Recorded

open Recorded in
/-- What is asked of a process and its program: the program does not write over the traps of the
debugger, nor over an instruction from which a trap was lifted to execute it, and what could once be
written can be written again. -/
structure Obedient (events : List (Event σ)) : Prop where
  /-- The program leaves the traps alone. -/
  keepsTraps : ∀ e earlier, e :: earlier <:+ events → e.deed.letsGo = true →
    Tracee.isAlive e.after = true → ∀ a, armed earlier a = true →
    Tracee.memory e.after a = Tracee.memory e.before a
  /-- An instruction from under a trap, which is put back right afterwards, does not write over its
  own first byte. -/
  keepsLifted : ∀ back e lift earlier a x y r, back :: e :: lift :: earlier <:+ events →
    lift.deed = .write a [x] (.ok ()) → e.deed.letsGo = true → back.deed = .write a [y] r →
    Tracee.isAlive e.after = true → Tracee.pc lift.before = .ok a →
    Tracee.memory e.after a = Tracee.memory e.before a
  /-- A byte can be written where one was written before. -/
  writable : ∀ e earlier a x r, e :: earlier <:+ events → e.deed = .write a [x] r →
    written earlier a = true → Tracee.isAlive e.after = true → r = .ok ()

/-- A process that obeyed until now obeyed before. -/
theorem Obedient.of_suffix {events earlier : List (Event σ)} (h : Obedient events)
    (hsuffix : earlier <:+ events) : Obedient earlier where
  keepsTraps e earlier he := h.keepsTraps e earlier (he.trans hsuffix)
  keepsLifted back e lift earlier a x y r he :=
    h.keepsLifted back e lift earlier a x y r (he.trans hsuffix)
  writable e earlier a x r he := h.writable e earlier a x r (he.trans hsuffix)

/-! ### The invariant -/

open Recorded BreakpointTable

/-- A table has an entry for each trap that the debugger has in memory. -/
def Tracks (table : BreakpointTable) (events : List (Event σ)) : Prop :=
  ∀ a, table.isArmed a = armed events a

namespace Tracks

variable {table : BreakpointTable} {r : Recorded σ} {q : σ}

omit [Tracee σ] in
/-- A trap that was written is one more in the table. -/
theorem arm (h : Tracks table r.events) {b : Breakpoint} (hfree : table.isArmed b.addr = false)
    (data : List UInt8) :
    Tracks (table ++ [b]) (r.next (.write b.addr data (.ok ())) q).events := by
  intro a
  rw [isArmed_append, h a]
  by_cases haddr : b.addr = a
  · have : armed r.events b.addr = false := by rw [← h, hfree]
    simp [Recorded.next, armed, ← haddr, this]
  · simp [Recorded.next, armed, haddr]

omit [Tracee σ] in
/-- A byte that was written back is one trap less. -/
theorem clear (h : Tracks table r.events) (hdistinct : table.Distinct) {addr : Addr}
    (harmed : table.isArmed addr = true) (data : List UInt8) :
    Tracks (table.without addr) (r.next (.write addr data (.ok ())) q).events := by
  intro a
  rw [hdistinct.isArmed_without, h a]
  by_cases haddr : addr = a
  · have : armed r.events addr = true := by rw [← h, harmed]
    simp [Recorded.next, armed, ← haddr, this]
  · simp [Recorded.next, armed, haddr, Ne.symm haddr]

omit [Tracee σ] in
/-- A trap that was lifted and written again is in the table as before. -/
theorem rearm {addr : Addr} (h : Tracks (table.without addr) r.events)
    (hdistinct : table.Distinct) (harmed : table.isArmed addr = true) (data : List UInt8) :
    Tracks table (r.next (.write addr data (.ok ())) q).events := by
  intro a
  have hwithout := h a
  rw [hdistinct.isArmed_without] at hwithout
  by_cases haddr : addr = a
  · have : armed r.events a = false := by simpa [haddr] using hwithout.symm
    rw [← haddr] at this ⊢
    simp [Recorded.next, armed, this, harmed]
  · simp only [Recorded.next, armed, haddr, if_false, ← hwithout]
    simp [Ne.symm haddr]

omit [Tracee σ] in
/-- To let the process go sets no trap and takes none away. -/
theorem release (h : Tracks table r.events) {deed : Deed} (hdeed : deed.letsGo = true) :
    Tracks table (r.next deed q).events := by
  intro a
  rw [h a]
  cases deed <;> first | rfl | cases hdeed

end Tracks

/-- The breakpoints of a debuggee whose process started with `start` are what its record tells. -/
structure Kept (start : AddressSpace) (d : Debuggee (Recorded σ)) : Prop where
  /-- Table and memory agree. -/
  coherent :
    Coherent d.breakpoints (Tracee.memory d.process.process) (ownMemory start d.process.events)
  /-- The table has an entry for each trap. -/
  tracks : Tracks d.breakpoints d.process.events

namespace Kept

variable {start : AddressSpace} {d : Debuggee (Recorded σ)} {q : σ}

/-- An event by which neither the program nor the debugger changes anything in memory. -/
theorem quiet (h : Kept start d) (deed : Deed)
    (hmem : Tracee.memory q = Tracee.memory d.process.process)
    (hown : ownMemory start (d.process.next deed q).events = ownMemory start d.process.events)
    (harmed : ∀ a, armed (d.process.next deed q).events a = armed d.process.events a) :
    Kept start { d with process := d.process.next deed q } where
  coherent := by
    rw [hown]
    exact hmem ▸ h.coherent
  tracks a := by
    rw [harmed]
    exact h.tracks a

/-- Arming keeps what the record tells: the byte that is kept was the one in memory. -/
theorem arm (h : Kept start d) (b : Breakpoint) (hfree : d.breakpoints.isArmed b.addr = false)
    (hsaved : Tracee.memory d.process.process b.addr = some b.saved)
    (hmem : Tracee.memory q = (Tracee.memory d.process.process).store b.addr trapByte) :
    Kept start ⟨d.process.next (.write b.addr [trapByte] (.ok ())) q, d.breakpoints ++ [b]⟩ where
  coherent := by
    have := h.coherent.arm hfree hsaved
    exact hmem ▸ this
  tracks := h.tracks.arm hfree _

/-- Clearing keeps what the record tells: the byte that is written back is the kept one. -/
theorem clear (h : Kept start d) {addr : Addr} {b : Breakpoint}
    (hb : d.breakpoints.locate? addr = some b)
    (hmem : Tracee.memory q = (Tracee.memory d.process.process).store addr b.saved) :
    Kept start
      ⟨d.process.next (.write addr [b.saved] (.ok ())) q, d.breakpoints.without addr⟩ where
  coherent := by
    have := h.coherent.clear hb
    exact hmem ▸ this
  tracks := h.tracks.clear h.coherent.distinct (isArmed_of_locate? hb) _

/-- The process was let go and left the traps alone. -/
theorem release (h : Kept start d) {deed : Deed} (hdeed : deed.letsGo = true)
    (hkept : ∀ a, armed d.process.events a = true →
      Tracee.memory q a = Tracee.memory d.process.process a) :
    Kept start { d with process := d.process.next deed q } where
  coherent := by
    have hown : ownMemory start (d.process.next deed q).events = AddressSpace.follow
        (Tracee.memory d.process.process) (Tracee.memory q) (ownMemory start d.process.events) := by
      cases deed <;> first | rfl | cases hdeed
    rw [hown]
    exact h.coherent.follow fun a ha => hkept a (h.tracks a ▸ ha)
  tracks := h.tracks.release hdeed

/-- A breakpoint that was lifted is put back. -/
theorem rearm {table : BreakpointTable} {r : Recorded σ} {addr : Addr} {b : Breakpoint}
    (h : Kept start ⟨r, table.without addr⟩) (hdistinct : table.Distinct)
    (hb : table.locate? addr = some b) (hown : ownMemory start r.events addr = some b.saved)
    (hmem : Tracee.memory q = (Tracee.memory r.process).store addr trapByte) :
    Kept start ⟨r.next (.write addr [trapByte] (.ok ())) q, table⟩ where
  coherent := by
    have := h.coherent.rearm hdistinct hb hown
    exact hmem ▸ this
  tracks := h.tracks.rearm hdistinct (isArmed_of_locate? hb) _

end Kept

/-- As long as the process is alive and obeys, its breakpoints are what its record tells. -/
def Held (start : AddressSpace) (d : Debuggee (Recorded σ)) : Prop :=
  Obedient d.process.events → Tracee.isAlive d.process = true → Kept start d

namespace Held

variable {start : AddressSpace} {d : Debuggee (Recorded σ)}

/-- Nothing is claimed of a process that is gone. -/
theorem of_gone (h : Tracee.isAlive d.process = false) : Held start d :=
  fun _ halive => absurd (h.symm.trans halive) (by simp)

/-- After one more event, the invariant may be assumed to have held before it. -/
theorem next {table : BreakpointTable} (h : Held start d) (deed : Deed) (q : σ)
    (halive : Tracee.isAlive q = true → Tracee.isAlive d.process.process = true)
    (step : Obedient (d.process.next deed q).events → Tracee.isAlive q = true → Kept start d →
      Kept start ⟨d.process.next deed q, table⟩) :
    Held start ⟨d.process.next deed q, table⟩ :=
  fun hobedient hq => step hobedient hq
    (h (hobedient.of_suffix (List.suffix_cons _ _)) (halive hq))

variable [LawfulTracee σ]

/-- A write that failed. -/
theorem write_error (h : Held start d) {addr : Addr} {data : List UInt8} {e : DebugError} {q : σ}
    (hw : Tracee.writeMemory addr data d.process.process = (.error e, q)) :
    Held start { d with process := d.process.next (.write addr data (.error e)) q } := by
  refine h.next _ q (LawfulTracee.alive_of_write hw) fun _ hq hkept => ?_
  exact hkept.quiet _ (LawfulTracee.memory_write_error hw hq) rfl fun _ => rfl

/-- Arming holds the breakpoints, whether it succeeds or not. -/
theorem arm (h : Held start d) (addr : Addr) (file : String) (line : UInt64)
    (kind : BreakpointKind) : Held start (Debuggee.arm addr file line kind d).2 := by
  rw [Debuggee.arm_apply, Recorded.readExact_eq]
  split
  · exact h
  rename_i hfree
  rcases hread : Tracee.readExact d.process.process addr 1 with e | bytes
  · exact h
  rw [Recorded.writeMemory_apply]
  rcases hw : Tracee.writeMemory addr [trapByte] d.process.process with ⟨e | _, q⟩
  · exact h.write_error hw
  refine h.next _ q (LawfulTracee.alive_of_write hw) fun _ hq hkept => ?_
  exact hkept.arm ⟨addr, bytes.headD 0, file, line, kind⟩ (by simpa using hfree)
      (Tracee.memory_of_readExact hread) (LawfulTracee.memory_write hw hq)

/-- Clearing holds the breakpoints, whether it succeeds or not. -/
theorem clearAt (h : Held start d) (addr : Addr) : Held start (Debuggee.clearAt addr d).2 := by
  rw [Debuggee.clearAt_apply]
  rcases hb : d.breakpoints.locate? addr with _ | b
  · exact h
  simp only [Recorded.writeMemory_apply]
  rcases hw : Tracee.writeMemory addr [b.saved] d.process.process with ⟨e | _, q⟩
  · exact h.write_error hw
  refine h.next _ q (LawfulTracee.alive_of_write hw) fun _ hq hkept => ?_
  exact hkept.clear hb (LawfulTracee.memory_write hw hq)

/-- The process executes one instruction. -/
theorem step (h : Held start d) : Held start (Debuggee.onProcess Tracee.singleStep d).2 := by
  rw [Debuggee.onProcess_apply, Recorded.singleStep_apply]
  refine h.next _ _ (LawfulTracee.alive_of_step rfl) fun hobedient hq hkept => ?_
  exact hkept.release rfl (hobedient.keepsTraps _ _ List.suffix_rfl rfl hq)

/-- The process runs until it stops. -/
theorem resume (h : Held start d) {signal : Option Signal} {r : Except DebugError Stop} {q : σ}
    (hresume : Tracee.resume signal d.process.process = some (r, q)) :
    Held start { d with process := d.process.next (.resume signal r) q } := by
  refine h.next _ q (LawfulTracee.alive_of_resume hresume) fun hobedient hq hkept => ?_
  exact hkept.release rfl (hobedient.keepsTraps _ _ List.suffix_rfl rfl hq)

/-- The program counter is changed. -/
theorem setPc (h : Held start d) (pc : Addr) :
    Held start (Debuggee.onProcess (Tracee.setPc pc) d).2 := by
  rw [Debuggee.onProcess_apply, Recorded.setPc_apply]
  rcases Tracee.registers d.process.process with e | regs
  · exact h
  refine h.next _ _ (LawfulTracee.alive_of_setRegisters rfl) fun _ hq hkept => ?_
  exact hkept.quiet _ (LawfulTracee.memory_setRegisters rfl hq) rfl fun _ => rfl

/-- The process executes the instruction under a breakpoint. -/
theorem stepOver (h : Held start d) (addr : Addr)
    (hpc : Tracee.isAlive d.process = true → Tracee.pc d.process = .ok addr) :
    Held start (Debuggee.withDisarmed addr Tracee.singleStep d).2 := by
  rw [Debuggee.withDisarmed_apply]
  rcases hb : d.breakpoints.locate? addr with _ | b
  · exact h
  simp only [Recorded.writeMemory_apply]
  rcases hlift : Tracee.writeMemory addr [b.saved] d.process.process with ⟨e | _, lifted⟩
  · exact h.write_error hlift
  simp only [Recorded.singleStep_apply, Recorded.isAlive_eq, Recorded.next]
  rcases hstep : Tracee.singleStep lifted with ⟨r, stepped⟩
  -- if the program ended meanwhile, nothing is put back
  by_cases hsteppedAlive : Tracee.isAlive stepped = false
  · simp only [hsteppedAlive, Bool.false_eq_true, if_false]
    exact of_gone hsteppedAlive
  rw [Bool.not_eq_false] at hsteppedAlive
  simp only [hsteppedAlive, if_true]
  rcases hback : Tracee.writeMemory addr [trapByte] stepped with ⟨r', q⟩
  intro hobedient hq
  have hliftedAlive := LawfulTracee.alive_of_step hstep hsteppedAlive
  have halive := LawfulTracee.alive_of_write hlift hliftedAlive
  -- before the breakpoint was lifted table and memory agreed
  have hkept : Kept start d := by
    refine h (hobedient.of_suffix ?_) halive
    exact (List.suffix_cons _ _).trans ((List.suffix_cons _ _).trans (List.suffix_cons _ _))
  -- while it is lifted they agree for the table without it
  have hclear := hkept.clear hb (LawfulTracee.memory_write hlift hliftedAlive)
  have hkeeps := hobedient.keepsTraps _ _ (List.suffix_cons _ _) rfl hsteppedAlive
  have hrelease : Kept start
      ⟨(d.process.next (.write addr [b.saved] (.ok ())) lifted).next (.step r) stepped,
        d.breakpoints.without addr⟩ := hclear.release rfl hkeeps
  -- the program still has the byte that is saved, so the breakpoint can be put back
  have hsame : Tracee.memory stepped addr = Tracee.memory lifted addr :=
    hobedient.keepsLifted _ _ _ _ addr b.saved trapByte r' List.suffix_rfl rfl rfl rfl
      hsteppedAlive (hpc halive)
  have hown := (AddressSpace.follow_of_eq hsame).trans (hkept.coherent.saved_of_locate? hb)
  -- and it is put back
  have hok : r' = .ok () :=
    hobedient.writable _ _ addr trapByte r' List.suffix_rfl rfl (if_pos rfl) hq
  rw [hok] at hback ⊢
  exact hrelease.rearm hkept.coherent.distinct hb hown (LawfulTracee.memory_write hback hq)

/-- A restart that failed. -/
theorem restart_error (h : Held start d) {e : DebugError} {q : σ}
    (hrestart : Tracee.restart d.process.process = (.error e, q)) :
    Held start { d with process := d.process.next (.restart (.error e)) q } := by
  refine h.next _ q (fun hq => (LawfulTracee.restart_error hrestart hq).1) fun _ hq hkept => ?_
  exact hkept.quiet _ (LawfulTracee.restart_error hrestart hq).2 rfl fun _ => rfl

omit [LawfulTracee σ] in
/-- A fresh process has no breakpoints, and its memory is that of the program. -/
theorem restart_ok (r : Recorded σ) (q : σ) :
    Held start ⟨r.next (.restart (.ok ())) q, []⟩ := fun _ _ =>
  ⟨Coherent.nil _, fun _ => rfl⟩

end Held

namespace Session

/-- `Held` as an invariant of sessions. It has one form only: a process that trapped or that is to
receive a signal has its breakpoints in memory as any other. -/
def heldInvariant (start : AddressSpace) : Invariant (Recorded σ) where
  holds s := Held start s.debuggee
  trapped s := Held start s.debuggee
  signalled _ s := Held start s.debuggee

/-- A process that was let go holds its breakpoints if it is still there. -/
theorem heldInvariant_released {start : AddressSpace} {r : Except DebugError Stop}
    {t : Session (Recorded σ)} (h : Held start t.debuggee)
    (hterminal : ∀ stop, r = .ok stop → stop.isTerminal = true →
      Tracee.isAlive t.process = false) :
    (heldInvariant start).released r t := by
  rcases r with _ | stop
  · exact h
  rcases stop with (_ | _ | _) | _ | _ | _
  · exact h
  · exact h
  · exact h
  · exact h
  · exact hterminal _ rfl rfl
  · exact hterminal _ rfl rfl

variable [LawfulTracee σ]

/-- Once a trap is handled, the process stands where that says. -/
theorem pc_of_rewindAfterTrap {s t : Session (Recorded σ)} {addr : Addr}
    (h : rewindAfterTrap s = some (.ok addr, t)) (halive : Tracee.isAlive t.process = true) :
    Tracee.pc t.process = .ok addr := by
  rcases rewindAfterTrap_cases h with ⟨e, -, -, hr⟩ | ⟨pc, hpc, rfl, hr, -⟩ |
    ⟨pc, a, -, -, -, rfl, hr⟩
  · cases hr
  · cases hr
    exact hpc
  -- the program counter was set, so the registers have it now
  · obtain ⟨r, p, hset, hset'⟩ := (Recorded.mirrors_setPc a).ends s.process
    show Tracee.pc (Tracee.setPc a s.process).2 = _
    change Tracee.isAlive (Tracee.setPc a s.process).2 = true at halive
    rw [hset] at hr halive ⊢
    rcases r with _ | _
    · cases hr
    · cases hr
      exact LawfulTracee.pc_setPc (σ := σ) hset' halive

/-- Each access keeps the breakpoints held, so every command does. -/
theorem heldInvariant_maintained (start : AddressSpace) :
    (heldInvariant (σ := σ) start).Maintained where
  -- an ended process has no memory, so nothing is asked of the table
  gone s h := by
    have hheld : Held start s.debuggee := .of_gone h
    exact ⟨hheld, hheld, fun _ => hheld⟩
  arm s addr file line kind h := h.arm addr file line kind
  clearAt s addr h := h.clearAt addr
  clearKind_signalled s sig h := by
    refine Debuggee.clearKind_keeps (fun addr d hd => ?_) .internal h
    exact outcome_same.2 (Held.clearAt hd addr)
  note s sig h := h
  step s pc h hpc harmed := by
    refine ensures_onDebuggee.2 (heldInvariant_released h.step ?_)
    exact fun stop hstop => LawfulTracee.step_terminal (σ := σ) (Prod.ext hstop rfl)
  stepOver s addr h hpc := by
    refine ensures_onDebuggee.2 ⟨heldInvariant_released (h.stepOver addr hpc) ?_, fun _ => ?_⟩
    -- the recorded process and the plain one step alike, so the end of one is the end of the other
    · obtain ⟨r, d', hx, hy⟩ :=
        (Debuggee.mirrors_withDisarmed addr Recorded.mirrors_singleStep).ends s.debuggee
      intro stop hstop hterminal
      rw [hx] at hstop ⊢
      cases hstop
      exact LawfulTracee.withDisarmed_terminal (σ := σ) hy hterminal
    · exact h.stepOver addr hpc
  resume s h := by
    intro r t hresume
    simp only [resumeProcess, Recorded.resume_apply] at hresume
    rcases hr : Tracee.resume s.pendingSignal s.process.process with _ | ⟨r', q⟩
    · simp [hr] at hresume
    simp only [hr, Option.map_some] at hresume
    cases hresume
    refine heldInvariant_released (h.resume hr) fun stop hstop hterminal => ?_
    cases hstop
    exact LawfulTracee.resume_terminal (σ := σ) hr hterminal
  rewind s h := by
    intro r t hrewind
    refine ⟨?_, fun addr hr => pc_of_rewindAfterTrap (hr ▸ hrewind)⟩
    -- setting the pc writes no memory, and the other ways out leave the process as it is
    rcases rewindAfterTrap_cases hrewind with ⟨e, -, rfl, -⟩ | ⟨pc, -, rfl, -⟩ |
      ⟨pc, a, -, -, -, rfl, -⟩
    · exact h
    · exact h
    · exact h.setPc a

/-- A restart keeps the invariant too. -/
theorem held_restart (start : AddressSpace) (s : Session (Recorded σ)) (h : Held start s.debuggee) :
    Ensures restart s fun _ t => Held start t.debuggee := by
  refine (heldInvariant_maintained (σ := σ) start).restart s (fun e q hr => ?_) fun q hr => ?_
  · rcases hr' : Tracee.restart s.process.process with ⟨r, p⟩
    rw [Recorded.restart_apply, hr'] at hr
    cases hr
    exact h.restart_error hr'
  · rcases hr' : Tracee.restart s.process.process with ⟨r, p⟩
    rw [Recorded.restart_apply, hr'] at hr
    cases hr
    exact Held.restart_ok _ p

/-- However a run of commands went, the breakpoints of a process that is alive and its memory agree:
no address has two of them, there is a trap at each, which saves the byte of the program, and all
other bytes are those of the program. -/
theorem breakpoints_coherent (p : σ) (index : DebugIndex) (frames : Option FrameIndex) (bias : Addr)
    (files : FileSystem) (commands : List (Nat × Command)) (t : Session σ)
    (h : executeAll commands (Session.start p index frames bias files) = some t) :
    ∃ r : Session (Recorded σ),
      executeAll commands (Session.start (.ofProcess p) index frames bias files) = some r ∧
      r.plain = t ∧
      (Obedient r.process.events → Tracee.isAlive t.process = true →
        Coherent t.breakpoints (Tracee.memory t.process)
          (ownMemory (Tracee.memory p) r.process.events)) := by
  obtain ⟨r, hr, rfl⟩ :=
    exists_recorded (s := Session.start (.ofProcess p) index frames bias files) h
  refine ⟨r, hr, rfl, fun hobedient halive => ?_⟩
  -- the invariant holds of the first state, and each command keeps it
  have held : Held (Tracee.memory p) r.debuggee := by
    refine executeAll_keeps (K := fun s => Held (Tracee.memory p) s.debuggee) commands
      (fun fuel c _ s hs => ?_) hr ?_
    · by_cases hc : c = .restart
      · rw [hc]
        exact held_restart _ s hs
      · exact (heldInvariant_maintained _).handle fuel c hc s hs
    · exact fun _ _ => ⟨Coherent.nil _, fun _ => rfl⟩
  exact (held hobedient halive).coherent

end Session

/-! ### A run of a scripted machine -/

namespace Machine

/-- Whether an event of a machine leaves its memory to the debugger: the program wrote nothing, and
no write of the debugger failed. -/
def still (e : Event Machine) : Bool :=
  match e.deed with
  | .step _ | .resume .. => e.before.alive && decide (e.after.regions = e.before.regions)
  | .write _ _ (.error _) => false
  | _ => true

/-- Where an event leaves the memory to the debugger, letting the machine go does not change it. -/
theorem memory_eq_of_still {e : Event Machine} (h : still e = true) (hdeed : e.deed.letsGo = true)
    (halive : Tracee.isAlive e.after = true) : Tracee.memory e.after = Tracee.memory e.before := by
  obtain ⟨deed, before, after⟩ := e
  have hboth : before.alive = true ∧ after.regions = before.regions := by
    cases deed <;> first | simpa [still] using h | cases hdeed
  rw [memory_eq halive, memory_eq hboth.1, hboth.2]

/-- A machine whose events all leave its memory to the debugger obeys. -/
theorem obedient_of_still {events : List (Event Machine)} (h : events.all still = true) :
    Obedient events := by
  have hstill : ∀ e earlier, e :: earlier <:+ events → still e = true := by
    intro e earlier hsuffix
    exact List.all_eq_true.1 h e (hsuffix.subset List.mem_cons_self)
  refine ⟨fun e earlier hsuffix hdeed halive a _ => ?_, ?_, ?_⟩
  · rw [memory_eq_of_still (hstill e earlier hsuffix) hdeed halive]
  · intro back e lift earlier a x y r hsuffix _ hdeed _ halive _
    rw [memory_eq_of_still (hstill e _ ((List.suffix_cons _ _).trans hsuffix)) hdeed halive]
  · intro e earlier a x r hsuffix hdeed _ _
    have he := hstill e earlier hsuffix
    rcases r with _ | _
    · simp [still, hdeed] at he
    · rfl

/-- A program of three instructions that do nothing, before it ends. -/
def nops : Machine :=
  .ofImage ⟨[⟨⟨0x1000⟩, [0x90, 0x90, 0x90, 0xf4], false⟩], Registers.zero.setPc ⟨0x1000⟩, 0, [], [],
    [], false⟩ []

/-- The second instruction of `nops` is on a line of its own. -/
def nopsIndex : DebugIndex :=
  { DebugIndex.empty "/" with sources := [("a.c", [(1, [⟨⟨0x1001⟩, false⟩])])], files := ["a.c"] }

/-- Runs to a breakpoint, steps over it, and fails to set it again. -/
def nopsCommands : List (Nat × Command) :=
  [(0, .setBreakpoint "a.c" 1), (0, .resume), (0, .stepInstruction), (0, .setBreakpoint "a.c" 1)]

end Machine

namespace Session

open Machine in
/-- At the end of a run of `nops` one breakpoint is left, and it is as it should be. -/
theorem breakpoints_coherent_nops :
    ∃ t, executeAll nopsCommands (Session.start nops nopsIndex none .null ⟨"/", []⟩) = some t ∧
      t.breakpoints.map (·.addr) = [⟨0x1001⟩] ∧
      ∃ own, Coherent t.breakpoints (Tracee.memory t.process) own := by
  have hrun : (executeAll nopsCommands
      (Session.start nops nopsIndex none .null ⟨"/", []⟩)).any (fun t =>
        t.process.alive && decide (t.breakpoints.map (·.addr) = [⟨0x1001⟩])) = true := by
    decide +kernel
  -- the same run with a record shows that the process did not write to its own code
  have hrecord : (executeAll nopsCommands
      (Session.start (Recorded.ofProcess nops) nopsIndex none .null ⟨"/", []⟩)).all (fun r =>
        r.process.events.all still) = true := by
    decide +kernel
  obtain ⟨t, ht, hend⟩ := (Option.any_eq_true _ _).1 hrun
  obtain ⟨halive, haddrs⟩ := Bool.and_eq_true_iff.1 hend
  obtain ⟨r, hr, -, hcoherent⟩ :=
    breakpoints_coherent nops nopsIndex none .null ⟨"/", []⟩ nopsCommands t ht
  rw [hr] at hrecord
  exact ⟨t, ht, of_decide_eq_true haddrs, _, hcoherent (obedient_of_still hrecord) halive⟩

end Session

end SourceDebugger
