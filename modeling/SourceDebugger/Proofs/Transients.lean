import SourceDebugger.Proofs.LawfulTracee

/-!
# Breakpoints of the step engine

To run a call to its return, the step engine sets a breakpoint behind the call. It is there for one
command only. Here it is followed through the commands that let the process go.

* `Debuggee.Ends` is how such a command, or a part of it, may end: with the breakpoints of the
  operator alone, or with a failure of one of two kinds. A breakpoint could not be written,
  `Debuggee.Stuck`, or the way back from a call was interrupted, `Debuggee.Interrupted`; then the
  breakpoint behind the call is left.
* `Session.continueExecution_settled`, `Session.stepInstruction_settled`,
  `Session.stepLine_settled`, `Session.nextLine_settled`: so end the commands that let the process
  go.

That the process ended is told by its record, `Recorded.ended`.
-/

namespace SourceDebugger

variable {σ : Type}

/-! ### What a record tells -/

namespace Deed

/-- The failure for which the process was not let go, or kept its registers. -/
def refusal? : Deed → Option DebugError
  | .step (.error e) | .resume _ (.error e) | .setRegisters _ (.error e) => some e
  | _ => none

end Deed

/-- Whether an answer says that the process ended. -/
def Feedback.reportsEnd : Feedback → Bool
  | .exited .. | .killed .. => true
  | _ => false

namespace Recorded

/-- Whether the process ended when it was let go, and was not started again since. -/
def ended : List (Event σ) → Bool
  | [] => false
  | e :: earlier =>
    match e.deed with
    | .step (.ok stop) | .resume _ (.ok stop) => stop.isTerminal || ended earlier
    | .restart (.ok _) => false
    | _ => ended earlier

/-- The registers cannot be read, or the process refused one of the last two things that were asked
of it. -/
def Refused [Tracee σ] (e : DebugError) (r : Recorded σ) : Prop :=
  Tracee.registers r.process = .error e ∨ ∃ event ∈ r.events.take 2, event.deed.refusal? = some e

end Recorded

open Recorded BreakpointTable

/-- The program counter is one of the registers. -/
theorem Tracee.registers_of_pc_error [Tracee σ] {p : σ} {e : DebugError}
    (h : Tracee.pc p = .error e) : Tracee.registers p = .error e := by
  unfold Tracee.pc at h
  rcases hregs : Tracee.registers p with e' | regs <;> rw [hregs] at h <;> cases h
  rfl

namespace BreakpointTable

variable {table : BreakpointTable} {addr : Addr} {b : Breakpoint}

/-- The breakpoints of the operator are at distinct addresses too. -/
theorem Distinct.user (h : table.Distinct) : table.user.Distinct :=
  h.sublist (List.filter_sublist.map _)

/-- To take away a breakpoint of another kind leaves those of a kind as they are. -/
theorem Distinct.filter_without (h : table.Distinct) {kind : BreakpointKind}
    (hother : ∀ c ∈ table, c.kind = kind → c.addr ≠ addr) :
    (table.without addr).filter (·.kind = kind) = table.filter (·.kind = kind) := by
  rw [h.without_eq, List.filter_filter]
  refine List.filter_congr fun c hc => ?_
  by_cases hkind : c.kind = kind
  · simpa [hkind] using hother c hc hkind
  · simp [hkind]

/-- Breakpoints of different kinds are at different addresses. -/
theorem Distinct.addr_ne_of_kind (h : table.Distinct) (hb : b ∈ table) {kind : BreakpointKind}
    (hkind : b.kind ≠ kind) : ∀ c ∈ table, c.kind = kind → c.addr ≠ b.addr := by
  intro c hc hckind haddr
  rw [h.eq_of_addr hc hb haddr] at hckind
  exact hkind hckind

end BreakpointTable

namespace Debuggee

/-! ### States on the way -/

/-- These are the breakpoints, and the process has not ended. -/
structure Live (table : BreakpointTable) (d : Debuggee (Recorded σ)) : Prop where
  breakpoints : d.breakpoints = table
  going : ended d.process.events = false

/-- The last thing done to the process was to write under a breakpoint, and that failed. -/
def Unwritten (d : Debuggee (Recorded σ)) : Prop :=
  ∃ event earlier addr byte e, d.process.events = event :: earlier ∧
    event.deed = .write addr [byte] (.error e) ∧ event.after = d.process.process ∧
    d.breakpoints.isArmed addr = true

/-- A breakpoint could not be written. Those of the operator are all there. -/
structure Stuck (user : BreakpointTable) (d : Debuggee (Recorded σ)) : Prop where
  user : d.breakpoints.user = user
  distinct : d.breakpoints.Distinct
  going : ended d.process.events = false
  unwritten : d.Unwritten

variable [Tracee σ]

/-- These are the breakpoints. If the process ended it is gone. -/
structure Tabled (table : BreakpointTable) (d : Debuggee (Recorded σ)) : Prop where
  breakpoints : d.breakpoints = table
  gone : ended d.process.events = true → Tracee.isAlive d.process = false

/-- These are the breakpoints, and the process ended and is gone. -/
structure Over (table : BreakpointTable) (d : Debuggee (Recorded σ)) : Prop where
  breakpoints : d.breakpoints = table
  hasEnded : ended d.process.events = true
  gone : Tracee.isAlive d.process = false

/-- What is known behind an answer: these are the breakpoints, and if it says that the process
ended, that is so. -/
structure Answered (table : BreakpointTable) (f : Feedback) (d : Debuggee (Recorded σ)) :
    Prop where
  tabled : d.Tabled table
  reported : f.reportsEnd = true → ended d.process.events = true

/-- The way back from a call ended with a failure of the process. The breakpoint behind the call is
left. -/
structure Interrupted (user : BreakpointTable) (e : DebugError) (d : Debuggee (Recorded σ)) :
    Prop where
  left : ∃ b, b.kind = .internal ∧ d.breakpoints = user ++ [b]
  distinct : d.breakpoints.Distinct
  going : ended d.process.events = false
  refused : Refused e d.process

/-- What is known behind a stop. -/
def Halted (table : BreakpointTable) : Stop → Debuggee (Recorded σ) → Prop
  | .trap _, d | .signal _, d => d.Live table
  | .exited _, d | .killed _, d => d.Over table

/-- What is known after a failure on the way. -/
def Failed (table : BreakpointTable) (e : DebugError) (d : Debuggee (Recorded σ)) : Prop :=
  d.Live table ∧ (Refused e d.process ∨ d.Unwritten)

/-- What is known after the process was let go. -/
def LetGo (table : BreakpointTable) : Except DebugError Stop → Debuggee (Recorded σ) → Prop
  | .ok stop, d => Halted table stop d
  | .error e, d => Failed table e d

/-- What is known behind a run to the return of a call: it is back, or came to another stop. -/
def Reached (table : BreakpointTable) : Option Stop → Debuggee (Recorded σ) → Prop
  | none, d => d.Live table
  | some stop, d => Halted table stop d

/-- What is known after a run to the return of a call. -/
def RanBack (table : BreakpointTable) :
    Except DebugError (Option Stop) → Debuggee (Recorded σ) → Prop
  | .ok outcome, d => Reached table outcome d
  | .error e, d => Failed table e d

/-- What is known once a stop is answered, or that failed. -/
def Closed (table : BreakpointTable) : Except DebugError Feedback → Debuggee (Recorded σ) → Prop
  | .ok f, d => d.Answered table f
  | .error _, d => d.Tabled table

/-- What is known once the breakpoint behind a call is taken back: the process is there, or the
command ends. -/
def Returned (user : BreakpointTable) :
    Except DebugError (Option Feedback) → Debuggee (Recorded σ) → Prop
  | .ok none, d => d.Live user
  | .ok (some f), d => d.Answered user f
  | .error e, d => d.Tabled user ∨ d.Stuck user ∨ d.Interrupted user e

/-- How a part of a command ends: with the breakpoints of the operator alone, unless one could not
be written, or the way back from a call was interrupted. -/
def Ends (interruptible : Prop) (user : BreakpointTable) :
    Except DebugError Feedback → Debuggee (Recorded σ) → Prop
  | .ok f, d => d.Answered user f
  | .error e, d => d.Tabled user ∨ d.Stuck user ∨ interruptible ∧ d.Interrupted user e

section Relations

variable {table : BreakpointTable} {d : Debuggee (Recorded σ)} {stop : Stop}

/-- A process that has not ended does not have to be gone. -/
theorem Live.tabled (h : d.Live table) : d.Tabled table :=
  ⟨h.breakpoints, fun hended => absurd (h.going.symm.trans hended) (by simp)⟩

/-- A process that is over is gone. -/
theorem Over.tabled (h : d.Over table) : d.Tabled table :=
  ⟨h.breakpoints, fun _ => h.gone⟩

omit [Tracee σ] in
/-- What is done without letting the process go, and without changing the table. -/
theorem Live.next (h : d.Live table) (deed : Deed) (q : σ)
    (hdeed : ended (d.process.next deed q).events = ended d.process.events) :
    Live table ⟨d.process.next deed q, d.breakpoints⟩ :=
  ⟨h.breakpoints, hdeed.trans h.going⟩

/-- A process whose stop is terminal is over, any other is still there. -/
theorem halted_of (hlive : stop.isTerminal = false → d.Live table)
    (hover : stop.isTerminal = true → d.Over table) : Halted table stop d := by
  rcases stop with _ | _ | _ | _
  · exact hlive rfl
  · exact hlive rfl
  · exact hover rfl
  · exact hover rfl

/-- Behind a stop that is not terminal the process is still there. -/
theorem Halted.live (h : Halted table stop d) (hstop : stop.isTerminal = false) :
    d.Live table := by
  rcases stop with _ | _ | _ | _
  · exact h
  · exact h
  · cases hstop
  · cases hstop

omit [Tracee σ] in
/-- The breakpoints of the step engine are dropped from the table. -/
theorem Live.discardInternal (h : d.Live table) : d.discardInternal.Live table.user :=
  ⟨congrArg BreakpointTable.user h.breakpoints, h.going⟩

/-- The breakpoints of the step engine can be dropped of a process that is over, too. -/
theorem Over.discardInternal (h : d.Over table) : d.discardInternal.Over table.user :=
  ⟨congrArg BreakpointTable.user h.breakpoints, h.hasEnded, h.gone⟩

/-- They can be dropped behind a run to a return, wherever that came to. -/
theorem Reached.discardInternal {outcome : Option Stop} (h : Reached table outcome d) :
    Reached table.user outcome d.discardInternal := by
  rcases outcome with _ | _ | _ | _ | _
  · exact Live.discardInternal h
  · exact Live.discardInternal h
  · exact Live.discardInternal h
  · exact Over.discardInternal h
  · exact Over.discardInternal h

/-- A process that is alive is not over, so any stop of it is one that it survived. -/
theorem Reached.live {outcome : Option Stop} (h : Reached table outcome d)
    (halive : Tracee.isAlive d.process = true) : d.Live table ∧
      ∀ (table' : BreakpointTable) (d' : Debuggee (Recorded σ)), d'.Live table' →
        Reached table' outcome d' := by
  rcases outcome with _ | _ | _ | _ | _
  · exact ⟨h, fun _ _ hd => hd⟩
  · exact ⟨h, fun _ _ hd => hd⟩
  · exact ⟨h, fun _ _ hd => hd⟩
  all_goals exact absurd (Over.gone h) (by simp [halive])

/-- An answer that does not speak of an end. -/
theorem Tabled.answered (h : d.Tabled table) {f : Feedback} (hf : f.reportsEnd = false) :
    d.Answered table f :=
  ⟨h, fun hend => absurd (hf.symm.trans hend) (by simp)⟩

/-- A stop that was answered, or could not be, leaves nothing behind. -/
theorem Closed.ends {interruptible : Prop} {r : Except DebugError Feedback}
    (h : Closed table r d) : Ends interruptible table r d := by
  rcases r with _ | _
  · exact .inl h
  · exact h

/-- A failure that leaves the breakpoints as they are to be leaves nothing behind. -/
theorem Tabled.ends {interruptible : Prop} {e : DebugError} (h : d.Tabled table) :
    Ends interruptible table (.error e) d :=
  .inl h

/-- A breakpoint that could not be written may be left behind. -/
theorem Stuck.ends {interruptible : Prop} {e : DebugError} (h : d.Stuck table) :
    Ends interruptible table (.error e) d :=
  .inr (.inl h)

end Relations

/-! ### Letting the process go -/

section LettingGo

variable {table : BreakpointTable} {d : Debuggee (Recorded σ)}

/-- The process was let go. -/
theorem Live.letGo (h : d.Live table) {deed : Deed} {r : Except DebugError Stop} {q : σ}
    (hdeed : deed = .step r ∨ ∃ signal, deed = .resume signal r)
    (hterminal : ∀ stop, r = .ok stop → stop.isTerminal = true → Tracee.isAlive q = false) :
    LetGo table r ⟨d.process.next deed q, d.breakpoints⟩ := by
  rcases r with e | stop
  -- a failure is the refusal, and the last event says so
  · refine ⟨h.next deed q ?_, .inl (.inr ⟨_, List.mem_cons_self, ?_⟩)⟩
    all_goals rcases hdeed with rfl | ⟨_, rfl⟩ <;> rfl
  have hended : ended (d.process.next deed q).events =
      (stop.isTerminal || ended d.process.events) := by
    rcases hdeed with rfl | ⟨_, rfl⟩ <;> rfl
  refine halted_of (fun hlasting => h.next deed q ?_) fun hover =>
    ⟨h.breakpoints, ?_, hterminal stop rfl hover⟩
  · rw [hended, hlasting, Bool.false_or]
  · exact hended.trans (by rw [hover, Bool.true_or])

variable [LawfulTracee σ]

/-- A single step lets the process go. -/
theorem Live.step (h : d.Live table) :
    LetGo table (onProcess Tracee.singleStep d).1 (onProcess Tracee.singleStep d).2 := by
  rw [onProcess_apply, Recorded.singleStep_apply]
  exact h.letGo (.inl rfl) fun stop hstop =>
    LawfulTracee.step_terminal (σ := σ) (Prod.ext hstop rfl)

/-- The instruction under a breakpoint is executed. -/
theorem Live.stepOver {addr : Addr} (h : d.Live table) (harmed : table.isArmed addr = true) :
    LetGo table (withDisarmed addr Tracee.singleStep d).1
      (withDisarmed addr Tracee.singleStep d).2 := by
  rw [← h.breakpoints] at harmed
  rw [withDisarmed_apply]
  rcases hb : d.breakpoints.locate? addr with _ | b
  · rw [isArmed_of_locate?_none hb] at harmed
    cases harmed
  simp only [Recorded.writeMemory_apply]
  rcases hlift : Tracee.writeMemory addr [b.saved] d.process.process with ⟨e | _, lifted⟩
  · exact ⟨h.next _ lifted rfl, .inr ⟨_, _, addr, b.saved, e, rfl, rfl, rfl, harmed⟩⟩
  -- the trap is out of memory, but its breakpoint is still in the table
  have hlifted := h.next (.write addr [b.saved] (.ok ())) lifted rfl
  simp only [Recorded.singleStep_apply, Recorded.isAlive_eq]
  obtain ⟨r, stepped, hstep⟩ : ∃ r q, Tracee.singleStep lifted = (r, q) := ⟨_, _, rfl⟩
  simp only [Recorded.next, hstep] at hlifted ⊢
  have hterminal : ∀ stop, r = .ok stop → stop.isTerminal = true →
      Tracee.isAlive stepped = false :=
    fun stop hstop => LawfulTracee.step_terminal (σ := σ) (hstop ▸ hstep)
  have hstepped := hlifted.letGo (.inl (Eq.refl (Deed.step r))) hterminal
  by_cases halive : Tracee.isAlive stepped = true
  · -- the process is there, so the trap is put back
    simp only [halive, if_true]
    rcases r with e | stop
    · refine ⟨hstepped.1.next _ _ rfl, .inl (.inr ⟨⟨.step (.error e), lifted, stepped⟩, ?_, rfl⟩)⟩
      exact List.mem_cons_of_mem _ List.mem_cons_self
    -- a process that is alive did not end
    have hlasting : stop.isTerminal = false := by
      rcases hstop : stop.isTerminal
      · rfl
      · exact absurd (hterminal stop rfl hstop) (by simp [halive])
    have hlive := Halted.live hstepped hlasting
    rcases hback : Tracee.writeMemory addr [trapByte] stepped with ⟨e | _, q⟩
    · exact ⟨hlive.next _ q rfl, .inr ⟨_, _, addr, trapByte, e, rfl, rfl, rfl, harmed⟩⟩
    · exact halted_of (fun _ => hlive.next _ q rfl) fun hover =>
        absurd (hlasting.symm.trans hover) (by simp)
  · -- there is no memory to which the trap could be put back
    simp only [halive]
    exact hstepped

omit [LawfulTracee σ] in
/-- The program counter is set. -/
theorem Live.setPc (h : d.Live table) (pc : Addr) :
    (onProcess (Tracee.setPc pc) d).2.Live table ∧
      ∀ e, (onProcess (Tracee.setPc pc) d).1 = .error e →
        Refused e (onProcess (Tracee.setPc pc) d).2.process := by
  rw [onProcess_apply, Recorded.setPc_apply]
  rcases hregs : Tracee.registers d.process.process with e | regs
  · refine ⟨h, fun e' he => .inl ?_⟩
    cases he
    exact hregs
  dsimp only
  rcases Tracee.setRegisters (regs.setPc pc) d.process.process with ⟨e | _, q⟩
  · refine ⟨h.next _ q rfl, fun e' he => .inr ⟨_, List.mem_cons_self, ?_⟩⟩
    cases he
    rfl
  · exact ⟨h.next _ q rfl, nofun⟩

end LettingGo

/-! ### Setting and taking breakpoints -/

/-- A breakpoint of the step engine is set, or that fails and there is none. -/
theorem Live.setInternal {table : BreakpointTable} {d : Debuggee (Recorded σ)}
    (h : d.Live table) (index : DebugIndex) {addr : Addr} (hfree : table.isArmed addr = false) :
    Outcome (fun d' => ∃ b, b.kind = .internal ∧ b.addr = addr ∧ d'.Live (table ++ [b]))
      (Live table) (setInternal index addr d).1 (setInternal index addr d).2 := by
  rw [setInternal_apply]
  simp only [arm_apply, h.breakpoints, hfree, Bool.false_eq_true, if_false,
    Recorded.readExact_eq]
  rcases Tracee.readExact d.process.process addr 1 with e | bytes
  · exact h
  simp only [Recorded.writeMemory_apply]
  rcases Tracee.writeMemory addr [trapByte] d.process.process with ⟨e | _, q⟩
  · exact ⟨rfl, h.going⟩
  · exact ⟨_, rfl, rfl, rfl, h.going⟩

/-- The breakpoints of the step engine are cleared, or one of them cannot be written. -/
theorem clearInternal_ends {d : Debuggee (Recorded σ)} (hdistinct : d.breakpoints.Distinct)
    (hgoing : ended d.process.events = false) :
    Outcome (Live d.breakpoints.user) (Stuck d.breakpoints.user) (clearInternal d).1
      (clearInternal d).2 := by
  let K : Debuggee (Recorded σ) → Prop := fun d' =>
    d'.breakpoints.user = d.breakpoints.user ∧ d'.breakpoints.Distinct ∧
      ended d'.process.events = false
  have hend : Outcome K (Stuck d.breakpoints.user) (clearInternal d).1 (clearInternal d).2 := by
    refine clearKind_keeps_of_kind (K := K) (fun b hb hkind d' harmed hd' => ?_) hdistinct
      ⟨rfl, hdistinct, hgoing⟩
    obtain ⟨huser, hdistinct', hgoing'⟩ := hd'
    rw [clearAt_apply]
    rcases hc : d'.breakpoints.locate? b.addr with _ | c
    · rw [isArmed_of_locate?_none hc] at harmed
      cases harmed
    simp only [Recorded.writeMemory_apply]
    rcases Tracee.writeMemory b.addr [c.saved] d'.process.process with ⟨e | _, q⟩
    · exact ⟨huser, hdistinct', hgoing', _, _, b.addr, c.saved, e, rfl, rfl, rfl, harmed⟩
    · refine ⟨(hdistinct'.filter_without fun a ha hakind => ?_).trans huser, hdistinct'.without,
        hgoing'⟩
      -- the operator's breakpoints in what is left are those of the whole table
      have ha' : a ∈ d.breakpoints.user := huser ▸ List.mem_filter.2 ⟨ha, by simpa using hakind⟩
      exact hdistinct.addr_ne_of_kind hb (by simp [hkind]) a (List.mem_filter.1 ha').1 hakind
  rcases hclear : clearInternal d with ⟨_ | n, d'⟩ <;> rw [hclear] at hend
  · exact hend
  · exact ⟨clearInternal_breakpoints hdistinct hclear, hend.2.2⟩

end Debuggee

namespace Session

open Debuggee

/-! ### Parts of a command -/

variable [Tracee σ] {index : DebugIndex} {table : BreakpointTable}

/-- What is said of the process and its breakpoints, in a session with this index. -/
def On (index : DebugIndex) (P : Debuggee (Recorded σ) → Prop) (t : Session (Recorded σ)) : Prop :=
  P t.debuggee ∧ t.index = index

section Parts

variable {t : Session (Recorded σ)}

/-- The breakpoints of the step engine are cleared in a process that goes on. -/
theorem clearInternal_cleared {user : BreakpointTable} (huser : t.breakpoints.user = user)
    (hdistinct : t.breakpoints.Distinct) (hgoing : ended t.process.events = false)
    (hindex : t.index = index) :
    Ensures Session.clearInternal t fun r => On index (Outcome (Live user) (Stuck user) r) := by
  have hcleared := clearInternal_ends (d := t.debuggee) hdistinct hgoing
  rw [show t.debuggee.breakpoints.user = user from huser] at hcleared
  refine Ensures.bind (R := fun r => On index (Outcome (Live user) (Stuck user) r))
    (ensures_onDebuggee.2 ⟨hcleared, hindex⟩) (fun _ u hu => ensures_pure.2 hu) fun _ _ hu => hu

variable [LawfulTracee σ]

/-- A single step of the session lets the process go. -/
theorem step_letGo (h : t.On index (Live table)) :
    Ensures (onProcess Tracee.singleStep) t fun r => On index (LetGo table r) :=
  ensures_onDebuggee.2 ⟨h.1.step, h.2⟩

/-- A step over a breakpoint lets the process go, unless lifting the breakpoint or putting it back
fails. -/
theorem stepOver_letGo {addr : Addr} (harmed : table.isArmed addr = true)
    (h : t.On index (Live table)) :
    Ensures (stepOverBreakpoint addr) t fun r => On index (LetGo table r) :=
  ensures_onDebuggee.2 ⟨h.1.stepOver harmed, h.2⟩

/-- One instruction of the program is executed, whether there is a breakpoint under it or not. -/
theorem stepOnce_letGo (h : t.On index (Live table)) :
    Ensures stepOnce t fun r => On index fun d => match r with
      | .ok stop => Halted table stop d
      | .error _ => d.Live table := by
  refine ensures_observe_bind.2 ?_
  rcases Tracee.pc t.process with e | pc
  · exact h
  -- both ways of letting the process go say the same of a stop and of an error
  have weaken : ∀ r u, On index (LetGo table r) u → On (σ := σ) index (fun d => match r with
      | .ok stop => Halted table stop d
      | .error _ => d.Live table) u := by
    intro r u hu
    rcases r with e | stop
    · exact ⟨hu.1.1, hu.2⟩
    · exact hu
  refine ensures_get_bind.2 (ensures_ite.2 ⟨fun harmed => ?_, fun _ => ?_⟩)
  · refine (stepOver_letGo ?_ h).mono weaken
    rwa [← h.1.breakpoints]
  · exact (step_letGo h).mono weaken

/-- A resume of the session lets the process go, with the signal that is to be delivered. -/
theorem resume_letGo (h : t.On index (Live table)) :
    Ensures resumeProcess t fun r => On index (LetGo table r) := by
  intro r u hresume
  simp only [resumeProcess, Recorded.resume_apply] at hresume
  rcases hr : Tracee.resume t.pendingSignal t.process.process with _ | ⟨r', q⟩
  · simp [hr] at hresume
  simp only [hr, Option.map_some] at hresume
  cases hresume
  exact ⟨h.1.letGo (.inr ⟨_, rfl⟩) fun stop hstop =>
    LawfulTracee.resume_terminal (σ := σ) (hstop ▸ hr), h.2⟩

omit [LawfulTracee σ] in
/-- The program counter is moved back, if the process trapped on a breakpoint. -/
theorem rewind_live (h : t.On index (Live table)) :
    Ensures rewindAfterTrap t fun r => On index fun d =>
      d.Live table ∧ ∀ e, r = .error e → Refused e d.process := by
  intro r u hrewind
  rcases rewindAfterTrap_cases hrewind with ⟨e, hpc, rfl, rfl⟩ | ⟨pc, -, rfl, rfl, -⟩ |
    ⟨pc, a, -, -, -, rfl, rfl⟩
  · refine ⟨⟨h.1, fun e' he' => .inl ?_⟩, h.2⟩
    cases he'
    exact Tracee.registers_of_pc_error hpc
  · exact ⟨⟨h.1, nofun⟩, h.2⟩
  · obtain ⟨hlive, hrefused⟩ := h.1.setPc a
    refine ⟨⟨hlive, fun e he => hrefused e ?_⟩, h.2⟩
    rcases hset : (Tracee.setPc a t.process).1 with e' | _ <;> rw [hset] at he <;> cases he
    exact hset

omit [LawfulTracee σ] in
/-- The answer for a process that stopped and goes on. -/
theorem stopFeedback_closed (h : t.On index (Live table)) (pc : Addr) :
    Ensures (reading (·.stopFeedback pc)) t fun r => On index (Closed table r) :=
  ensures_reading.2 ⟨h.1.tabled.answered rfl, h.2⟩

omit [LawfulTracee σ] in
/-- A part that ends with an answer can be the last one. -/
theorem ends_of_closed {interruptible : Prop} {x : Task (Recorded σ) Feedback}
    (hx : Ensures x t fun r => On index (Closed table r)) :
    Ensures x t fun r => On index (Ends interruptible table r) :=
  hx.mono fun _ _ hu => ⟨hu.1.ends, hu.2⟩

omit [LawfulTracee σ] in
/-- A stop is answered. The table keeps the breakpoints of the operator, also at the end of the
process. -/
theorem stopped_closed {stop : Stop} (h : t.On index (Halted table.user stop)) :
    Ensures (stopped stop) t fun r => On index (Closed table.user r) := by
  -- the two ends of the process have one argument, with another answer each
  have gone : t.On index (Over table.user) → ∀ answer : Nat → Feedback,
      Ensures (do discardInternal; return answer (Tracee.pid (← get).process)) t
        fun r => On index (Closed table.user r) := by
    intro hover answer
    refine (ensures_bind_of_ok (show discardInternal t = some (.ok (), _) from rfl)).2 ?_
    have hdiscarded := hover.1.discardInternal
    rw [user_user] at hdiscarded
    refine ensures_get_bind.2 (ensures_pure.2 ⟨⟨hdiscarded.tabled, ?_⟩, hover.2⟩)
    intro _
    exact hover.1.hasEnded
  rcases stop with kind | sig | code | sig
  -- a trap is taken back before the answer, other stops leave the pc
  · rcases kind with _ | _ | _
    · refine (rewind_live h).bind (fun pc u hu => ?_) fun _ u hu => ⟨hu.1.1.tabled, hu.2⟩
      exact stopFeedback_closed ⟨hu.1.1, hu.2⟩ pc
    all_goals
      refine ensures_observe_bind.2 ?_
      split
      · exact stopFeedback_closed h _
      · exact ⟨Live.tabled h.1, h.2⟩
  · refine Ensures.bind (R := fun _ => On index (Live table.user)) (ensures_modify.2 ⟨h.1, h.2⟩)
      (fun _ u hu => ensures_observe_bind.2 ?_) fun _ _ hu => ⟨hu.1.tabled, hu.2⟩
    split
    · exact ensures_pure.2 ⟨hu.1.tabled.answered rfl, hu.2⟩
    · exact ⟨hu.1.tabled, hu.2⟩
  · exact gone h fun pid => .exited pid code
  · exact gone h fun pid => .killed pid sig

omit [LawfulTracee σ] in
/-- A run back that was taken back is answered, or the command goes on. -/
theorem answerFor_returned {outcome : Option Stop}
    (h : t.On index (Reached table.user outcome)) :
    Ensures (answerFor outcome) t fun r => On index (Returned table.user r) := by
  unfold answerFor
  split
  · exact ensures_pure.2 h
  · refine ensures_observe_bind.2 ?_
    split
    · exact ensures_get_bind.2 (ensures_pure.2 ⟨(Live.tabled h.1).answered rfl, h.2⟩)
    · exact ⟨.inl (Live.tabled h.1), h.2⟩
  · refine (stopped_closed h).bind (fun f u hu => ensures_pure.2 hu) fun e u hu => ?_
    exact ⟨.inl hu.1, hu.2⟩

/-- A run to the return of a call keeps the table. -/
theorem runBack_ran {ret : Addr} (callerSp : Addr) (harmed : table.isArmed ret = true) (fuel : Nat)
    (h : t.On index (Live table)) :
    Ensures (runBack ret callerSp fuel) t fun r => On index (RanBack table r) := by
  -- the induction is on the traps at the return address; each is left with the same table
  induction fuel generalizing t with
  | zero => exact ensures_diverge
  | succ fuel ih =>
    refine (resume_letGo h).bind (fun stop u hu => ?_) fun _ _ hu => hu
    refine ensures_ite.2 ⟨fun _ => ensures_pure.2 hu, fun hstop => ?_⟩
    rw [Decidable.not_not.1 hstop] at hu ⊢
    refine (rewind_live hu).bind (fun pc v hv => ?_) fun e v hv => ?_
    · have hlive : v.On index (Live table) := ⟨hv.1.1, hv.2⟩
      refine ensures_ite.2 ⟨fun _ => ensures_pure.2 hlive, fun _ => ?_⟩
      refine ensures_observe_bind.2 ?_
      rcases hregs : Tracee.registers v.process with e | regs
      · exact ⟨⟨hlive.1, .inl (.inl hregs)⟩, hlive.2⟩
      -- it is back in the caller, or in an inner call, from which it goes on
      refine ensures_ite.2 ⟨fun _ => ensures_pure.2 hlive, fun _ => ?_⟩
      refine (stepOver_letGo harmed hlive).bind (fun stop w hw => ?_) fun _ _ hw => hw
      refine ensures_ite.2 ⟨fun _ => ensures_pure.2 hw, fun hstep => ?_⟩
      rw [Decidable.not_not.1 hstep] at hw
      exact ih hw
    · exact ⟨⟨hv.1.1, .inl (hv.1.2 e rfl)⟩, hv.2⟩

omit [LawfulTracee σ] in
/-- The breakpoint behind the call is taken back, if it can be written. -/
theorem takeBack_ran {b : Breakpoint} {outcome : Option Stop} (hkind : b.kind = .internal)
    (hdistinct : Distinct (table.user ++ [b]))
    (h : t.On index (Reached (table.user ++ [b]) outcome)) :
    Ensures takeBack t fun r => On index
      (Outcome (Reached table.user outcome) (Stuck table.user) r) := by
  have huser : user (table.user ++ [b]) = table.user := by
    rw [user_append_internal hkind, user_user]
  refine ensures_get_bind.2 (ensures_ite.2 ⟨fun halive => ?_, fun _ => ?_⟩)
  -- cleared in memory as long as there is a process, and dropped from the table otherwise
  · obtain ⟨hlive, hback⟩ := h.1.live halive
    have hbreakpoints : t.breakpoints = table.user ++ [b] := hlive.breakpoints
    rw [← hbreakpoints] at huser hdistinct
    refine (clearInternal_cleared huser hdistinct hlive.going h.2).mono fun r u hu => ?_
    rcases r with e | _
    · exact hu
    · exact ⟨hback _ _ hu.1, hu.2⟩
  · refine ensures_modify.2 ⟨?_, h.2⟩
    have hdiscarded := h.1.discardInternal
    rwa [huser] at hdiscarded

/-- A run to a return takes its breakpoint back, unless it could not be written or the way back was
interrupted. -/
theorem runToReturn_returned (hdistinct : table.Distinct) (fuel : Nat) (ret callerSp : Addr)
    (h : t.On index (Live table.user)) :
    Ensures (runToReturn fuel ret callerSp) t fun r => On index (Returned table.user r) := by
  have hbreakpoints : t.breakpoints = table.user := h.1.breakpoints
  refine ensures_runToReturn.2 ⟨fun hfree => ?_, fun harmed => ?_⟩
  · -- a breakpoint of its own
    rw [hbreakpoints] at hfree
    have hset := h.1.setInternal t.index hfree
    refine Ensures.bind (R := fun r => On index (Outcome (fun d => ∃ b, b.kind = .internal ∧
        b.addr = ret ∧ d.Live (table.user ++ [b])) (Live table.user) r))
      (ensures_onDebuggee.2 ⟨hset, h.2⟩) (fun _ u hu => ?_) fun e u hu => ⟨.inl hu.1.tabled, hu.2⟩
    obtain ⟨⟨b, hkind, rfl, hlive⟩, hindex⟩ := hu
    have hdistinct' : Distinct (table.user ++ [b]) := hdistinct.user.append hfree
    have harmed : isArmed (table.user ++ [b]) b.addr = true := by
      rw [isArmed_append]
      simp
    have hstart : u.On index (Live (table.user ++ [b])) := ⟨hlive, hindex⟩
    refine (runBack_ran callerSp harmed fuel hstart).bind (fun outcome v hv => ?_) fun e v hv => ?_
    · refine (takeBack_ran hkind hdistinct' hv).bind (fun _ w hw => answerFor_returned hw)
        fun _ w hw => ?_
      exact ⟨.inr (.inl hw.1), hw.2⟩
    -- a failure of the process leaves the breakpoint where it is
    · obtain ⟨hlive, hfailed⟩ := hv.1
      have hleft : v.debuggee.breakpoints = table.user ++ [b] := hlive.breakpoints
      refine ⟨.inr ?_, hv.2⟩
      rcases hfailed with hrefused | hunwritten
      · exact .inr ⟨⟨b, hkind, hleft⟩, hleft ▸ hdistinct', hlive.going, hrefused⟩
      · refine .inl ⟨?_, hleft ▸ hdistinct', hlive.going, hunwritten⟩
        rw [hleft, user_append_internal hkind, user_user]
  · -- the breakpoint that is there already stays
    rw [hbreakpoints] at harmed
    refine (runBack_ran callerSp harmed fuel h).bind (fun outcome u hu => ?_) fun e u hu => ?_
    · exact answerFor_returned hu
    · exact ⟨.inl hu.1.1.tabled, hu.2⟩

/-! ### Stepping from line to line -/

/-- A round of a stepping command ends as what follows its instruction. -/
theorem instructionThen_ends {onward : Registers → InstructionInfo → Task (Recorded σ) Feedback}
    (h : t.On index (Live table.user))
    (honward : ∀ regs info u, u.On index (Live table.user) →
      Ensures (onward regs info) u fun r => On index (Ends True table.user r)) :
    Ensures (instructionThen onward) t fun r => On index (Ends True table.user r) := by
  refine ensures_observe_bind.2 ?_
  split
  · rename_i regs _
    refine (instructionAt_decodes regs.pc t).bind (fun info u hu => ?_) fun e u hu => ?_
    · rw [hu.1]
      refine (stepOnce_letGo h).bind (fun stop v hv => ?_) fun e v hv => ?_
      -- a stop is the answer, otherwise the session is as live as before and the command goes on
      · refine ensures_ite.2 ⟨fun _ => ?_, fun hstop => ?_⟩
        · exact ends_of_closed (stopped_closed hv)
        · rw [Decidable.not_not.1 hstop] at hv
          exact honward regs info v hv
      · exact ⟨hv.1.tabled.ends, hv.2⟩
    · rw [hu.1]
      exact ⟨h.1.tabled.ends, h.2⟩
  · exact ⟨h.1.tabled.ends, h.2⟩

omit [LawfulTracee σ] in
/-- What a run to a return address ends with, the stepping command ends with. -/
theorem ends_of_returned {r : Except DebugError (Option Feedback)} {e : DebugError}
    (hr : r = .error e) (h : t.On index (Returned table.user r)) :
    t.On index (Ends True table.user (.error e)) := by
  subst hr
  refine ⟨?_, h.2⟩
  rcases h.1 with htabled | hstuck | hinterrupted
  · exact htabled.ends
  · exact hstuck.ends
  · exact .inr (.inr ⟨trivial, hinterrupted⟩)

/-- Steps up to another line leave the breakpoints of the operator. -/
theorem stepFrom_ends (hdistinct : table.Distinct) (start : SourceLocation) (fuel : Nat)
    (h : t.On index (Live table.user)) :
    Ensures (stepFrom start fuel) t fun r => On index (Ends True table.user r) := by
  -- the induction is on the number of instructions; in between the table is the operator's
  induction fuel generalizing t with
  | zero => exact ensures_diverge
  | succ fuel ih =>
    refine instructionThen_ends h fun regs info u hu => ?_
    have shown : ∀ (v : Session (Recorded σ)) (pc : Addr), v.On index (Live table.user) →
        Ensures (reading (·.stopFeedback pc)) v fun r => On index (Ends True table.user r) :=
      fun v pc hv => ends_of_closed (stopFeedback_closed hv pc)
    refine ensures_observe_bind.2 ?_
    split
    · refine ensures_get_bind.2 ?_
      split
      · exact ensures_ite.2 ⟨fun _ => shown u _ hu, fun _ => ih hu⟩
      refine ensures_ite.2 ⟨fun _ => shown u _ hu, fun _ => ?_⟩
      -- the call went into code without lines, which is run until it is back
      refine (runToReturn_returned hdistinct fuel _ _ hu).bind (fun outcome v hv => ?_)
        fun e v hv => ends_of_returned rfl hv
      rcases outcome with _ | feedback
      · refine ensures_observe_bind.2 ?_
        split
        · refine ensures_get_bind.2 ?_
          split
          · exact ensures_ite.2 ⟨fun _ => shown v _ hv, fun _ => ih hv⟩
          · exact ih hv
        · exact ⟨(Live.tabled hv.1).ends, hv.2⟩
      · exact ensures_pure.2 hv
    · exact ⟨hu.1.tabled.ends, hu.2⟩

omit [LawfulTracee σ] in
/-- One round of steps over calls leaves the breakpoints of the operator if the rounds behind it do. -/
theorem nextOnward_ends (start : SourceLocation) (fuel : Nat)
    (hnext : ∀ u : Session (Recorded σ), u.On index (Live table.user) →
      Ensures (nextFrom start fuel) u fun r => On index (Ends True table.user r))
    (h : t.On index (Live table.user)) :
    Ensures (nextOnward start fuel) t fun r => On index (Ends True table.user r) := by
  have shown : ∀ pc : Addr, Ensures (reading (·.stopFeedback pc)) t fun r =>
      On index (Ends True table.user r) :=
    fun pc => ends_of_closed (stopFeedback_closed h pc)
  refine ensures_observe_bind.2 ?_
  split
  · refine ensures_get_bind.2 (ensures_ite.2 ⟨fun _ => shown _, fun _ => ?_⟩)
    refine ensures_get_bind.2 ?_
    -- the line is another one, the same one, or not known
    split
    · exact ensures_ite.2 ⟨fun _ => hnext t h, fun _ => shown _⟩
    · exact shown _
  · exact ⟨h.1.tabled.ends, h.2⟩

/-- Steps over calls up to another line leave the breakpoints of the operator. -/
theorem nextFrom_ends (hdistinct : table.Distinct) (start : SourceLocation) (fuel : Nat)
    (h : t.On index (Live table.user)) :
    Ensures (nextFrom start fuel) t fun r => On index (Ends True table.user r) := by
  induction fuel generalizing t with
  | zero => exact ensures_diverge
  | succ fuel ih =>
    refine instructionThen_ends h fun regs info u hu => ?_
    refine ensures_observe_bind.2 ?_
    split
    · refine ensures_ite.2 ⟨fun _ => ?_, fun _ => nextOnward_ends start fuel (fun _ hv => ih hv) hu⟩
      -- the call is run until it is back
      refine (runToReturn_returned hdistinct fuel _ _ hu).bind (fun outcome v hv => ?_)
        fun e v hv => ends_of_returned rfl hv
      rcases outcome with _ | feedback
      · exact nextOnward_ends start fuel (fun _ hv => ih hv) hv
      · exact ensures_pure.2 hv
    · exact ⟨hu.1.tabled.ends, hu.2⟩

/-! ### Commands -/

/-- The state in which a command that lets the process go finds the session: no address has two
breakpoints, and the process is gone if it ended. -/
structure Ready (t : Session (Recorded σ)) : Prop where
  distinct : t.breakpoints.Distinct
  gone : ended t.process.events = true → Tracee.isAlive t.process = false

/-- How a command that lets the process go ends: the process is gone, or the command ends as its
parts do. -/
def Settled (interruptible : Prop) (t : Session (Recorded σ)) (r : Except DebugError Feedback)
    (u : Session (Recorded σ)) : Prop :=
  (r = .error .processGone ∧ u = t ∧ Tracee.isAlive t.process = false) ∨
    u.On t.index (Ends interruptible t.breakpoints.user r)

omit [LawfulTracee σ] in
/-- Every command that lets the process go begins in this way. -/
theorem begin_settled {interruptible : Prop} (h : t.Ready)
    {rest : Task (Recorded σ) Feedback}
    (hrest : ∀ u, u.On t.index (Live t.breakpoints.user) →
      Ensures rest u fun r => On t.index (Ends interruptible t.breakpoints.user r)) :
    Ensures (do ensureAlive; Session.clearInternal; rest) t (Settled interruptible t) := by
  refine ensures_observe_bind.2 ?_
  by_cases halive : Tracee.isAlive t.process = true
  · have hgoing : ended t.debuggee.process.events = false := by
      rcases hended : ended t.debuggee.process.events
      · rfl
      · exact absurd (h.gone hended) (by simp [halive])
    simp only [halive, if_true]
    -- what an interrupted command may have left behind is cleared first
    have hcleared := clearInternal_cleared rfl h.distinct hgoing (Eq.refl t.index)
    refine hcleared.bind (fun _ u hu => ?_) fun e u hu => ?_
    · exact (hrest u hu).mono fun _ _ hv => .inr hv
    · exact .inr ⟨Stuck.ends hu.1, hu.2⟩
  · simp only [halive]
    exact .inl ⟨rfl, rfl, by simpa using halive⟩

/-- A process that is continued settles, and nothing can interrupt a way back here. -/
theorem continueExecution_settled (h : t.Ready) :
    Ensures continueExecution t (Settled False t) := by
  refine begin_settled h fun u hu => ?_
  refine ensures_observe_bind.2 ?_
  split
  · have stopsAs : ∀ {stop : Stop} (v : Session (Recorded σ)),
        v.On t.index (Halted t.breakpoints.user stop) →
        Ensures (stopped stop) v fun r => On t.index (Ends False t.breakpoints.user r) :=
      fun v hv => ends_of_closed (stopped_closed hv)
    have run : ∀ v, v.On t.index (Live t.breakpoints.user) →
        Ensures (resumeProcess >>= fun stop => Session.stopped stop) v fun r =>
          On t.index (Ends False t.breakpoints.user r) := fun v hv =>
      (resume_letGo hv).bind (fun stop w hw => stopsAs w hw) fun _ w hw =>
        ⟨hw.1.1.tabled.ends, hw.2⟩
    refine ensures_get_bind.2 (ensures_ite.2 ⟨fun harmed => ?_, fun _ => run u hu⟩)
    -- the instruction under a breakpoint comes first, and may stop the process itself
    have hbreakpoints : u.breakpoints = t.breakpoints.user := hu.1.breakpoints
    rw [hbreakpoints] at harmed
    refine (stepOver_letGo harmed hu).bind (fun stop v hv => ?_) fun _ v hv => ?_
    · refine ensures_ite.2 ⟨fun _ => stopsAs v hv, fun hstop => ?_⟩
      rw [Decidable.not_not.1 hstop] at hv
      exact run v hv
    · exact ⟨hv.1.1.tabled.ends, hv.2⟩
  · exact ⟨hu.1.tabled.ends, hu.2⟩

/-- A step of one instruction settles without any breakpoint of its own. -/
theorem stepInstruction_settled (h : t.Ready) :
    Ensures stepInstruction t (Settled False t) := by
  refine begin_settled h fun u hu => ?_
  refine (stepOnce_letGo hu).bind (fun stop v hv => ?_) fun e v hv => ?_
  · exact ends_of_closed (stopped_closed hv)
  · exact ⟨hv.1.tabled.ends, hv.2⟩

omit [LawfulTracee σ] in
/-- A command that steps by lines settles if its steps from every line leave the breakpoints of the
operator. -/
theorem stepLineWith_settled (h : t.Ready) {from_ : SourceLocation → Task (Recorded σ) Feedback}
    (hfrom : ∀ start u, u.On t.index (Live t.breakpoints.user) →
      Ensures (from_ start) u fun r => On t.index (Ends True t.breakpoints.user r)) :
    Ensures (stepLineWith from_) t (Settled True t) := by
  refine begin_settled h fun u hu => ?_
  refine ensures_observe_bind.2 ?_
  split
  · refine ensures_get_bind.2 ?_
    split
    · exact hfrom _ u hu
    · exact ensures_throw.2 ⟨hu.1.tabled.ends, hu.2⟩
  · exact ⟨hu.1.tabled.ends, hu.2⟩

/-- Stepping to another line settles. -/
theorem stepLine_settled (h : t.Ready) (fuel : Nat) :
    Ensures (stepLine fuel) t (Settled True t) :=
  stepLineWith_settled h fun start _ hu => stepFrom_ends h.distinct start fuel hu

/-- Stepping over calls to another line settles. -/
theorem nextLine_settled (h : t.Ready) (fuel : Nat) :
    Ensures (nextLine fuel) t (Settled True t) :=
  stepLineWith_settled h fun start _ hu => nextFrom_ends h.distinct start fuel hu

end Parts

end Session

end SourceDebugger
