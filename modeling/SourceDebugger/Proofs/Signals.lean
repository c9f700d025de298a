import SourceDebugger.Proofs.Coherence

/-!
# What becomes of signals

A signal that stops the process is kept until the process is resumed with it. There is room for one
signal, so one that stops a single step takes the place of the one that waits. `SignalLedger` keeps
account of the signals of a process from its record.

* `Session.signals_accounted`: in every run of commands the signals with which a process was resumed
  and the one that waits are some of those that stopped it since its start, in the same order. All
  others were overwritten by a signal that stopped a single step; if there was none of these, no
  signal is missing.
-/

namespace SourceDebugger

variable {σ : Type}

/-- Where the signals of a process stand. -/
structure SignalLedger where
  /-- Those that stopped it, in this order. -/
  arrived : List Signal
  /-- Those with which it was resumed, in this order. -/
  delivered : List Signal
  /-- The one that stopped it last, if the process was not resumed since. -/
  waiting : Option Signal
  /-- Those that waited when another one stopped a single step. -/
  overwritten : List Signal
deriving DecidableEq

namespace SignalLedger

/-- The ledger of a process that has just been started. -/
def empty : SignalLedger := ⟨[], [], none, []⟩

/-- What is dealt with a process is entered. -/
def enter (l : SignalLedger) : Deed → SignalLedger
  | .step (.ok (.signal s)) =>
    { l with arrived := l.arrived ++ [s], waiting := some s,
             overwritten := l.overwritten ++ l.waiting.toList }
  | .resume signal (.ok (.signal s)) =>
    { l with arrived := l.arrived ++ [s], delivered := l.delivered ++ signal.toList,
             waiting := some s }
  | .resume signal _ => { l with delivered := l.delivered ++ signal.toList, waiting := none }
  | .restart (.ok _) => empty
  | _ => l

/-- The signals of the ledger that were delivered, and one that is to be delivered, are some of
those that arrived. -/
def Covers (l : SignalLedger) (pending : Option Signal) : Prop :=
  (l.delivered ++ pending.toList).Sublist l.arrived

/-- Every signal that arrived was delivered, is to be delivered, or was overwritten. -/
structure Complete (l : SignalLedger) (pending : Option Signal) : Prop where
  /-- The one that waits is the one to be delivered. -/
  waiting : l.waiting = pending
  /-- There are no others. -/
  perm : l.arrived.Perm (l.delivered ++ pending.toList ++ l.overwritten)

variable {l : SignalLedger} {pending : Option Signal}

/-- If nothing was overwritten, no signal is missing and all are in order. -/
theorem Covers.eq_of_complete (h : l.Covers pending) (hcomplete : l.Complete pending)
    (hnone : l.overwritten = []) : l.arrived = l.delivered ++ pending.toList := by
  refine (h.eq_of_length ?_).symm
  rw [hcomplete.perm.length_eq, hnone, List.append_nil]

/-- The delivered signals alone are some of those that arrived. -/
theorem Covers.delivered (h : l.Covers pending) : l.Covers none := by
  refine List.Sublist.trans ?_ h
  rw [Option.toList_none, List.append_nil]
  exact List.sublist_append_left _ _

/-- One more signal has arrived. -/
theorem Covers.arrive (h : l.Covers none) (s : Signal) :
    (l.delivered ++ [s]).Sublist (l.arrived ++ [s]) := by
  refine List.Sublist.append ?_ (List.Sublist.refl [s])
  rwa [Covers, Option.toList_none, List.append_nil] at h

theorem Covers.step (h : l.Covers pending) (r : Except DebugError Stop) :
    (l.enter (.step r)).Covers pending ∧
      ∀ s, r = .ok (.signal s) → (l.enter (.step r)).Covers (some s) := by
  refine ⟨?_, fun s hs => ?_⟩
  -- a signal that is not noted is one more arrival
  · rcases r with _ | (_ | s | _ | _)
    case ok.signal => exact List.Sublist.trans h (List.sublist_append_left _ _)
    all_goals exact h
  · subst hs
    exact h.delivered.arrive s

theorem Complete.step (h : l.Complete pending) (r : Except DebugError Stop) :
    ((∀ s, r ≠ .ok (.signal s)) → (l.enter (.step r)).Complete pending) ∧
      ∀ s, r = .ok (.signal s) → (l.enter (.step r)).Complete (some s) := by
  refine ⟨fun hs => ?_, fun s hs => ?_⟩
  · rcases r with _ | (_ | s | _ | _)
    case ok.signal => exact absurd rfl (hs s)
    all_goals exact h
  · subst hs
    refine ⟨rfl, List.perm_iff_count.2 fun a => ?_⟩
    -- the one that waited is overwritten now
    have hcount := List.perm_iff_count.1 h.perm a
    simp only [enter, h.waiting, List.count_append, Option.toList_some] at hcount ⊢
    omega

theorem Covers.resume (h : l.Covers pending) (r : Except DebugError Stop) :
    (l.enter (.resume pending r)).Covers none ∧
      ∀ s, r = .ok (.signal s) → (l.enter (.resume pending r)).Covers (some s) := by
  -- the signal that was pending is delivered before the process can stop again
  have hdelivered : ({ l with delivered := l.delivered ++ pending.toList } : SignalLedger).Covers
      none := by
    rwa [Covers, Option.toList_none, List.append_nil]
  refine ⟨?_, fun s hs => ?_⟩
  · rcases r with _ | (_ | s | _ | _)
    case ok.signal => exact List.Sublist.trans hdelivered (List.sublist_append_left _ _)
    all_goals exact hdelivered
  · subst hs
    exact hdelivered.arrive s

theorem Complete.resume (h : l.Complete pending) (r : Except DebugError Stop) :
    ((∀ s, r ≠ .ok (.signal s)) → (l.enter (.resume pending r)).Complete none) ∧
      ∀ s, r = .ok (.signal s) → (l.enter (.resume pending r)).Complete (some s) := by
  have hdelivered : l.arrived.Perm (l.delivered ++ pending.toList ++
      (none : Option Signal).toList ++ l.overwritten) := by
    rw [Option.toList_none, List.append_nil]
    exact h.perm
  refine ⟨fun hs => ?_, fun s hs => ?_⟩
  · rcases r with _ | (_ | s | _ | _)
    case ok.signal => exact absurd rfl (hs s)
    all_goals exact ⟨rfl, hdelivered⟩
  · subst hs
    refine ⟨rfl, List.perm_iff_count.2 fun a => ?_⟩
    have hcount := List.perm_iff_count.1 h.perm a
    simp only [enter, List.count_append, Option.toList_some] at hcount ⊢
    omega

end SignalLedger

namespace Recorded

/-- The ledger of a record. -/
def ledger (events : List (Event σ)) : SignalLedger :=
  events.foldr (fun e l => l.enter e.deed) .empty

@[simp]
theorem ledger_next (r : Recorded σ) (deed : Deed) (q : σ) :
    ledger (r.next deed q).events = (ledger r.events).enter deed := rfl

end Recorded

/-! ### The invariant -/

open Recorded BreakpointTable

variable [Tracee σ]

/-- A byte can be written where one was written before. -/
def Rewritable (events : List (Event σ)) : Prop :=
  ∀ e earlier a x r, e :: earlier <:+ events → e.deed = .write a [x] r →
    written earlier a = true → Tracee.isAlive e.after = true → r = .ok ()

theorem Rewritable.earlier {r : Recorded σ} {deed : Deed} {q : σ}
    (h : Rewritable (r.next deed q).events) : Rewritable r.events :=
  fun e earlier a x r' he => h e earlier a x r' (he.trans (List.suffix_cons _ _))

/-- With a signal that is to be delivered, the signals of a debuggee are accounted for. -/
structure Accounted (pending : Option Signal) (d : Debuggee (Recorded σ)) : Prop where
  /-- None is delivered that did not arrive, or twice, or out of order. -/
  covers : (ledger d.process.events).Covers pending
  /-- No two breakpoints have the same address. -/
  distinct : d.breakpoints.Distinct
  /-- Every breakpoint was written, so that it can be written again. -/
  written : ∀ a, d.breakpoints.isArmed a = true → written d.process.events a = true
  /-- None is missing, as far as breakpoints can be lifted and put back. -/
  complete : Rewritable d.process.events → (ledger d.process.events).Complete pending

/-- While a signal is not noted yet, the signals are accounted for with it. Should it be lost, those
that are delivered are still some of those that arrived. -/
structure AccountedWith (s : Signal) (pending : Option Signal) (d : Debuggee (Recorded σ)) :
    Prop where
  /-- With the signal. -/
  accounted : Accounted (some s) d
  /-- Without it. -/
  covers : (ledger d.process.events).Covers pending

namespace Accounted

variable {pending : Option Signal} {d : Debuggee (Recorded σ)}

/-- Bytes are stored, or cannot be stored. -/
theorem write (h : Accounted pending d) (addr : Addr) (data : List UInt8)
    (r : Except DebugError Unit) (q : σ) {table : BreakpointTable} (hdistinct : table.Distinct)
    (htable : ∀ a, table.isArmed a = true →
      d.breakpoints.isArmed a = true ∨ addr = a ∧ r = .ok ()) :
    Accounted pending ⟨d.process.next (.write addr data r) q, table⟩ where
  covers := h.covers
  distinct := hdistinct
  written a ha := by
    rcases htable a ha with ha | ⟨rfl, rfl⟩
    · have := h.written a ha
      rcases r with _ | _
      · exact this
      · show (if addr = a then true else Recorded.written d.process.events a) = true
        rw [this, ite_self]
    · exact if_pos rfl
  complete hrewritable := h.complete hrewritable.earlier

/-- Bytes are stored, or cannot be stored, and the table stays. -/
theorem write_same (h : Accounted pending d) (addr : Addr) (data : List UInt8)
    (r : Except DebugError Unit) (q : σ) :
    Accounted pending { d with process := d.process.next (.write addr data r) q } :=
  h.write addr data r q h.distinct fun _ ha => .inl ha

/-- Where there is a breakpoint, a byte can be written as long as the process is alive. -/
theorem not_rewritable (h : Accounted pending d) {addr : Addr} {x : UInt8} {e : DebugError} {q : σ}
    (harmed : d.breakpoints.isArmed addr = true) (halive : Tracee.isAlive q = true) :
    ¬ Rewritable (d.process.next (.write addr [x] (.error e)) q).events := by
  intro hrewritable
  have := hrewritable _ _ addr x (.error e) List.suffix_rfl rfl (h.written addr harmed) halive
  cases this

/-- The process executes one instruction. -/
theorem step (h : Accounted pending d) {r : Except DebugError Stop}
    (hr : ∀ s, r ≠ .ok (.signal s)) (q : σ) :
    Accounted pending { d with process := d.process.next (.step r) q } where
  covers := (h.covers.step r).1
  distinct := h.distinct
  written := h.written
  complete hrewritable := ((h.complete hrewritable.earlier).step r).1 hr

theorem step_signal (h : Accounted pending d) (s : Signal) (q : σ) :
    AccountedWith s pending { d with process := d.process.next (.step (.ok (.signal s))) q } where
  accounted := ⟨(h.covers.step _).2 s rfl, h.distinct, h.written, fun hrewritable =>
    ((h.complete hrewritable.earlier).step _).2 s rfl⟩
  covers := (h.covers.step (.ok (.signal s))).1

/-- The process runs until it stops, with the signal that is to be delivered. -/
theorem resume (h : Accounted pending d) {r : Except DebugError Stop}
    (hr : ∀ s, r ≠ .ok (.signal s)) (q : σ) :
    Accounted none { d with process := d.process.next (.resume pending r) q } where
  covers := (h.covers.resume r).1
  distinct := h.distinct
  written := h.written
  complete hrewritable := ((h.complete hrewritable.earlier).resume r).1 hr

theorem resume_signal (h : Accounted pending d) (s : Signal) (q : σ) :
    AccountedWith s none
      { d with process := d.process.next (.resume pending (.ok (.signal s))) q } where
  accounted := ⟨(h.covers.resume _).2 s rfl, h.distinct, h.written, fun hrewritable =>
    ((h.complete hrewritable.earlier).resume _).2 s rfl⟩
  covers := (h.covers.resume (.ok (.signal s))).1

/-- The registers are replaced, or cannot be replaced. -/
theorem setRegisters (h : Accounted pending d) (regs : Registers) (r : Except DebugError Unit)
    (q : σ) : Accounted pending { d with process := d.process.next (.setRegisters regs r) q } where
  covers := h.covers
  distinct := h.distinct
  written := h.written
  complete hrewritable := h.complete hrewritable.earlier

theorem arm (h : Accounted pending d) (addr : Addr) (file : String) (line : UInt64)
    (kind : BreakpointKind) : Accounted pending (Debuggee.arm addr file line kind d).2 := by
  rw [Debuggee.arm_apply, Recorded.readExact_eq]
  split
  · exact h
  rename_i hfree
  rcases Tracee.readExact d.process.process addr 1 with e | bytes
  · exact h
  rw [Recorded.writeMemory_apply]
  rcases Tracee.writeMemory addr [trapByte] d.process.process with ⟨e | _, q⟩
  · exact h.write_same addr _ _ q
  · refine h.write addr _ _ q (h.distinct.append (by simpa using hfree)) fun a ha => ?_
    rw [isArmed_append, Bool.or_eq_true, decide_eq_true_eq] at ha
    exact ha.imp_right fun ha => ⟨ha, rfl⟩

/-- The byte of the program is put back, and the breakpoint leaves the table. -/
theorem clear (h : Accounted pending d) {addr : Addr} (b : Breakpoint) (q : σ) :
    Accounted pending
      ⟨d.process.next (.write addr [b.saved] (.ok ())) q, d.breakpoints.without addr⟩ :=
  h.write addr _ _ q h.distinct.without fun _ ha => .inl (isArmed_of_without ha)

/-- A breakpoint is cleared, or that fails. -/
theorem clearAt (h : Accounted pending d) (addr : Addr) :
    Accounted pending (Debuggee.clearAt addr d).2 := by
  rw [Debuggee.clearAt_apply]
  rcases d.breakpoints.locate? addr with _ | b
  · exact h
  simp only [Recorded.writeMemory_apply]
  rcases Tracee.writeMemory addr [b.saved] d.process.process with ⟨e | _, q⟩
  · exact h.write_same addr _ _ q
  · exact h.clear b q

end Accounted

namespace AccountedWith

variable {s : Signal} {pending : Option Signal} {d : Debuggee (Recorded σ)}

/-- If a breakpoint cannot be lifted or put back, the signal is lost. -/
theorem write_error (h : AccountedWith s pending d) {addr : Addr} {x : UInt8} {e : DebugError}
    {q : σ} (harmed : d.breakpoints.isArmed addr = true) (halive : Tracee.isAlive q = true) :
    Accounted pending { d with process := d.process.next (.write addr [x] (.error e)) q } where
  covers := h.covers
  distinct := h.accounted.distinct
  written := (h.accounted.write_same addr [x] (.error e) q).written
  complete hrewritable := absurd hrewritable (h.accounted.not_rewritable harmed halive)

/-- A breakpoint of the table is cleared. -/
theorem clearAt (h : Tracee.isAlive d.process = true → AccountedWith s pending d) {addr : Addr}
    [LawfulTracee σ] (harmed : d.breakpoints.isArmed addr = true) :
    Outcome (fun d => Tracee.isAlive d.process = true → AccountedWith s pending d)
      (fun d => Tracee.isAlive d.process = true → Accounted pending d)
      (Debuggee.clearAt addr d).1 (Debuggee.clearAt addr d).2 := by
  rw [Debuggee.clearAt_apply]
  rcases hb : d.breakpoints.locate? addr with _ | b
  · rw [isArmed, hb] at harmed
    cases harmed
  simp only [Recorded.writeMemory_apply]
  rcases hw : Tracee.writeMemory addr [b.saved] d.process.process with ⟨e | _, q⟩
  · exact fun halive =>
      (h (LawfulTracee.alive_of_write (σ := σ) hw halive)).write_error harmed halive
  · intro halive
    obtain ⟨haccounted, hcovers⟩ := h (LawfulTracee.alive_of_write (σ := σ) hw halive)
    exact ⟨haccounted.clear b q, hcovers⟩

end AccountedWith

namespace Session

/-- The account of the signals as an invariant of sessions. -/
def signalInvariant : Invariant (Recorded σ) where
  holds s := Tracee.isAlive s.process = true → Accounted s.pendingSignal s.debuggee
  trapped s := Tracee.isAlive s.process = true → Accounted s.pendingSignal s.debuggee
  signalled sig s :=
    Tracee.isAlive s.process = true → AccountedWith sig s.pendingSignal s.debuggee

theorem signalInvariant_released {r : Except DebugError Stop} {t : Session (Recorded σ)}
    (h : (∀ s, r ≠ .ok (.signal s)) → Tracee.isAlive t.process = true →
      Accounted t.pendingSignal t.debuggee)
    (hsignal : ∀ s, r = .ok (.signal s) → Tracee.isAlive t.process = true →
      AccountedWith s t.pendingSignal t.debuggee)
    (hterminal : ∀ stop, r = .ok stop → stop.isTerminal = true →
      Tracee.isAlive t.process = false) :
    signalInvariant.released r t := by
  rcases r with e | ((_ | _ | _) | sig | code | sig)
  · exact h (by simp)
  · exact h (by simp)
  · exact h (by simp)
  · exact h (by simp)
  · exact hsignal sig rfl
  · exact hterminal _ rfl rfl
  · exact hterminal _ rfl rfl

variable [LawfulTracee σ]

/-- The instruction under a breakpoint is executed. -/
theorem signals_withDisarmed {pending : Option Signal} {d d' : Debuggee (Recorded σ)} {addr : Addr}
    {r : Except DebugError Stop} (h : Tracee.isAlive d.process = true → Accounted pending d)
    (hrun : Debuggee.withDisarmed addr Tracee.singleStep d = (r, d'))
    (halive : Tracee.isAlive d'.process = true) :
    ((∀ s, r ≠ .ok (.signal s)) → Accounted pending d') ∧
      ∀ s, r = .ok (.signal s) → AccountedWith s pending d' := by
  rw [Debuggee.withDisarmed_apply] at hrun
  rcases hb : d.breakpoints.locate? addr with _ | b <;> rw [hb] at hrun
  · cases hrun
    exact ⟨fun _ => h halive, nofun⟩
  simp only [Recorded.writeMemory_apply] at hrun
  rcases hlift : Tracee.writeMemory addr [b.saved] d.process.process with ⟨e | _, lifted⟩ <;>
    rw [hlift] at hrun
  -- the breakpoint cannot be lifted, and the process is not let go
  · cases hrun
    exact ⟨fun _ => (h (LawfulTracee.alive_of_write (σ := σ) hlift halive)).write_same .., nofun⟩
  simp only [Recorded.singleStep_apply, Recorded.isAlive_eq, Recorded.next] at hrun
  rcases hstep : Tracee.singleStep lifted with ⟨r', stepped⟩
  rw [hstep] at hrun
  by_cases hstepped : Tracee.isAlive stepped = true
  · simp only [hstepped, if_true] at hrun
    obtain ⟨rfl, rfl⟩ := Prod.mk.inj hrun
    have hbefore := h (LawfulTracee.alive_of_write (σ := σ) hlift
      (LawfulTracee.alive_of_step (σ := σ) hstep hstepped))
    have hlifted := hbefore.write_same addr [b.saved] (.ok ()) lifted
    rcases hback : Tracee.writeMemory addr [trapByte] stepped with ⟨back, q⟩
    rw [hback] at halive
    refine ⟨fun hr => ?_, fun s hs => ?_⟩
    -- a signal that is lost when the breakpoint cannot be put back, or no signal at all
    · by_cases hsignal : ∃ s, r' = .ok (.signal s)
      · obtain ⟨s, rfl⟩ := hsignal
        rcases back with e | _
        · exact (hlifted.step_signal s stepped).write_error (isArmed_of_locate? hb) halive
        · exact absurd rfl (hr s)
      · exact (hlifted.step (fun s hs => hsignal ⟨s, hs⟩) stepped).write_same addr [trapByte] back q
    · rcases r' with e | stop
      · cases hs
      rcases back with e | _
      · cases hs
      cases hs
      obtain ⟨haccounted, hcovers⟩ := hlifted.step_signal s stepped
      exact ⟨haccounted.write_same addr [trapByte] (.ok ()) q, hcovers⟩
  · simp only [hstepped] at hrun
    obtain ⟨rfl, rfl⟩ := Prod.mk.inj hrun
    exact absurd halive hstepped

theorem signalInvariant_maintained : (signalInvariant (σ := σ)).Maintained where
  gone s h := by
    -- the account is one of processes that are alive
    have hgone : ∀ {X : Prop}, Tracee.isAlive s.process = true → X :=
      fun halive => absurd (h.symm.trans halive) (by simp)
    exact ⟨hgone, hgone, fun _ => hgone⟩
  arm s addr file line kind h := fun halive =>
    (h (LawfulTracee.alive_of_arm halive)).arm addr file line kind
  clearAt s addr h := fun halive => (h (LawfulTracee.alive_of_clearAt halive)).clearAt addr
  clearKind_signalled s sig h := by
    by_cases halive : Tracee.isAlive s.process = true
    · refine Debuggee.clearKind_keeps_of_distinct (fun addr d harmed hd => ?_) .internal
        (h halive).accounted.distinct h
      exact AccountedWith.clearAt hd harmed
    -- a process that is gone does not come back
    · have hdead := Debuggee.clearKind_keeps (K := fun d => ¬ Tracee.isAlive d.process = true)
        (fun addr d hd => outcome_same.2 fun hd' => hd (LawfulTracee.alive_of_clearAt hd'))
        .internal halive
      rw [outcome_same] at hdead
      cases (Debuggee.clearKind .internal s.debuggee).1 <;>
        exact fun halive' => absurd halive' hdead
  note s sig h := fun halive => (h halive).accounted
  step s pc h hpc harmed := by
    refine ensures_onDebuggee.2 ?_
    rw [Debuggee.onProcess_apply, Recorded.singleStep_apply]
    rcases hstep : Tracee.singleStep s.debuggee.process.process with ⟨r, q⟩
    have hbefore := fun halive => h (LawfulTracee.alive_of_step (σ := σ) hstep halive)
    refine signalInvariant_released (fun hr halive => (hbefore halive).step hr q)
      (fun sig hr halive => ?_) fun stop hr hterminal => ?_
    · obtain rfl : r = .ok (.signal sig) := hr
      exact (hbefore halive).step_signal sig q
    · obtain rfl : r = .ok stop := hr
      exact LawfulTracee.step_terminal (σ := σ) hstep hterminal
  stepOver s addr h hpc := by
    rcases hrun : Debuggee.withDisarmed addr Tracee.singleStep s.debuggee with ⟨r, d⟩
    have hend := fun halive => signals_withDisarmed h hrun halive
    refine ensures_onDebuggee.2 ?_
    rw [hrun]
    refine ⟨signalInvariant_released (fun hr halive => (hend halive).1 hr)
      (fun sig hr halive => (hend halive).2 sig hr) fun stop hr hterminal => ?_,
      fun hr halive => ?_⟩
    · obtain rfl : r = .ok stop := hr
      exact LawfulTracee.withDisarmed_terminal hrun hterminal
    · obtain rfl : r = .ok (.trap .breakpoint) := hr
      exact (hend halive).1 (by simp)
  resume s h := by
    intro r t hresume
    simp only [resumeProcess, Recorded.resume_apply] at hresume
    rcases hr : Tracee.resume s.pendingSignal s.process.process with _ | ⟨r', q⟩
    · simp [hr] at hresume
    simp only [hr, Option.map_some] at hresume
    cases hresume
    have hbefore := fun halive => h (LawfulTracee.alive_of_resume (σ := σ) hr halive)
    refine signalInvariant_released (fun hr halive => (hbefore halive).resume hr q)
      (fun sig hsig halive => ?_) fun stop hstop hterminal => ?_
    · subst hsig
      exact (hbefore halive).resume_signal sig q
    · cases hstop
      exact LawfulTracee.resume_terminal (σ := σ) hr hterminal
  rewind s h := by
    intro r t hrewind
    refine ⟨?_, fun addr hr => pc_of_rewindAfterTrap (hr ▸ hrewind)⟩
    rcases rewindAfterTrap_cases hrewind with ⟨e, -, rfl, -⟩ | ⟨pc, -, rfl, -⟩ |
      ⟨pc, a, -, -, -, rfl, -⟩
    · exact h
    · exact h
    · rw [Debuggee.onProcess_apply, Recorded.setPc_apply]
      rcases Tracee.registers s.debuggee.process.process with e | regs
      · exact h
      · exact fun halive =>
          (h (LawfulTracee.alive_of_setRegisters (σ := σ) rfl halive)).setRegisters _ _ _

/-- A restart keeps the account: no signal of the old process reaches the new one. -/
theorem signals_restart (s : Session (Recorded σ)) (h : signalInvariant.holds s) :
    Ensures restart s fun _ t => signalInvariant.holds t := by
  refine signalInvariant_maintained.restart s (fun e q hr => ?_) fun q hr => ?_
  · rcases hr' : Tracee.restart s.process.process with ⟨r, p⟩
    rw [Recorded.restart_apply, hr'] at hr
    cases hr
    intro halive
    have hbefore := h (LawfulTracee.restart_error (σ := σ) hr' halive).1
    exact ⟨hbefore.covers, hbefore.distinct, hbefore.written,
      fun hrewritable => hbefore.complete hrewritable.earlier⟩
  -- a fresh process begins with an empty account
  · rcases hr' : Tracee.restart s.process.process with ⟨r, p⟩
    rw [Recorded.restart_apply, hr'] at hr
    cases hr
    exact fun _ => ⟨List.Sublist.refl [], List.nodup_nil, nofun, fun _ => ⟨rfl, List.Perm.refl []⟩⟩

/-- However a run of commands went, the signals with which a process that is alive was resumed, and
the one that is pending, are some of those that stopped it since it was started, in this order. The
others were overwritten by a signal that stopped a single step; where there is none of these, every
signal was delivered once or is pending. -/
theorem signals_accounted (p : σ) (index : DebugIndex) (frames : Option FrameIndex) (bias : Addr)
    (files : FileSystem) (commands : List (Nat × Command)) (t : Session σ)
    (h : executeAll commands (Session.start p index frames bias files) = some t) :
    ∃ r : Session (Recorded σ),
      executeAll commands (Session.start (.ofProcess p) index frames bias files) = some r ∧
      r.plain = t ∧
      (Tracee.isAlive t.process = true →
        let l := ledger r.process.events
        (l.delivered ++ t.pendingSignal.toList).Sublist l.arrived ∧
        (Rewritable r.process.events →
          l.arrived.Perm (l.delivered ++ t.pendingSignal.toList ++ l.overwritten) ∧
          (l.overwritten = [] → l.arrived = l.delivered ++ t.pendingSignal.toList))) := by
  obtain ⟨r, hr, rfl⟩ :=
    exists_recorded (s := Session.start (.ofProcess p) index frames bias files) h
  refine ⟨r, hr, rfl, fun halive => ?_⟩
  -- the account is right at the start, and each command keeps it so
  have haccounted : signalInvariant.holds r := by
    refine executeAll_keeps commands (fun fuel c _ s hs => ?_) hr fun _ => ?_
    · by_cases hc : c = .restart
      · rw [hc]
        exact signals_restart s hs
      · exact signalInvariant_maintained.handle fuel c hc s hs
    · exact ⟨List.Sublist.refl [], List.nodup_nil, nofun, fun _ => ⟨rfl, List.Perm.refl []⟩⟩
  obtain ⟨hcovers, -, -, hcomplete⟩ := haccounted halive
  exact ⟨hcovers, fun hrewritable => ⟨(hcomplete hrewritable).perm,
    hcovers.eq_of_complete (hcomplete hrewritable)⟩⟩

end Session

namespace Machine

/-- A machine that is stopped by two signals, one after the other. -/
def twoSignals : Machine :=
  .ofImage { nops.image with events := [(1, .signal ⟨10⟩), (2, .signal ⟨12⟩)] } []

end Machine

namespace Session

open Machine in
/-- A signal that stops a single step is delivered when the process is resumed. -/
theorem signals_accounted_twoSignals :
    ∃ t r, executeAll [(0, .stepInstruction), (0, .resume)]
        (Session.start twoSignals nopsIndex none .null ⟨"/", []⟩) = some t ∧
      executeAll [(0, .stepInstruction), (0, .resume)]
        (Session.start (Recorded.ofProcess twoSignals) nopsIndex none .null ⟨"/", []⟩) = some r ∧
      (ledger r.process.events).arrived =
        (ledger r.process.events).delivered ++ t.pendingSignal.toList := by
  have hrun : (executeAll [(0, .stepInstruction), (0, .resume)]
      (Session.start twoSignals nopsIndex none .null ⟨"/", []⟩)).any (·.process.alive) = true := by
    decide +kernel
  have hrecord : (executeAll [(0, .stepInstruction), (0, .resume)]
      (Session.start (Recorded.ofProcess twoSignals) nopsIndex none .null ⟨"/", []⟩)).all (fun r =>
        r.process.events.all still && decide ((ledger r.process.events).overwritten = [])) =
          true := by
    decide +kernel
  -- the record shows that no signal was overwritten
  obtain ⟨t, ht, halive⟩ := (Option.any_eq_true _ _).1 hrun
  obtain ⟨r, hr, -, haccounted⟩ :=
    signals_accounted twoSignals nopsIndex none .null ⟨"/", []⟩ _ t ht
  rw [hr] at hrecord
  obtain ⟨hstill, hnone⟩ := Bool.and_eq_true_iff.1 hrecord
  obtain ⟨-, hcomplete⟩ := haccounted halive
  exact ⟨t, r, ht, hr, (hcomplete (obedient_of_still hstill).writable).2 (of_decide_eq_true hnone)⟩

open Machine in
/-- A signal that stops a second single step takes the place of the first one, which is never
delivered. -/
theorem signal_overwritten :
    ∃ r, executeAll [(0, .stepInstruction), (0, .stepInstruction)]
        (Session.start (Recorded.ofProcess twoSignals) nopsIndex none .null ⟨"/", []⟩) = some r ∧
      Tracee.isAlive r.process = true ∧
      (ledger r.process.events).arrived ≠
        (ledger r.process.events).delivered ++ r.pendingSignal.toList := by
  have hrun : (executeAll [(0, .stepInstruction), (0, .stepInstruction)]
      (Session.start (Recorded.ofProcess twoSignals) nopsIndex none .null ⟨"/", []⟩)).any (fun r =>
        Tracee.isAlive r.process && decide ((ledger r.process.events).arrived ≠
          (ledger r.process.events).delivered ++ r.pendingSignal.toList)) = true := by
    decide +kernel
  obtain ⟨r, hr, hend⟩ := (Option.any_eq_true _ _).1 hrun
  obtain ⟨halive, hlost⟩ := Bool.and_eq_true_iff.1 hend
  exact ⟨r, hr, halive, of_decide_eq_true hlost⟩

end Session

end SourceDebugger
