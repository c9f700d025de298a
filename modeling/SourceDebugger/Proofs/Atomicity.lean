import SourceDebugger.Proofs.BreakpointAddress
import SourceDebugger.Proofs.BreakpointNumbers
import SourceDebugger.Proofs.Finished

/-!
# Setting and clearing one breakpoint

To set or clear a breakpoint takes several steps: names and lines are looked up, memory is read and
written, and the table changes. Each of the steps can fail. If a byte that cannot be written changes
nothing, such a command is done as a whole or not at all.

* `Debuggee.arm_atomic`: the steps that set a breakpoint at an address.
* `Session.handle_atomic`: what the commands come to in every session, and when they report that
  there is a breakpoint already.
-/

namespace SourceDebugger

open BreakpointTable

variable {σ α : Type}

open Tracee in
/-- To write a byte changes this byte of memory alone, or it fails and changes nothing. -/
class AtomicWrites (σ : Type) [Tracee σ] : Prop where
  memory_of_ok {p q : σ} {addr : Addr} {byte : UInt8} :
    writeMemory addr [byte] p = (.ok (), q) → memory q = (memory p).store addr byte
  memory_of_error {p q : σ} {addr : Addr} {byte : UInt8} {e : DebugError} :
    writeMemory addr [byte] p = (.error e, q) → memory q = memory p
  registers_of_error {p q : σ} {addr : Addr} {byte : UInt8} {e : DebugError} :
    writeMemory addr [byte] p = (.error e, q) → registers q = registers p

/-- The process itself fails with the error of the table. -/
def Tracee.SaysDuplicate [Tracee σ] (p : σ) : Prop :=
  ∃ text addr, Tracee.readExact p addr 1 = .error (.duplicateBreakpoint text) ∨
    ∃ byte, (Tracee.writeMemory addr [byte] p).1 = .error (.duplicateBreakpoint text)

/-- It is reported that there is a breakpoint already if there is one, and only then, unless the
process itself fails with this error. -/
structure ReportsDuplicate [Tracee σ] (armed : Prop) (p : σ) (r : Except DebugError α) : Prop where
  of_armed : armed → ∃ text, r = .error (.duplicateBreakpoint text)
  armed_of : ∀ text, r = .error (.duplicateBreakpoint text) → armed ∨ Tracee.SaysDuplicate p

/-- Nothing has changed that can be seen of a process and its breakpoints. -/
structure Debuggee.Unchanged [Tracee σ] (d d' : Debuggee σ) : Prop where
  breakpoints : d'.breakpoints = d.breakpoints
  memory : Tracee.memory d'.process = Tracee.memory d.process
  registers : Tracee.registers d'.process = Tracee.registers d.process

/-- A command sets a breakpoint at an address: that of its line, or of the line of the first
function with its name. -/
inductive Command.SetsAt (index : DebugIndex) : Command → Addr → Prop
  | line {file : String} {line : UInt64} {addr : Addr} :
    index.lookupBreakpointAddress file line = .ok addr →
    SetsAt index (.setBreakpoint file line) addr
  | function {name : String} {f : FunctionEntry} {rest : List FunctionEntry}
      {location : SourceLocation} {addr : Addr} : index.functionsNamed name = f :: rest →
    index.functionEntry f = .ok location →
    index.lookupBreakpointAddress location.file location.line = .ok addr →
    SetsAt index (.setFunctionBreakpoint name) addr

variable [Tracee σ]

theorem Debuggee.Unchanged.refl (d : Debuggee σ) : d.Unchanged d := ⟨rfl, rfl, rfl⟩

/-- If nothing is armed there, no duplicate may be reported. -/
theorem ReportsDuplicate.of_ne {armed : Prop} {p : σ} {r : Except DebugError α} (harmed : ¬ armed)
    (hr : ∀ text, r ≠ .error (.duplicateBreakpoint text)) : ReportsDuplicate armed p r :=
  ⟨fun h => absurd h harmed, fun text h => absurd h (hr text)⟩

/-- What is answered instead of the breakpoint does not matter. -/
theorem ReportsDuplicate.map {β : Type} {armed : Prop} {p : σ} {r : Except DebugError α}
    (h : ReportsDuplicate armed p r) (f : α → β) : ReportsDuplicate armed p (r.map f) := by
  rcases r with e | a
  · exact ⟨fun harmed => (h.of_armed harmed).imp fun _ he => congrArg _ (Except.error.inj he),
      fun text he => h.armed_of text (congrArg _ (Except.error.inj he))⟩
  · exact ⟨fun harmed => (h.of_armed harmed).imp nofun, nofun⟩

/-- A function has no line only if its first address has none. -/
theorem DebugIndex.functionEntry_error {index : DebugIndex} {f : FunctionEntry} {e : DebugError}
    (h : index.functionEntry f = .error e) : e = .noLineInfo f.lowPc := by
  unfold functionEntry at h
  split at h
  · cases h
  unfold resolveAddress at h
  split at h
  · exact (Except.error.inj h).symm
  split at h
  · exact (Except.error.inj h).symm
  · cases h

/-- That there is a breakpoint already is told with the line on which it was to be set. -/
def inWordsOf (file : String) (line : UInt64) : DebugError → DebugError
  | .duplicateBreakpoint _ => .duplicateBreakpoint s!"{file}:{line.toNat}"
  | e => e

omit [Tracee σ] in
/-- A duplicate that is reported for a line is one at its address. -/
theorem eq_of_inWordsOf {file text : String} {line : UInt64} {e : DebugError}
    (h : inWordsOf file line e = .duplicateBreakpoint text) :
    ∃ text', e = .duplicateBreakpoint text' := by
  cases e
  case duplicateBreakpoint text' => exact ⟨text', rfl⟩
  all_goals cases h

namespace Debuggee

/-! ### One breakpoint -/

section Atomic

variable [AtomicWrites σ]

/-- A byte that could not be written leaves the debuggee as it was. -/
theorem Unchanged.of_write {d : Debuggee σ} {p : σ} {addr : Addr} {byte : UInt8}
    {e : DebugError} (h : Tracee.writeMemory addr [byte] d.process = (.error e, p)) :
    d.Unchanged { d with process := p } :=
  ⟨rfl, AtomicWrites.memory_of_error h, AtomicWrites.registers_of_error h⟩

/-- A breakpoint is set behind all others, and its trap is in memory; or nothing has changed. -/
theorem arm_atomic (addr : Addr) (file : String) (line : UInt64) (kind : BreakpointKind)
    (d : Debuggee σ) :
    ReportsDuplicate (d.breakpoints.isArmed addr = true) d.process (arm addr file line kind d).1 ∧
      ((∃ e d', arm addr file line kind d = (.error e, d') ∧ d.Unchanged d') ∨
        ∃ byte p, d.breakpoints.isArmed addr = false ∧
          Tracee.memory d.process addr = some byte ∧
          Tracee.memory p = (Tracee.memory d.process).store addr trapByte ∧
          arm addr file line kind d = (.ok ⟨addr, byte, file, line, kind⟩,
            ⟨p, d.breakpoints ++ [⟨addr, byte, file, line, kind⟩]⟩)) := by
  rw [arm_apply]
  -- the three ways out in the order of the program: armed already, not readable, not writable
  by_cases harmed : d.breakpoints.isArmed addr = true
  · rw [if_pos harmed]
    exact ⟨⟨fun _ => ⟨_, rfl⟩, fun _ _ => .inl harmed⟩, .inl ⟨_, d, rfl, .refl d⟩⟩
  rw [if_neg harmed]
  rcases hread : Tracee.readExact d.process addr 1 with e | bytes
  · refine ⟨⟨fun h => absurd h harmed, fun text h => .inr ⟨text, addr, .inl ?_⟩⟩,
      .inl ⟨e, d, rfl, .refl d⟩⟩
    -- a failing read is passed on, so a report of a duplicate would come from the process
    cases h
    exact hread
  dsimp only
  rcases hwrite : Tracee.writeMemory addr [trapByte] d.process with ⟨e | _, p⟩
  · refine ⟨⟨fun h => absurd h harmed, fun text h => .inr ⟨text, addr, .inr ⟨trapByte, ?_⟩⟩⟩,
      .inl ⟨e, _, rfl, .of_write hwrite⟩⟩
    cases h
    rw [hwrite]
  · exact ⟨.of_ne harmed nofun, .inr ⟨bytes.headD 0, p, by simpa using harmed,
      Tracee.memory_of_readExact hread, AtomicWrites.memory_of_ok hwrite, rfl⟩⟩

omit [AtomicWrites σ] in
/-- At the address of a line a breakpoint is set. The path on record may be another one than that of
the operator, in whose words it is told that there is a breakpoint already. -/
theorem setUser_of_lookup {index : DebugIndex} {file : String} {line : UInt64} {addr : Addr}
    (h : index.lookupBreakpointAddress file line = .ok addr) (d : Debuggee σ) :
    setUser index file line d =
      match arm addr ((index.resolveFile? file).getD file) line .user d with
      | (.ok b, d') => (.ok b, d')
      | (.error e, d') => (.error (inWordsOf file line e), d') := by
  simp only [setUser, Action.bind_apply, Action.liftM_apply, h, Action.tryCatch_apply]
  rcases arm addr ((index.resolveFile? file).getD file) line .user d with ⟨e | b, d'⟩
  · cases e <;> rfl
  · rfl

/-- A line that has no address is refused, and otherwise a breakpoint is set at its address. -/
theorem setUser_atomic (index : DebugIndex) (file : String) (line : UInt64) (d : Debuggee σ) :
    ReportsDuplicate (∃ addr, index.lookupBreakpointAddress file line = .ok addr ∧
        d.breakpoints.isArmed addr = true) d.process (setUser index file line d).1 ∧
      ((∃ e d', setUser index file line d = (.error e, d') ∧ d.Unchanged d') ∨
        ∃ addr byte stored p, index.lookupBreakpointAddress file line = .ok addr ∧
          d.breakpoints.isArmed addr = false ∧
          Tracee.memory d.process addr = some byte ∧
          Tracee.memory p = (Tracee.memory d.process).store addr trapByte ∧
          setUser index file line d = (.ok ⟨addr, byte, stored, line, .user⟩,
            ⟨p, d.breakpoints ++ [⟨addr, byte, stored, line, .user⟩]⟩)) := by
  rcases hlookup : index.lookupBreakpointAddress file line with e | addr
  · obtain ⟨rfl, -⟩ := DebugIndex.lookupBreakpointAddress_error_iff.1 hlookup
    have hrefused : setUser index file line d = (.error (.noSuchSourceLine file line), d) := by
      simp only [setUser, Action.bind_apply, Action.liftM_apply, hlookup]
    rw [hrefused]
    exact ⟨.of_ne (by simp) (by simp), .inl ⟨_, d, rfl, .refl d⟩⟩
  obtain ⟨⟨hof, harmed⟩, hends⟩ :=
    arm_atomic addr ((index.resolveFile? file).getD file) line .user d
  rw [setUser_of_lookup hlookup]
  simp only [Except.ok.injEq, exists_eq_left']
  -- the answer is the one of arming, in the words of the command
  rcases hends with ⟨e, d', harm, hsame⟩ | ⟨byte, p, hfree, hbyte, hmemory, harm⟩
  · rw [harm] at hof harmed ⊢
    simp only [Except.error.injEq] at hof harmed
    refine ⟨⟨fun h => ?_, fun text h => ?_⟩, .inl ⟨_, d', rfl, hsame⟩⟩
    · obtain ⟨text, rfl⟩ := hof h
      exact ⟨_, rfl⟩
    · obtain ⟨text', rfl⟩ := eq_of_inWordsOf (Except.error.inj h)
      exact harmed text' rfl
  · rw [harm]
    exact ⟨.of_ne (by simp [hfree]) (by simp),
      .inr ⟨addr, byte, _, p, rfl, hfree, hbyte, hmemory, rfl⟩⟩

end Atomic

end Debuggee

namespace Session

/-! ### Commands -/

/-- What a command that ends with `r` in `t` has done to the one breakpoint that it is about. -/
inductive ChangesOne (s t : Session σ) : Command → Except DebugError Feedback → Prop where
  /-- It failed, and nothing has changed. -/
  | failed {c : Command} {e : DebugError} (same : s.debuggee.Unchanged t.debuggee) :
    ChangesOne s t c (.error e)
  /-- There is one more breakpoint of the operator, behind all others. Its trap is in memory, and
  the byte that was there is saved. -/
  | set {c : Command} {addr : Addr} {byte : UInt8} {file : String} {line : UInt64}
      (target : c.SetsAt s.index addr) (free : s.breakpoints.isArmed addr = false)
      (saved : Tracee.memory s.process addr = some byte)
      (table : t.breakpoints = s.breakpoints ++ [⟨addr, byte, file, line, .user⟩])
      (memory : Tracee.memory t.process = (Tracee.memory s.process).store addr trapByte) :
    ChangesOne s t c (.ok (.breakpointSet t.breakpoints.user.length addr file line))
  /-- The breakpoint with the number is taken out, and its saved byte is in memory. -/
  | cleared {number : UInt64} {b : Breakpoint} {before after : BreakpointTable}
      (numbered : s.breakpoints.numbered? number = some b)
      (before_table : s.breakpoints = before ++ b :: after)
      (table : t.breakpoints = before ++ after)
      (memory : Tracee.memory t.process = (Tracee.memory s.process).store b.addr b.saved) :
    ChangesOne s t (.clearBreakpoint (.number number)) (.ok (.breakpointsCleared [b]))

/-- A command that is about one breakpoint does one of these things, touches nothing else, and tells
if there is a breakpoint already. -/
def Atomic (s : Session σ) (c : Command) (end_ : Option (Except DebugError Feedback × Session σ)) :
    Prop :=
  ∃ r t, end_ = some (r, t) ∧ t = { s with debuggee := t.debuggee } ∧ ChangesOne s t c r ∧
    ReportsDuplicate (∃ addr, c.SetsAt s.index addr ∧ s.breakpoints.isArmed addr = true) s.process r

/-- A command that finds no address to set a breakpoint at. -/
theorem atomic_of_refused {s : Session σ} {c : Command} {e : DebugError}
    (hc : ∀ addr, ¬ c.SetsAt s.index addr) (he : ∀ text, e ≠ .duplicateBreakpoint text) :
    s.Atomic c (some (.error e, s)) :=
  ⟨.error e, s, rfl, rfl, .failed (.refl _), .of_ne (fun ⟨addr, h, _⟩ => hc addr h)
    fun text h => he text (Except.error.inj h)⟩

variable [AtomicWrites σ]

/-- Setting a breakpoint at a line changes one record and one byte, or nothing. -/
theorem setBreakpoint_atomic (file : String) (line : UInt64) {c : Command} (s : Session σ)
    (hc : ∀ addr, c.SetsAt s.index addr ↔ s.index.lookupBreakpointAddress file line = .ok addr) :
    s.Atomic c (setBreakpoint file line s) := by
  obtain ⟨hreports, hends⟩ := Debuggee.setUser_atomic s.index file line s.debuggee
  simp only [← hc] at hreports hends
  have hset := onDebuggee_apply (Debuggee.setUser s.index file line) s
  unfold setBreakpoint
  rw [bind_of_ok (x := get) rfl]
  rcases hends with ⟨e, d', herror, hsame⟩ |
    ⟨addr, byte, stored, p, htarget, hfree, hbyte, hmemory, hok⟩
  · rw [herror] at hset hreports
    exact ⟨_, _, bind_of_error hset, rfl, .failed hsame, hreports.map fun _ => default⟩
  · rw [hok] at hset hreports
    exact ⟨_, _, (bind_of_ok hset).trans rfl, rfl, .set htarget hfree hbyte rfl hmemory,
      hreports.map fun _ => _⟩

/-- Setting one at a function changes one record and one byte, or nothing. -/
theorem setFunctionBreakpoint_atomic (name : String) (s : Session σ) :
    s.Atomic (.setFunctionBreakpoint name) (setFunctionBreakpoint name s) := by
  rw [setFunctionBreakpoint_apply]
  rcases hnamed : s.index.functionsNamed name with _ | ⟨f, rest⟩
  -- without a function of the name the command has no target
  · refine atomic_of_refused (fun addr h => ?_) nofun
    cases h with
    | function hnamed' => cases hnamed.symm.trans hnamed'
  dsimp only
  rcases hentry : s.index.functionEntry f with e | location
  -- with a function that has no line there is no target either
  · refine atomic_of_refused (fun addr h => ?_) fun text he => ?_
    · cases h with
      | function hnamed' hentry' =>
        cases hnamed.symm.trans hnamed'
        cases hentry.symm.trans hentry'
    · cases (DebugIndex.functionEntry_error hentry).symm.trans he
  · refine setBreakpoint_atomic _ _ s fun addr => ⟨fun h => ?_, .function hnamed hentry⟩
    cases h with
    | function hnamed' hentry' hlookup =>
      cases hnamed.symm.trans hnamed'
      cases hentry.symm.trans hentry'
      exact hlookup

/-- Clearing one by its number changes one record and one byte, or nothing. -/
theorem clearNumber_atomic {s : Session σ} (hdistinct : s.breakpoints.Distinct) (number : UInt64) :
    s.Atomic (.clearBreakpoint (.number number)) (clearBreakpoint (.number number) s) := by
  rw [clearNumber_apply hdistinct]
  rcases hnumber : s.breakpoints.numbered? number with _ | b
  · exact atomic_of_refused nofun nofun
  dsimp only
  have hunset : ¬ ∃ addr, (Command.clearBreakpoint (.number number)).SetsAt s.index addr ∧
      s.breakpoints.isArmed addr = true := nofun
  rcases hwrite : Tracee.writeMemory b.addr [b.saved] s.process with ⟨e | _, p⟩
  · refine ⟨_, _, rfl, rfl, .failed (.of_write hwrite), fun h => absurd h hunset, fun text he =>
      .inr ⟨text, b.addr, .inr ⟨b.saved, ?_⟩⟩⟩
    cases he
    rw [hwrite]
  · obtain ⟨before, after, hsplit, -, -, hwithout⟩ := hdistinct.numbered?_split hnumber
    exact ⟨_, _, rfl, rfl, .cleared hnumber hsplit hwithout (AtomicWrites.memory_of_ok hwrite),
      .of_ne hunset nofun⟩

/-- Whatever commands were executed before, and whatever becomes of them: to set a breakpoint on a
line or on a function, or to clear the one with a number, either fails and leaves the breakpoints,
the memory, the registers and the signal to be delivered as they were, or it changes one breakpoint
and the byte at its address. It is reported that there is a breakpoint already if there is one at
the address, of whatever kind, and only then, unless the process itself fails with this error. -/
theorem handle_atomic (p : σ) (index : DebugIndex) (frames : Option FrameIndex) (bias : Addr)
    (files : FileSystem) (commands : List (Nat × Command)) {s : Session σ}
    (hrun : executeAll commands (start p index frames bias files) = some s) (fuel : Nat)
    {c : Command} (hc : changesOne c = true) : s.Atomic c (handle fuel c s) := by
  cases c
  case setBreakpoint file line =>
    exact setBreakpoint_atomic file line s fun addr => ⟨fun | .line h => h, .line⟩
  case setFunctionBreakpoint name => exact setFunctionBreakpoint_atomic name s
  case clearBreakpoint target =>
    rcases target with number | _
    · exact clearNumber_atomic
        (executeAll_tidy commands (tidy_start p index frames bias files) hrun).distinct number
    · cases hc
  all_goals cases hc

end Session

/-! ### Scripted machines -/

/-- A write to a machine succeeds, or the machine stays as it is. -/
theorem Machine.writeMemory_cases (addr : Addr) (data : List UInt8) (m : Machine) :
    (∃ e, Tracee.writeMemory addr data m = (.error e, m)) ∨
      m.alive = true ∧
        ∃ regions, Tracee.writeMemory addr data m = (.ok (), { m with regions }) := by
  by_cases hm : m.alive = true
  swap
  · exact .inl ⟨_, bind_of_ended (by simpa using hm)⟩
  have hwrite : Tracee.writeMemory addr data m = write false addr data m := bind_of_alive hm
  rw [hwrite, write_apply]
  rcases store false addr data m.regions with e | regions
  · exact .inl ⟨e, rfl⟩
  · exact .inr ⟨hm, regions, rfl⟩

/-- A machine refuses to store what does not lie in one piece of memory, or in one that is read
only. -/
theorem Machine.store_error {forced : Bool} {addr : Addr} {data : List UInt8}
    {regions : List Region} {e : DebugError} (h : store forced addr data regions = .error e) :
    e = notMapped addr ∨ e = .os ⟨5⟩ := by
  induction regions with
  | nil => exact .inl (Except.error.inj h).symm
  | cons r rest ih =>
    unfold store at h
    split at h
    · rcases hrest : store forced addr data rest with e' | regions' <;> rw [hrest] at h
      · cases h
        exact ih hrest
      · cases h
    split at h
    · exact .inr (Except.error.inj h).symm
    split at h
    · exact .inl (Except.error.inj h).symm
    · cases h

/-- A machine fails with errors of its own. -/
theorem Machine.not_saysDuplicate (m : Machine) : ¬ Tracee.SaysDuplicate m := by
  -- the errors of the machine are known by cases: reads and writes give their own
  rintro ⟨text, addr, hread | ⟨byte, hwrite⟩⟩
  · have hmemory : Tracee.readMemory m addr 1 = m.whileAlive (m.read addr 1) := rfl
    rw [Tracee.readExact, hmemory, whileAlive] at hread
    rcases hm : m.alive
    · rw [hm] at hread
      cases hread
    rw [hm, if_pos rfl, read] at hread
    rcases hfrom : m.memoryFrom? addr with _ | bytes <;> rw [hfrom] at hread
    · cases hread
    · dsimp only [bind, Except.bind] at hread
      split at hread <;> cases hread
  · rcases hm : m.alive
    · rw [show Tracee.writeMemory addr [byte] m = _ from bind_of_ended hm] at hwrite
      cases hwrite
    rw [show Tracee.writeMemory addr [byte] m = _ from bind_of_alive hm, write_apply] at hwrite
    rcases hstore : store false addr [byte] m.regions with e | regions <;> rw [hstore] at hwrite
    · cases hwrite
      rcases store_error hstore with h | h <;> cases h
    · cases hwrite

instance : AtomicWrites Machine where
  memory_of_ok {p q addr byte} h := by
    rcases Machine.writeMemory_cases addr [byte] p with ⟨e, herror⟩ | ⟨halive, regions, hok⟩
    · cases herror.symm.trans h
    · refine LawfulTracee.memory_write h ?_
      cases hok.symm.trans h
      exact halive
  memory_of_error {p q addr byte e} h := by
    rcases Machine.writeMemory_cases addr [byte] p with ⟨e, herror⟩ | ⟨-, regions, hok⟩
    · cases herror.symm.trans h
      rfl
    · cases hok.symm.trans h
  registers_of_error {p q addr byte e} h := by
    rcases Machine.writeMemory_cases addr [byte] p with ⟨e, herror⟩ | ⟨-, regions, hok⟩
    · cases herror.symm.trans h
      rfl
    · cases hok.symm.trans h

namespace Session

open Machine in
/-- With a breakpoint on a line none can be set there again, one can be set on another line, and the
breakpoint can be cleared. -/
theorem handle_atomic_beforeCall :
    ∃ s t u text, executeAll [(0, .setBreakpoint "a.c" 1)] (beforeCall (callsUnless [])) = some s ∧
      handle 0 (.setBreakpoint "a.c" 1) s = some (.error (.duplicateBreakpoint text), t) ∧
      s.debuggee.Unchanged t.debuggee ∧
      (∃ r v, handle 0 (.setBreakpoint "a.c" 3) s = some (r, v) ∧
        ∀ text, r ≠ .error (.duplicateBreakpoint text)) ∧
      handle 0 (.clearBreakpoint (.number 1)) s =
        some (.ok (.breakpointsCleared [⟨⟨0x1000⟩, 0xe8, "a.c", 1, .user⟩]), u) ∧
      u.breakpoints = [] ∧
      Tracee.memory u.process = (Tracee.memory s.process).store ⟨0x1000⟩ 0xe8 := by
  have hrun : (executeAll [(0, .setBreakpoint "a.c" 1)] (beforeCall (callsUnless []))).any (fun s =>
      decide (s.breakpoints = [⟨⟨0x1000⟩, 0xe8, "a.c", 1, .user⟩] ∧
        s.index.lookupBreakpointAddress "a.c" 1 = .ok ⟨0x1000⟩ ∧
        s.index.lookupBreakpointAddress "a.c" 3 = .ok ⟨0x1007⟩) &&
      (handle 0 (.clearBreakpoint (.number 1)) s).any (·.1.toOption.isSome)) = true := by
    decide +kernel
  obtain ⟨s, hs, hend⟩ := (Option.any_eq_true _ _).1 hrun
  obtain ⟨hstate, hsucceeds⟩ := Bool.and_eq_true_iff.1 hend
  obtain ⟨htable, hfirst, hthird⟩ := of_decide_eq_true hstate
  have hatomic (c : Command) (hc : changesOne c = true) : s.Atomic c (handle 0 c s) :=
    handle_atomic (callsUnless []) _ none .null ⟨"/", []⟩ _ hs 0 hc
  obtain ⟨r, t, ht, -, hagain, hreports⟩ := hatomic (.setBreakpoint "a.c" 1) rfl
  obtain ⟨r', u, hu, -, hcleared, -⟩ := hatomic (.clearBreakpoint (.number 1)) rfl
  obtain ⟨r'', v, hv, -, -, hother⟩ := hatomic (.setBreakpoint "a.c" 3) rfl
  obtain ⟨text, rfl⟩ := hreports.of_armed ⟨_, .line hfirst, by rw [htable]; rfl⟩
  refine ⟨s, t, u, text, hs, ht, ?_, ⟨r'', v, hv, fun text hr => ?_⟩, ?_⟩
  -- the breakpoint is recorded, so the second attempt can only fail
  · cases hagain with
    | failed same => exact same
  -- line 3 is at another address, where nothing is armed
  · rcases hother.armed_of text hr with ⟨addr, htarget, harmed⟩ | hsays
    · cases htarget with
      | line hlookup =>
        cases hthird.symm.trans hlookup
        rw [htable] at harmed
        cases harmed
    · exact Machine.not_saysDuplicate _ hsays
  -- of the ways in which the command can end only the one that clears is left
  · cases hcleared with
    | failed =>
      rw [hu] at hsucceeds
      cases hsucceeds
    | set target => cases target
    | @cleared _ b before after hnumbered hbefore hafter hmemory =>
      rw [htable] at hnumbered hbefore
      cases hnumbered
      obtain ⟨rfl, rfl⟩ : before = [] ∧ after = [] := by
        have hlength := congrArg List.length hbefore
        simp only [List.length_append, List.length_cons, List.length_nil] at hlength
        exact ⟨List.length_eq_zero_iff.1 (by omega), List.length_eq_zero_iff.1 (by omega)⟩
      exact ⟨hu, hafter, hmemory⟩

end Session

end SourceDebugger
