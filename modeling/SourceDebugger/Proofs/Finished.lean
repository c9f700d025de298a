import SourceDebugger.Proofs.TableEffects

/-!
# Sessions whose process has ended

A process that ended stays in its session until it is started again. Nothing can be learnt of it or
done to it meanwhile, and the breakpoints of the operator are kept for the next start.

* `GuardedTracee` is what is assumed of a process that is gone: every access to it fails, and says
  why.
* `Session.handle_gone`: what each command comes to then, `Session.Frozen`.
* `Session.finished_frozen`: so after a stop that ended the process, in whatever part of a command
  it was seen, the table has breakpoints of the operator only, and no command changes it until a
  restart succeeds.
-/

namespace SourceDebugger

open Recorded

variable {σ : Type}

/-- Every access to a process that is gone fails for that reason. -/
class GuardedTracee (σ : Type) [Tracee σ] : Prop where
  readMemory_gone {p : σ} (addr : Addr) (count : Nat) (h : Tracee.isAlive p = false) :
    Tracee.readMemory p addr count = .error .processGone
  writeMemory_gone {p : σ} (addr : Addr) (data : List UInt8) (h : Tracee.isAlive p = false) :
    (Tracee.writeMemory addr data p).1 = .error .processGone
  registers_gone {p : σ} (h : Tracee.isAlive p = false) :
    Tracee.registers p = .error .processGone

/-! ### Breakpoints in a process that is gone -/

namespace Debuggee

section Gone

variable [Tracee σ] [GuardedTracee σ] {d : Debuggee σ}

/-- No breakpoint can be set, for the byte under it cannot be saved. -/
theorem arm_gone (h : Tracee.isAlive d.process = false) (addr : Addr) (file : String)
    (line : UInt64) (kind : BreakpointKind) : ∃ e, arm addr file line kind d = (.error e, d) := by
  have hread : Tracee.readExact d.process addr 1 = .error .processGone := by
    unfold Tracee.readExact
    rw [GuardedTracee.readMemory_gone addr 1 h]
    rfl
  rw [arm_apply, hread]
  split
  · exact ⟨_, rfl⟩
  · exact ⟨_, rfl⟩

/-- No breakpoint of the operator can be set in a process that is gone. -/
theorem setUser_gone (h : Tracee.isAlive d.process = false) (index : DebugIndex) (file : String)
    (line : UInt64) : ∃ e, setUser index file line d = (.error e, d) := by
  rcases setUser_eq index file line d with ⟨e, herror, -⟩ | ⟨addr, known, -, -, hstate, hok⟩
  · exact ⟨e, herror⟩
  -- it ends as setting it at its address does, and that fails
  obtain ⟨e, harm⟩ := arm_gone h addr known line .user
  rw [harm] at hstate hok
  rcases hset : setUser index file line d with ⟨e' | b, d'⟩ <;> rw [hset] at hstate hok
  · exact ⟨e', congrArg _ hstate⟩
  · cases (hok b).1 rfl

variable [LawfulTracee σ]

/-- None can be cleared either, so that the table stays as it is. -/
theorem clearAt_gone (h : Tracee.isAlive d.process = false) (addr : Addr) :
    ∃ e q, clearAt addr d = (.error e, ⟨q, d.breakpoints⟩) ∧ Tracee.isAlive q = false := by
  rw [clearAt_apply]
  rcases d.breakpoints.locate? addr with _ | b
  · exact ⟨_, d.process, rfl, h⟩
  have hwrite := GuardedTracee.writeMemory_gone addr [b.saved] h
  rcases hw : Tracee.writeMemory addr [b.saved] d.process with ⟨e | _, q⟩ <;> rw [hw] at hwrite
  · dsimp only
    refine ⟨e, q, by rw [hw], ?_⟩
    -- a write does not bring the process back
    by_contra halive
    rw [Bool.not_eq_false] at halive
    exact absurd (LawfulTracee.alive_of_write hw halive) (by simp [h])
  · cases hwrite

/-- Nor can one be cleared, and the table stays. -/
theorem clearUser_gone (h : Tracee.isAlive d.process = false) (number : UInt64) :
    ∃ e q, clearUser number d = (.error e, ⟨q, d.breakpoints⟩) ∧ Tracee.isAlive q = false := by
  simp only [clearUser, Action.bind_apply, Action.get_apply]
  rcases d.breakpoints.numbered? number with _ | b
  · exact ⟨_, d.process, rfl, h⟩
  · exact clearAt_gone h b.addr

/-- Clearing all of them leaves the table, too. -/
theorem clearAllUser_gone (h : Tracee.isAlive d.process = false) :
    (clearAllUser d).2.breakpoints = d.breakpoints ∧
      Tracee.isAlive (clearAllUser d).2.process = false := by
  let K : Debuggee σ → Prop := fun d' =>
    d'.breakpoints = d.breakpoints ∧ Tracee.isAlive d'.process = false
  have hend : Outcome K K (clearAllUser d).1 (clearAllUser d).2 := by
    refine clearKind_keeps (fun addr d' hd' => outcome_same.2 ?_) .user ⟨rfl, h⟩
    obtain ⟨e, q, hclear, hq⟩ := clearAt_gone hd'.2 addr
    rw [hclear]
    exact ⟨hd'.1, hq⟩
  exact (outcome_same (K := K)).1 hend

end Gone

end Debuggee

/-! ### Commands -/

namespace Session

/-- The commands that let the process go, or show what it is at. -/
def needsProcess : Command → Bool
  | .resume | .step | .next | .stepInstruction | .backtrace | .disassemble | .print _
  | .registers => true
  | _ => false

/-- The commands that set or clear a certain breakpoint. -/
def changesOne : Command → Bool
  | .setBreakpoint .. | .setFunctionBreakpoint _ | .clearBreakpoint (.number _) => true
  | _ => false

/-- What a command that ends with `r` in `t` comes to, once the process is gone. -/
structure Frozen [Tracee σ] (c : Command) (s : Session σ) (r : Except DebugError Feedback)
    (t : Session σ) : Prop where
  /-- One that needs the process fails for that reason. -/
  gone : needsProcess c = true → r = .error .processGone
  /-- One that sets or clears a certain breakpoint fails. -/
  refused : changesOne c = true → ∃ e, r = .error e
  /-- Unless a fresh process was started, the process is still gone and the table is as before. -/
  kept : (c = .restart → ∃ e, r = .error e) →
    t.breakpoints = s.breakpoints ∧ Tracee.isAlive t.process = false

/-- Commands lead from one state to another, and none of them is a restart that succeeds. -/
inductive Unrestarted [Tracee σ] : Session σ → List (Nat × Command) → Session σ → Prop
  | nil (s : Session σ) : Unrestarted s [] s
  | cons {s t u : Session σ} {fuel : Nat} {c : Command} {r : Except DebugError Feedback}
      {rest : List (Nat × Command)} (first : handle fuel c s = some (r, t))
      (failed : c = .restart → ∃ e, r = .error e) (others : Unrestarted t rest u) :
      Unrestarted s ((fuel, c) :: rest) u

section Commands

variable [Tracee σ] {s t u : Session σ}

/-- A command that fails at once because the process is gone. -/
theorem Frozen.of_error (h : Tracee.isAlive s.process = false) (c : Command) :
    Frozen c s (.error .processGone) s :=
  ⟨fun _ => rfl, fun _ => ⟨_, rfl⟩, fun _ => ⟨rfl, h⟩⟩

/-- One that needs no process and leaves the session as it is. -/
theorem Frozen.of_same (h : Tracee.isAlive s.process = false) {c : Command}
    {r : Except DebugError Feedback} (hneeds : needsProcess c = false)
    (hone : changesOne c = false) : Frozen c s r s :=
  ⟨by simp [hneeds], by simp [hone], fun _ => ⟨rfl, h⟩⟩

/-- Commands for a living process are refused. -/
theorem ensureAlive_gone (h : Tracee.isAlive s.process = false) :
    ensureAlive s = some (.error .processGone, s) := by
  show some (if Tracee.isAlive s.process then _ else _, s) = _
  rw [h]
  rfl

omit [Tracee σ] in
/-- A line can be found without the process. -/
theorem find_same (s : Session σ) (file : String) (line : UInt64) :
    ∃ r, find file line s = some (r, s) := by
  unfold find
  rw [bind_of_ok (x := get) rfl, bind_apply]
  rcases s.index.lookupLineAddress file line with e | addr
  · exact ⟨_, rfl⟩
  · exact ⟨_, rfl⟩

variable [GuardedTracee σ]

/-- There is no program counter. -/
theorem pc_gone (h : Tracee.isAlive s.process = false) :
    Session.pc s = some (.error .processGone, s) := by
  show some (Tracee.pc s.process, s) = _
  unfold Tracee.pc
  rw [GuardedTracee.registers_gone h]
  rfl

/-- What needs the process fails at its first look at it. -/
theorem needsProcess_gone (h : Tracee.isAlive s.process = false) (fuel : Nat) {c : Command}
    (hc : needsProcess c = true) : handle fuel c s = some (.error .processGone, s) := by
  have hregisters : Tracee.registers s.process = .error .processGone :=
    GuardedTracee.registers_gone h
  -- those that let the process go ask first whether it is there, the others read its registers
  cases c
  case resume => exact bind_of_error (ensureAlive_gone h)
  case step => exact bind_of_error (ensureAlive_gone h)
  case next => exact bind_of_error (ensureAlive_gone h)
  case stepInstruction => exact bind_of_error (ensureAlive_gone h)
  case disassemble => exact bind_of_error (pc_gone h)
  case backtrace =>
    refine bind_of_error (x := observe (Backtrace.walk · s.index)) ?_
    show some (Backtrace.walk s.process s.index, s) = _
    unfold Backtrace.walk
    rw [hregisters]
    rfl
  case print name =>
    refine bind_of_error (x := observe (VariableValue.read · s.index s.frames s.bias name)) ?_
    show some (VariableValue.read s.process s.index s.frames s.bias name, s) = _
    unfold VariableValue.read
    rw [hregisters]
    rfl
  case registers =>
    refine bind_of_error ?_
    show some (Tracee.registers s.process, s) = _
    rw [hregisters]
  all_goals cases hc

/-- The source can still be listed around a given line. -/
theorem list_gone (h : Tracee.isAlive s.process = false) (location : Option (String × UInt64))
    (range : Option UInt64) : ∃ r, list location range s = some (r, s) := by
  unfold list
  rw [bind_of_ok (x := get) rfl]
  rcases location with _ | ⟨file, line⟩
  · exact ⟨_, bind_of_error (pc_gone h)⟩
  · dsimp only
    rw [bind_of_ok (x := pure _) rfl, bind_apply]
    rcases Listing.read s.files _ line (range.getD s.listRange) with e | listing
    · exact ⟨_, rfl⟩
    · exact ⟨_, rfl⟩

/-- No breakpoint can be set at a line. -/
theorem setBreakpoint_gone (h : Tracee.isAlive s.process = false) (file : String) (line : UInt64) :
    ∃ e, setBreakpoint file line s = some (.error e, s) := by
  obtain ⟨e, hset⟩ := Debuggee.setUser_gone (d := s.debuggee) h s.index file line
  refine ⟨e, bind_of_error (x := onDebuggee (Debuggee.setUser s.index file line)) ?_⟩
  rw [onDebuggee_apply, hset]

/-- No breakpoint can be set at a function. -/
theorem setFunctionBreakpoint_gone (h : Tracee.isAlive s.process = false) (name : String) :
    ∃ e, setFunctionBreakpoint name s = some (.error e, s) := by
  unfold setFunctionBreakpoint
  rw [bind_of_ok (x := get) rfl]
  rcases s.index.functionsNamed name with _ | ⟨f, -⟩
  · exact ⟨_, rfl⟩
  dsimp only
  rw [bind_apply]
  rcases s.index.functionEntry f with e | location
  · exact ⟨e, rfl⟩
  · exact setBreakpoint_gone h location.file location.line

variable [LawfulTracee σ]

/-- Nothing is cleared: a certain breakpoint cannot be, and of all not even the first one. -/
theorem clearBreakpoint_gone (h : Tracee.isAlive s.process = false) (target : ClearTarget) :
    ∃ r t, clearBreakpoint target s = some (r, t) ∧ Frozen (.clearBreakpoint target) s r t := by
  -- one breakpoint has to be written back and fails; clearing them all forgets them first
  rcases target with number | _
  · obtain ⟨e, q, hclear, hq⟩ := Debuggee.clearUser_gone (d := s.debuggee) h number
    refine ⟨.error e, { s with debuggee := ⟨q, s.breakpoints⟩ }, ?_, nofun,
      fun _ => ⟨e, rfl⟩, fun _ => ⟨rfl, hq⟩⟩
    refine bind_of_error (x := onDebuggee (Debuggee.clearUser number)) ?_
    rw [onDebuggee_apply, hclear]
    rfl
  · obtain ⟨htable, hgone⟩ := Debuggee.clearAllUser_gone (d := s.debuggee) h
    rcases hclear : Debuggee.clearAllUser s.debuggee with ⟨r, d⟩
    rw [hclear] at htable hgone
    refine ⟨r.map fun _ => .breakpointsCleared s.breakpoints.user, { s with debuggee := d }, ?_,
      nofun, nofun, fun _ => ⟨htable, hgone⟩⟩
    show ((onDebuggee Debuggee.clearAllUser : Task σ Nat) >>= fun _ =>
      (pure (.breakpointsCleared s.breakpoints.user) : Task σ Feedback)) s = _
    rw [bind_apply, onDebuggee_apply, hclear]
    rcases r with e | n <;> rfl

omit [GuardedTracee σ] in
/-- A restart starts a fresh process, or it fails and the table stays as it was. -/
theorem restart_gone (h : Tracee.isAlive s.process = false) :
    ∃ r t, restart s = some (r, t) ∧ Frozen .restart s r t := by
  have hrestart := restart_apply s
  rcases hfresh : Tracee.restart s.process with ⟨e | _, q⟩ <;> rw [hfresh] at hrestart
  · refine ⟨.error e, _, hrestart, nofun, nofun, fun _ => ⟨rfl, ?_⟩⟩
    -- a start that failed does not bring the process back
    by_contra halive
    rw [Bool.not_eq_false] at halive
    exact absurd (LawfulTracee.restart_error hfresh halive).1 (by simp [h])
  · refine ⟨_, _, hrestart, nofun, nofun, fun hfailed => ?_⟩
    obtain ⟨e, he⟩ := hfailed rfl
    cases he

/-- What each command comes to. -/
theorem handle_gone (h : Tracee.isAlive s.process = false) (fuel : Nat) (c : Command) :
    ∃ r t, handle fuel c s = some (r, t) ∧ Frozen c s r t := by
  -- what needs the process is refused at once, everything else is looked at by itself
  by_cases hneeds : needsProcess c = true
  · exact ⟨_, s, needsProcess_gone h fuel hneeds, .of_error h c⟩
  rw [Bool.not_eq_true] at hneeds
  cases c
  case setBreakpoint file line =>
    obtain ⟨e, hset⟩ := setBreakpoint_gone h file line
    exact ⟨.error e, s, hset, nofun, fun _ => ⟨e, rfl⟩, fun _ => ⟨rfl, h⟩⟩
  case setFunctionBreakpoint name =>
    obtain ⟨e, hset⟩ := setFunctionBreakpoint_gone h name
    exact ⟨.error e, s, hset, nofun, fun _ => ⟨e, rfl⟩, fun _ => ⟨rfl, h⟩⟩
  case clearBreakpoint target => exact clearBreakpoint_gone h target
  case restart => exact restart_gone h
  case find file line =>
    obtain ⟨r, hfind⟩ := find_same s file line
    exact ⟨r, s, hfind, .of_same h rfl rfl⟩
  case list location range =>
    obtain ⟨r, hlist⟩ := list_gone h location range
    exact ⟨r, s, hlist, .of_same h rfl rfl⟩
  case listBreakpoints all => exact ⟨_, s, rfl, .of_same h rfl rfl⟩
  case help => exact ⟨_, s, rfl, .of_same h rfl rfl⟩
  case unsupported input => exact ⟨_, s, rfl, .of_same h rfl rfl⟩
  case quit => exact ⟨_, s, rfl, .of_same h rfl rfl⟩
  -- the others need the process
  all_goals cases hneeds

/-! ### Runs -/

/-- Meanwhile the table of a process that is gone stays as it is. -/
theorem Unrestarted.frozen {commands : List (Nat × Command)} (h : Unrestarted s commands t)
    (hgone : Tracee.isAlive s.process = false) :
    t.breakpoints = s.breakpoints ∧ Tracee.isAlive t.process = false := by
  -- the induction is on the commands; each finds the process gone and leaves it so
  induction h with
  | nil s => exact ⟨rfl, hgone⟩
  | @cons s t u fuel c r rest first failed others ih =>
    obtain ⟨r', t', hend, hfrozen⟩ := handle_gone hgone fuel c
    rw [hend] at first
    cases first
    obtain ⟨htable, hgone'⟩ := hfrozen.kept failed
    obtain ⟨hrest, hend⟩ := ih hgone'
    exact ⟨hrest.trans htable, hend⟩

/-- However a run of commands went, if the process ended in it and was not started again since, the
table has breakpoints of the operator only. Until a restart succeeds the table stays as it is; what
needs the process fails because it is gone, and no breakpoint can be set or cleared. A command that
answers that the process ended leaves the session in such a state. -/
theorem finished_frozen (p : σ) (index : DebugIndex) (frames : Option FrameIndex) (bias : Addr)
    (files : FileSystem) (commands : List (Nat × Command)) {s : Session σ}
    (hrun : executeAll commands (Session.start p index frames bias files) = some s) :
    ∃ s' : Session (Recorded σ),
      executeAll commands (Session.start (.ofProcess p) index frames bias files) = some s' ∧
      s'.plain = s ∧
      (ended s'.process.events = true →
        (∀ b ∈ s.breakpoints, b.kind = .user) ∧
        ∀ later t, Unrestarted s later t → t.breakpoints = s.breakpoints ∧
          ∀ fuel c, ∃ r u, handle fuel c t = some (r, u) ∧ Frozen c t r u) ∧
      ∀ fuel c f t', letsGo c = true → handle fuel c s' = some (.ok f, t') →
        f.reportsEnd = true → ended t'.process.events = true := by
  obtain ⟨s', hs', rfl⟩ :=
    exists_recorded (s := Session.start (.ofProcess p) index frames bias files) hrun
  -- the table of a session is sound from its start on, so its end is recorded
  have hsound := executeAll_sound commands (sound_start p index frames bias files) hs'
  refine ⟨s', hs', rfl, fun hended => ⟨hsound.finished hended, fun later t hlater => ?_⟩,
    fun fuel c f t' hgoes hend hf => ?_⟩
  · obtain ⟨htable, hgone⟩ := hlater.frozen (hsound.gone hended)
    exact ⟨htable, handle_gone hgone⟩
  · exact ((handle_leaves hsound fuel c _ t' hend).2.settled hgoes).reported hf

end Commands

end Session

/-! ### A run of a scripted machine -/

namespace Machine

instance : GuardedTracee Machine where
  readMemory_gone _ _ h := if_neg (Bool.eq_false_iff.1 h)
  writeMemory_gone _ _ h := congrArg Prod.fst (bind_of_ended h)
  registers_gone h := if_neg (Bool.eq_false_iff.1 h)

end Machine

namespace Session

open Machine in
/-- Once `nops` ended, its breakpoint is kept, and can neither be stepped to nor cleared. -/
theorem finished_frozen_nops :
    ∃ s t u e, executeAll [(0, .setBreakpoint "a.c" 1), (0, .resume), (0, .resume)]
        (Session.start nops nopsIndex none .null ⟨"/", []⟩) = some s ∧
      s.breakpoints.map (·.addr) = [⟨0x1001⟩] ∧ Unrestarted s [(8, .next)] t ∧
      handle 0 (.clearBreakpoint (.number 1)) t = some (.error e, u) ∧
      t.breakpoints = s.breakpoints := by
  have hrun : (executeAll [(0, .setBreakpoint "a.c" 1), (0, .resume), (0, .resume)]
      (Session.start nops nopsIndex none .null ⟨"/", []⟩)).any (fun s =>
        decide (s.breakpoints.map (·.addr) = [⟨0x1001⟩]) && (handle 8 .next s).isSome) = true := by
    decide +kernel
  -- the end is seen in the events of the same run with a record
  have hrecord : (executeAll [(0, .setBreakpoint "a.c" 1), (0, .resume), (0, .resume)]
      (Session.start (Recorded.ofProcess nops) nopsIndex none .null ⟨"/", []⟩)).all
        (ended ·.process.events) = true := by
    decide +kernel
  obtain ⟨s, hs, hend⟩ := (Option.any_eq_true _ _).1 hrun
  obtain ⟨haddrs, hnext⟩ := Bool.and_eq_true_iff.1 hend
  obtain ⟨⟨r, t⟩, hnext⟩ := Option.isSome_iff_exists.1 hnext
  obtain ⟨s', hs', -, hfinished, -⟩ := finished_frozen nops nopsIndex none .null ⟨"/", []⟩ _ hs
  rw [hs'] at hrecord
  have hlater : Unrestarted s [(8, .next)] t := .cons hnext nofun (.nil t)
  obtain ⟨htable, hfrozen⟩ := (hfinished hrecord).2 _ t hlater
  -- the number still counts, but the byte can not be written back
  obtain ⟨r', u, hclear, hrefused⟩ := hfrozen 0 (.clearBreakpoint (.number 1))
  obtain ⟨e, rfl⟩ := hrefused.refused rfl
  exact ⟨s, t, u, e, hs, of_decide_eq_true haddrs, hlater, hclear, htable⟩

end Session

end SourceDebugger
