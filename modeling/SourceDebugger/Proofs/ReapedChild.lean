import SourceDebugger.Proofs.Action
import SourceDebugger.TracedChild

/-!
# Children that are gone

When the system has reported that a child is gone, its number is free, and may be given to a process
that has nothing to do with the debugger. So no request may name it again. The numbers that a child
goes through and the reports are found in the requests and answers themselves, whatever the system
answers.

* `Logged` is a system with all that was asked of it, and `Transcript.Careful` says that no request
  was about a process that was reported as gone.
* `TracedChild.There` and `TracedChild.Off` are what is known as long as the child is there, and
  once it counts as gone. Whatever is done with a child that is there ends in one of the two,
  `ChildCall.ends_run`. Only a restart leads from the second one to a child,
  `TracedChild.restart_off`; anything else is refused, `ChildCall.run_gone`.
* `TracedChild.Sound` is the invariant, `ChildCall.sound_runAll`.
* `TracedChild.launch_careful`: so a child that was launched never makes a request about a process
  that was reported as gone.
-/

namespace SourceDebugger

/-! ### What is asked of a system -/

/-- The number of the process that a request is about. -/
def Request.process? : Request → Option Nat
  | .currentThread | .start _ | .canonicalPath _ | .fileAt _ => none
  | .wait pid | .trapCode pid | .readWord pid _ | .writeWord pid _ _ | .registers pid
  | .setRegisters pid _ | .step pid | .resume pid _ | .kill pid | .killGroup pid
  | .readMemory pid _ _ | .memoryRanges pid => some pid

/-- A request and its answer. -/
structure Exchange where
  /-- The request. -/
  request : Request
  /-- Its answer. -/
  answer : request.Answer

namespace Exchange

/-- The number of the process that is reported as gone. -/
def gone? : Exchange → Option Nat
  | ⟨.wait pid, .ok status⟩ => if status.isTerminal then some pid else none
  | _ => none

/-- The number of the process that is started. -/
def started? : Exchange → Option Nat
  | ⟨.start _, .ok pid⟩ => some pid
  | _ => none

end Exchange

/-- Requests and answers, the last one first. -/
abbrev Transcript := List Exchange

namespace Transcript

/-- The process with a number was reported as gone, and none with this number was started since. -/
def Gone (pid : Nat) : Transcript → Prop
  | [] => False
  | e :: earlier => e.started? ≠ some pid ∧ (e.gone? = some pid ∨ Gone pid earlier)

/-- No request is about a process that was reported as gone before. -/
def Careful : Transcript → Prop
  | [] => True
  | e :: earlier => (∀ pid, e.request.process? = some pid → ¬ Gone pid earlier) ∧ Careful earlier

end Transcript

/-- A system with the requests that were made of it and its answers. -/
structure Logged (ω : Type) where
  /-- The system. -/
  system : ω
  /-- The requests and the answers. -/
  log : Transcript

instance {ω : Type} [System ω] : System (Logged ω) where
  perform r s :=
    let (a, system) := System.perform r s.system
    (a, ⟨system, ⟨r, a⟩ :: s.log⟩)

/-- The thread from which a request is made next. -/
def System.thread {ω : Type} [System ω] (s : ω) : Nat := (System.perform .currentThread s).1

/-- A system with a log answers as the system does, and notes the request with its answer. -/
theorem perform_logged {ω : Type} [System ω] (r : Request) (s : Logged ω) :
    System.perform r s = ((System.perform r s.system).1,
      ⟨(System.perform r s.system).2, ⟨r, (System.perform r s.system).1⟩ :: s.log⟩) := rfl

namespace Transcript

variable {pid : Nat} {log : Transcript} {e : Exchange}

/-- What reports nothing cannot be the reason that a process counts as gone. -/
theorem gone_cons_of_quiet (he : e.gone? = none) (h : Gone pid (e :: log)) : Gone pid log :=
  h.2.resolve_left (by simp [he])

end Transcript

namespace TracedChild

open Transcript

variable {ω α β : Type}

/-- The requests that were made. -/
def log (c : TracedChild (Logged ω)) : Transcript := c.system.log

/-- What is known after some requests for a child, as long as it was not reported as gone. -/
structure There (c b : TracedChild (Logged ω)) : Prop where
  alive : b.alive = true
  pid : b.pid = c.pid
  tracer : b.tracer = c.tracer
  careful : b.log.Careful
  notGone : ¬ Gone c.pid b.log
  quiet : ∃ new, b.log = new ++ c.log ∧ ∀ e ∈ new, e.gone? = none

/-- What is known once the child counts as gone. -/
structure Off (c b : TracedChild (Logged ω)) : Prop where
  alive : b.alive = false
  tracer : b.tracer = c.tracer
  careful : b.log.Careful

/-- What is known once another child stands in for it. -/
structure Fresh (c b : TracedChild (Logged ω)) : Prop where
  alive : b.alive = true
  tracer : b.tracer = c.tracer
  careful : b.log.Careful
  notGone : ¬ Gone b.pid b.log

section Requests

variable {c b : TracedChild (Logged ω)} {e : Exchange}

/-- One more request, which is about this child or about no process, and reports nothing. -/
theorem There.next (h : There c b)
    (hprocess : e.request.process? = none ∨ e.request.process? = some c.pid)
    (hquiet : e.gone? = none) (system : ω) :
    There c { b with system := ⟨system, e :: b.log⟩ } where
  alive := h.alive
  pid := h.pid
  tracer := h.tracer
  careful := by
    -- a request is careful if the process it names has not been reported as gone
    refine ⟨fun pid hpid => ?_, h.careful⟩
    rcases hprocess with hnone | hsome
    · cases hnone.symm.trans hpid
    · cases hsome.symm.trans hpid
      exact h.notGone
  notGone hgone := h.notGone (gone_cons_of_quiet hquiet hgone)
  quiet := by
    -- the new exchange joins those that report no end
    obtain ⟨new, hlog, hnew⟩ := h.quiet
    refine ⟨e :: new, ?_, fun e' he' => ?_⟩
    · rw [List.cons_append, ← hlog]
      rfl
    · rcases List.mem_cons.1 he' with rfl | he'
      · exact hquiet
      · exact hnew e' he'

/-- The child is waited for once more and then counts as gone. -/
theorem There.leave (h : There c b) (answer : Except Errno WaitStatus) (system : ω) :
    Off c { b with system := ⟨system, ⟨.wait c.pid, answer⟩ :: b.log⟩, alive := false } where
  alive := rfl
  tracer := h.tracer
  careful := by
    refine ⟨fun pid hpid => ?_, h.careful⟩
    cases hpid
    exact h.notGone

/-- One more request, about no process that was reported as gone. -/
theorem Off.next (h : Off c b) (hprocess : ∀ pid, e.request.process? = some pid → ¬ Gone pid b.log)
    (system : ω) : Off c { b with system := ⟨system, e :: b.log⟩ } :=
  ⟨h.alive, h.tracer, hprocess, h.careful⟩

end Requests

/-! ### Parts of operations -/

/-- A part of an operation that only makes requests about this child, or about no process, and
learns nothing of its end. -/
def Keeps (c : TracedChild (Logged ω)) (x : Action (TracedChild (Logged ω)) α) : Prop :=
  ∀ b, There c b → There c (x b).2

/-- A part of an operation after which the child is there, or counts as gone. -/
def Ends (c : TracedChild (Logged ω)) (x : Action (TracedChild (Logged ω)) α) : Prop :=
  ∀ b, There c b → There c (x b).2 ∨ Off c (x b).2

section Parts

variable {c : TracedChild (Logged ω)} {x : Action (TracedChild (Logged ω)) α}
  {f : α → Action (TracedChild (Logged ω)) β}

/-- Without a request nothing is learnt of the child. -/
theorem Keeps.pure (a : α) : Keeps c (pure a) := fun _ h => h

/-- A failure makes no request. -/
theorem Keeps.throw (e : DebugError) : Keeps c (throw e : Action (TracedChild (Logged ω)) α) :=
  fun _ h => h

/-- Two parts can follow each other, since the first one leaves the child there for the second. -/
theorem Keeps.bind (hx : Keeps c x) (hf : ∀ a, Keeps c (f a)) : Keeps c (x >>= f) := by
  intro b hb
  have hmid := hx b hb
  rw [Action.bind_apply]
  rcases hxb : x b with ⟨_ | a, b'⟩ <;> rw [hxb] at hmid
  · exact hmid
  · exact hf a b' hmid

/-- The child is looked at first. -/
theorem Keeps.get_bind {f : TracedChild (Logged ω) → Action (TracedChild (Logged ω)) α}
    (hf : ∀ b, There c b → Keeps c (f b)) : Keeps c (get >>= f) := by
  intro b hb
  rw [Action.bind_apply]
  exact hf b hb b hb

/-- Both branches have to leave the child there. -/
theorem Keeps.ite {p : Prop} [Decidable p] {x y : Action (TracedChild (Logged ω)) α}
    (hx : Keeps c x) (hy : Keeps c y) : Keeps c (if p then x else y) := by
  split
  · exact hx
  · exact hy

/-- Turning an error number into an error makes no request. -/
theorem Keeps.accept (answer : Except Errno α) : Keeps c (accept answer) := by
  rcases answer with e | a
  · exact throw _
  · exact pure a

/-- Turning the error of a file into an error makes no request. -/
theorem Keeps.acceptFile (answer : Except String α) : Keeps c (acceptFile answer) := by
  rcases answer with e | a
  · exact throw _
  · exact pure a

/-- What learns nothing of the end of the child leaves it there. -/
theorem Keeps.ends (hx : Keeps c x) : Ends c x := fun b hb => .inl (hx b hb)

/-- The end of the child may be learnt by the last part. -/
theorem Keeps.bind_ends (hx : Keeps c x) (hf : ∀ a, Ends c (f a)) : Ends c (x >>= f) := by
  intro b hb
  have hmid := hx b hb
  rw [Action.bind_apply]
  rcases hxb : x b with ⟨_ | a, b'⟩ <;> rw [hxb] at hmid
  · exact .inl hmid
  · exact hf a b' hmid

/-- What the result is made into does not matter. -/
theorem Ends.bind_pure (hx : Ends c x) (g : α → β) : Ends c (x >>= fun a => Pure.pure (g a)) := by
  intro b hb
  have hend := hx b hb
  rw [Action.bind_apply]
  rcases hxb : x b with ⟨_ | a, b'⟩ <;> rw [hxb] at hend
  · exact hend
  · exact hend

/-- The child is looked at first, and is there then. -/
theorem Ends.get_bind {f : TracedChild (Logged ω) → Action (TracedChild (Logged ω)) α}
    (hf : ∀ b, There c b → Ends c (f b)) : Ends c (get >>= f) := by
  intro b hb
  rw [Action.bind_apply]
  exact hf b hb b hb

variable [System ω]

/-- A request is performed and noted, and nothing else changes. -/
theorem ask_apply (r : Request) (b : TracedChild (Logged ω)) :
    ask r b = (.ok (System.perform r b.system.system).1,
      { b with system := ⟨(System.perform r b.system.system).2,
        ⟨r, (System.perform r b.system.system).1⟩ :: b.log⟩ }) := rfl

/-- A request about this child or about no process keeps it there, if no answer to it reports an
end. -/
theorem Keeps.ask {r : Request} (hprocess : r.process? = none ∨ r.process? = some c.pid)
    (hquiet : ∀ a, Exchange.gone? ⟨r, a⟩ = none) : Keeps c (TracedChild.ask r) := fun _ hb =>
  hb.next (e := ⟨r, _⟩) hprocess (hquiet _) _

/-- Asking for the thread is a request about no process. -/
theorem keeps_checkThread : Keeps c (checkThread (ω := Logged ω)) :=
  .bind (.ask (.inl rfl) fun _ => rfl) fun _ => .get_bind fun _ _ => .ite (.throw _) (.pure _)

/-- Whether the child may be accessed is decided by the thread and by what is known. -/
theorem keeps_checkAccess : Keeps c (checkAccess (ω := Logged ω)) :=
  .bind keeps_checkThread fun _ => .get_bind fun _ _ => .ite (.throw _) (.pure _)

/-- A request about the child that does not wait for it. -/
theorem Keeps.ask_pid {r : Nat → Request} (hprocess : ∀ pid, (r pid).process? = some pid)
    (hquiet : ∀ pid a, Exchange.gone? ⟨r pid, a⟩ = none) {b : TracedChild (Logged ω)}
    (hb : There c b) : Keeps c (TracedChild.ask (r b.pid)) := by
  rw [hb.pid]
  exact .ask (.inr (hprocess _)) (hquiet _)

/-- Memory is read by requests that report no end. -/
theorem keeps_readMemory (addr : Addr) (count : Nat) :
    Keeps c (readMemory (ω := Logged ω) addr count) :=
  .bind keeps_checkAccess fun _ => .get_bind fun _ hb =>
    .bind (.ask_pid (r := (.readMemory · addr count)) (fun _ => rfl) (fun _ _ => rfl) hb)
      fun _ => .acceptFile _

/-- Each word is read and written by requests about this child. -/
theorem keeps_writeWords (addr : Addr) (data : List UInt8) :
    Keeps c (writeWords (ω := Logged ω) addr data) := by
  induction addr, data using writeWords.induct with
  | case1 addr =>
    rw [writeWords]
    exact .pure _
  | case2 addr byte rest data ih =>
    rw [writeWords]
    refine .get_bind fun b hb => ?_
    refine .bind (.ask_pid (r := (.readWord · _)) (fun _ => rfl) (fun _ _ => rfl) hb) fun _ => ?_
    refine .bind (.accept _) fun word => ?_
    refine .bind (.ask_pid (r := (.writeWord · _ _)) (fun _ => rfl) (fun _ _ => rfl) hb) fun _ => ?_
    exact .bind (.accept _) fun _ => ih

/-- Memory is written word by word. -/
theorem keeps_writeMemory (addr : Addr) (data : List UInt8) :
    Keeps c (writeMemory (ω := Logged ω) addr data) :=
  .bind keeps_checkAccess fun _ => keeps_writeWords addr data

/-- The registers are read by one request about this child. -/
theorem keeps_registers : Keeps c (registers (ω := Logged ω)) :=
  .bind keeps_checkAccess fun _ => .get_bind fun _ hb =>
    .bind (.ask_pid (r := .registers) (fun _ => rfl) (fun _ _ => rfl) hb) fun _ => .accept _

/-- The registers are replaced by one request about this child. -/
theorem keeps_setRegisters (values : Registers) :
    Keeps c (setRegisters (ω := Logged ω) values) :=
  .bind keeps_checkAccess fun _ => .get_bind fun _ hb =>
    .bind (.ask_pid (r := (.setRegisters · values)) (fun _ => rfl) (fun _ _ => rfl) hb)
      fun _ => .accept _

/-- The load bias is read from files and makes no request about a process that is gone. -/
theorem keeps_loadBias : Keeps c (loadBias (ω := Logged ω)) := by
  refine .bind keeps_checkAccess fun _ => .get_bind fun b hb => ?_
  refine .bind (.ask (.inl rfl) fun _ => rfl) fun _ => .bind (.acceptFile _) fun path => ?_
  refine .bind (.ask_pid (r := .memoryRanges) (fun _ => rfl) (fun _ _ => rfl) hb) fun _ => ?_
  refine .bind (.acceptFile _) fun ranges => ?_
  split
  · exact .pure _
  · exact .pure _

/-! ### Waiting for the child -/

/-- Whoever waits for the child learns that it is gone, and notes that, or it is still there. -/
theorem ends_waitStop : Ends c (waitStop (ω := Logged ω)) := by
  refine .get_bind fun b hb => fun b' hb' => ?_
  rw [Action.bind_apply, ask_apply, hb.pid]
  dsimp only
  generalize (System.perform (.wait c.pid) b'.system.system).1 = answer
  -- whatever is answered, the child is either still there or has left with its last report
  have hleft := hb'.leave answer (System.perform (.wait c.pid) b'.system.system).2
  have hthere : Exchange.gone? ⟨.wait c.pid, answer⟩ = none → There c
      { b' with system := ⟨_, ⟨.wait c.pid, answer⟩ :: b'.log⟩ } := fun hquiet =>
    hb'.next (.inr rfl) hquiet (System.perform (.wait c.pid) b'.system.system).2
  rcases answer with e | status
  · exact .inl (hthere rfl)
  rw [Action.bind_apply]
  rcases status with code | signal | signal | description
  · -- the two reports that the child is gone
    exact .inr hleft
  · exact .inr hleft
  · -- the cause of a trap is asked for
    refine .inl (Keeps.ite (.bind ?_ fun _ => ?_) (.pure _) _ (hthere rfl))
    · exact .ask (.inr rfl) fun _ => rfl
    · exact .bind (.accept _) fun _ => .pure _
  · exact .inl (hthere rfl)

/-- A single step waits once, and the answer may report the end of the child. -/
theorem ends_singleStep : Ends c (singleStep (ω := Logged ω)) :=
  keeps_checkAccess.bind_ends fun _ => .get_bind fun _ hb =>
    (Keeps.ask_pid (r := .step) (fun _ => rfl) (fun _ _ => rfl) hb).bind_ends fun _ =>
      (Keeps.accept _).bind_ends fun _ => ends_waitStop

/-- A resume waits once, and the answer may report the end of the child. -/
theorem ends_resume (signal : Option Signal) : Ends c (resume (ω := Logged ω) signal) :=
  keeps_checkAccess.bind_ends fun _ => .get_bind fun _ hb =>
    (Keeps.ask_pid (r := (.resume · signal)) (fun _ => rfl) (fun _ _ => rfl) hb).bind_ends fun _ =>
      (Keeps.accept _).bind_ends fun _ => ends_waitStop

/-- Ending the child waits for it, and afterwards it counts as gone. -/
theorem ends_kill : Ends c (kill (ω := Logged ω)) := by
  refine keeps_checkAccess.bind_ends fun _ => .get_bind fun b hb => ?_
  refine (Keeps.ask_pid (r := .kill) (fun _ => rfl) (fun _ _ => rfl) hb).bind_ends fun _ => ?_
  refine (Keeps.accept _).bind_ends fun _ => fun b' hb' => .inr ?_
  rw [Action.bind_apply, ask_apply, hb.pid]
  exact hb'.leave _ _

end Parts

/-! ### Starting a child -/

section Start

variable [System ω] {c b : TracedChild (Logged ω)}

/-- The thread that asks next. -/
def thread {ω : Type} [System ω] (c : TracedChild ω) : Nat := System.thread c.system

/-- The child behind the question which thread asks. -/
def identified {ω : Type} [System ω] (c : TracedChild ω) : TracedChild ω :=
  { c with system := (System.perform .currentThread c.system).2 }

/-- The thread is asked for, and has to be the one that traces. -/
theorem checkThread_apply {ω : Type} [System ω] (c : TracedChild ω) :
    checkThread c =
      (if c.thread = c.tracer then .ok () else .error .wrongTracerThread, c.identified) := by
  show (if c.thread ≠ c.tracer then throw .wrongTracerThread else pure () :
    Action (TracedChild ω) Unit) c.identified = _
  by_cases hthread : c.thread = c.tracer
  · rw [if_neg fun hne => hne hthread, if_pos hthread]
    rfl
  · rw [if_pos hthread, if_neg hthread]
    rfl

/-- What is known after a child was started, or that failed. -/
def Spawned (c : TracedChild (Logged ω)) : Except DebugError Nat × TracedChild (Logged ω) → Prop
  | (.ok pid, b) => Off c b ∧ ¬ Gone pid b.log
  | (.error _, b) => Off c b

/-- What is known after another child was to take the place of this one. -/
def Replaced (c : TracedChild (Logged ω)) : Except DebugError Unit × TracedChild (Logged ω) → Prop
  | (.ok _, b) => Fresh c b
  | (.error _, b) => Off c b

/-- A child that was just started is waited for at once. If it is gone already, its number is not
taken over. -/
theorem spawned_spawn (hb : Off c b) : Spawned c (spawn b) := by
  unfold spawn
  rw [Action.bind_apply, Action.get_apply]
  dsimp only
  rw [Action.bind_apply, ask_apply]
  dsimp only
  generalize (System.perform (.start b.arguments) b.system.system).1 = answer
  generalize (System.perform (.start b.arguments) b.system.system).2 = system
  have hstarted := hb.next (e := ⟨.start b.arguments, answer⟩) nofun system
  rcases answer with e | pid
  · exact hstarted
  rw [Action.bind_apply]
  dsimp only [accept, Action.pure_apply]
  rw [Action.bind_apply, ask_apply]
  dsimp only
  generalize (System.perform (.wait pid) system).1 = answer
  generalize (System.perform (.wait pid) system).2 = system'
  -- a process that was just started is not gone
  have hwaited := hstarted.next (e := ⟨.wait pid, answer⟩)
    (fun pid' hpid hgone => by cases hpid; exact hgone.1 rfl) system'
  rcases answer with e | status
  · exact hwaited
  dsimp only [Action.pure_apply]
  rw [Action.bind_apply]
  dsimp only [Action.pure_apply]
  by_cases hstatus : status = .stopped .trap
  · rw [if_pos hstatus]
    refine ⟨hwaited, fun hgone => ?_⟩
    subst hstatus
    -- the last report was no end, and before it the process was started
    exact (gone_cons_of_quiet rfl hgone).1 rfl
  · rw [if_neg hstatus]
    exact hwaited

omit [System ω] in
/-- A replacement that fails leaves no child, and one that succeeds leaves a fresh one. -/
theorem Replaced.off_or_fresh {r : Except DebugError Unit × TracedChild (Logged ω)}
    (h : Replaced c r) : Off c r.2 ∨ r.1 = .ok () ∧ Fresh c r.2 := by
  rcases r with ⟨_ | _, b⟩
  · exact .inl h
  · exact .inr ⟨rfl, h⟩

/-- Another child is started once this one was left. -/
theorem replaced_spawn (hb : Off c { b with alive := false }) :
    Replaced c ((setAlive false >>= fun _ => spawn >>= fun pid =>
      modify fun c => { c with pid, alive := true } : Action (TracedChild (Logged ω)) Unit) b) := by
  have hspawned := spawned_spawn hb
  rw [setAlive, Action.bind_apply, Action.modify_apply]
  dsimp only
  rw [Action.bind_apply]
  rcases hspawn : spawn { b with alive := false } with ⟨e | pid, b'⟩ <;> rw [hspawn] at hspawned
  · exact hspawned
  · obtain ⟨hoff, hnew⟩ := hspawned
    exact ⟨rfl, hoff.tracer, hoff.careful, hnew⟩

/-- A restart fails at once for another thread, and comes after a question which thread asks
otherwise. -/
theorem restart_apply {ω : Type} [System ω] (c : TracedChild ω) :
    restart c = if c.thread = c.tracer then
        (do
          if c.alive then
            let _ ← ask (.killGroup c.pid)
            let _ ← ask (.wait c.pid)
          setAlive false
          let pid ← spawn
          modify fun c => { c with pid, alive := true } : Action (TracedChild ω) Unit) c.identified
      else (.error .wrongTracerThread, c.identified) := by
  unfold restart
  rw [Action.bind_apply, checkThread_apply]
  by_cases hthread : c.thread = c.tracer
  · rw [if_pos hthread, if_pos hthread]
    rfl
  · rw [if_neg hthread, if_neg hthread]

/-- A child that counts as gone is not asked to end. -/
theorem restart_off (hb : Off c b) : Replaced c (restart b) := by
  have hidentified : Off c b.identified := hb.next (e := ⟨.currentThread, _⟩) nofun _
  rw [restart_apply]
  split
  · rw [hb.alive]
    exact replaced_spawn ⟨rfl, hidentified.tracer, hidentified.careful⟩
  · exact hidentified

/-- A child that is there is ended and waited for first. -/
theorem restart_there (hb : There c b) :
    There c (restart b).2 ∨ Replaced c (restart b) := by
  have hidentified : There c b.identified :=
    hb.next (e := ⟨.currentThread, _⟩) (.inl rfl) rfl _
  rw [restart_apply]
  split
  · rw [hb.alive, hb.pid]
    have hkilled : There c (ask (.killGroup c.pid) b.identified).2 :=
      Keeps.ask (.inr rfl) (fun _ => rfl) _ hidentified
    exact .inr (replaced_spawn (hkilled.leave _ _))
  · exact .inl hidentified

/-- Why an access to a child that counts as gone fails. -/
def refusal {ω : Type} [System ω] (c : TracedChild ω) : DebugError :=
  if c.thread = c.tracer then .processGone else .wrongTracerThread

/-- An access comes after a question which thread asks. -/
theorem checkAccess_apply {ω : Type} [System ω] (c : TracedChild ω) :
    checkAccess c =
      (if c.thread = c.tracer ∧ c.alive = true then .ok () else .error c.refusal, c.identified) := by
  have halive : c.identified.alive = c.alive := rfl
  unfold checkAccess refusal
  rw [Action.bind_apply, checkThread_apply]
  by_cases hthread : c.thread = c.tracer
  · rw [if_pos hthread, if_pos hthread]
    dsimp only
    rw [Action.bind_apply, Action.get_apply]
    dsimp only
    rw [halive]
    cases hc : c.alive
    · exact congrArg (·, c.identified) (if_neg fun h => Bool.noConfusion h.2).symm
    · exact congrArg (·, c.identified) (if_pos ⟨hthread, rfl⟩).symm
  · rw [if_neg hthread, if_neg hthread, if_neg fun h => hthread h.1]

/-- A child that counts as gone is refused before anything is asked about it. -/
theorem checkAccess_gone {ω : Type} [System ω] {c : TracedChild ω} (hc : c.alive = false) :
    checkAccess c = (.error c.refusal, c.identified) := by
  rw [checkAccess_apply, if_neg fun h => Bool.noConfusion (hc.symm.trans h.2)]

end Start

/-! ### The invariant -/

/-- No request was about a process that was reported as gone, and a child that counts as there was
not reported as gone itself. -/
structure Sound (tracer : Nat) (c : TracedChild (Logged ω)) : Prop where
  tracer : c.tracer = tracer
  careful : c.log.Careful
  notGone : c.alive = true → ¬ Gone c.pid c.log

section Sound

variable {tracer : Nat} {c b : TracedChild (Logged ω)}

/-- A sound child that is alive was not reported as gone. -/
theorem Sound.there (hc : Sound tracer c) (halive : c.alive = true) : There c c :=
  ⟨halive, rfl, rfl, hc.careful, hc.notGone halive, [], rfl, nofun⟩

/-- A sound child that is not alive counts as gone. -/
theorem Sound.off (hc : Sound tracer c) (halive : c.alive = false) : Off c c :=
  ⟨halive, rfl, hc.careful⟩

/-- A child that is there is sound. -/
theorem There.sound (h : There c b) (hc : c.tracer = tracer) : Sound tracer b :=
  ⟨h.tracer.trans hc, h.careful, fun _ => h.pid ▸ h.notGone⟩

/-- A child that counts as gone is sound: nothing is asked about it any more. -/
theorem Off.sound (h : Off c b) (hc : c.tracer = tracer) : Sound tracer b :=
  ⟨h.tracer.trans hc, h.careful, fun halive => by simp [h.alive] at halive⟩

/-- A fresh child is sound, since its number was not reported as gone since it was started. -/
theorem Fresh.sound (h : Fresh c b) (hc : c.tracer = tracer) : Sound tracer b :=
  ⟨h.tracer.trans hc, h.careful, fun _ => h.notGone⟩

/-- A child that was just started is sound: its number may be one of those that are gone, but it was
started after that. -/
theorem sound_of_spawn [System ω] {pid : Nat} (h : spawn c = (.ok pid, b)) (hc : Off c c) :
    Sound c.tracer { b with pid, alive := true } := by
  have hspawned := spawned_spawn hc
  rw [h] at hspawned
  exact ⟨hspawned.1.tracer, hspawned.1.careful, fun _ => hspawned.2⟩

end Sound

end TracedChild

/-! ### Operations -/

/-- An operation on a child. -/
inductive ChildCall where
  /-- Reads memory. -/
  | readMemory (addr : Addr) (count : Nat)
  /-- Writes memory. -/
  | writeMemory (addr : Addr) (data : List UInt8)
  /-- Reads the registers. -/
  | registers
  /-- Replaces the registers. -/
  | setRegisters (values : Registers)
  /-- Asks where the executable lies in memory. -/
  | loadBias
  /-- Lets the child execute one instruction. -/
  | singleStep
  /-- Lets the child run until it stops. -/
  | resume (signal : Option Signal)
  /-- Ends the child. -/
  | kill
  /-- Ends the child, if it is there, and starts a fresh one. -/
  | restart

namespace ChildCall

open TracedChild

/-- Carries out an operation. -/
def run {ω : Type} [System ω] : ChildCall → Action (TracedChild ω) Unit
  | readMemory addr count => do let _ ← TracedChild.readMemory addr count
  | writeMemory addr data => TracedChild.writeMemory addr data
  | registers => do let _ ← TracedChild.registers
  | setRegisters values => TracedChild.setRegisters values
  | loadBias => do let _ ← TracedChild.loadBias
  | singleStep => do let _ ← TracedChild.singleStep
  | resume signal => do let _ ← TracedChild.resume signal
  | kill => TracedChild.kill
  | restart => TracedChild.restart

/-- The child after some operations. -/
def runAll {ω : Type} [System ω] : List ChildCall → TracedChild ω → TracedChild ω
  | [], c => c
  | call :: calls, c => runAll calls (call.run c).2

/-- Calls that are made one behind the other are made in two parts. -/
theorem runAll_append {ω : Type} [System ω] (calls calls' : List ChildCall) (c : TracedChild ω) :
    runAll (calls ++ calls') c = runAll calls' (runAll calls c) := by
  induction calls generalizing c with
  | nil => rfl
  | cons call calls ih => exact ih _

/-- None of some operations is a restart that succeeds. -/
def Unrestarted {ω : Type} [System ω] : List ChildCall → TracedChild ω → Prop
  | [], _ => True
  | call :: calls, c =>
    ¬ (call = restart ∧ (call.run c).1 = .ok ()) ∧ Unrestarted calls (call.run c).2

/-- During an operation a process is reported as gone. -/
def Reaps {ω : Type} [System ω] (call : ChildCall) (c : TracedChild (Logged ω)) : Prop :=
  ∃ new, (call.run c).2.log = new ++ c.log ∧ ∃ e ∈ new, e.gone? ≠ none

section Runs

variable {ω : Type} [System ω] {call : ChildCall}

/-- All that can be done with a child that counts as gone is to start another one. -/
theorem run_gone {c : TracedChild ω} (hc : c.alive = false) (hcall : call ≠ restart) :
    call.run c = (.error c.refusal, c.identified) := by
  have haccess {α : Type} (f : Unit → Action (TracedChild ω) α) :
      (checkAccess >>= f) c = (.error c.refusal, c.identified) := by
    rw [Action.bind_apply, checkAccess_gone hc]
  have hresult {α β : Type} (f : Unit → Action (TracedChild ω) α)
      (g : α → Action (TracedChild ω) β) :
      ((checkAccess >>= f) >>= g) c = (.error c.refusal, c.identified) := by
    rw [Action.bind_apply, haccess]
  -- every operation but a restart begins with this check
  cases call with
  | restart => exact absurd rfl hcall
  | writeMemory | setRegisters | kill => exact haccess _
  | readMemory | registers | loadBias | singleStep | resume => exact hresult _ _

variable {c : TracedChild (Logged ω)} {tracer : Nat}

/-- Whatever else is done with a child, it is there afterwards, or counts as gone. -/
theorem ends_run (hcall : call ≠ restart) : Ends c (call.run (ω := Logged ω)) := by
  cases call with
  | restart => exact absurd rfl hcall
  | readMemory => exact (keeps_readMemory _ _).ends.bind_pure _
  | writeMemory => exact (keeps_writeMemory _ _).ends
  | registers => exact keeps_registers.ends.bind_pure _
  | setRegisters => exact (keeps_setRegisters _).ends
  | loadBias => exact keeps_loadBias.ends.bind_pure _
  | singleStep => exact ends_singleStep.bind_pure _
  | resume => exact (ends_resume _).bind_pure _
  | kill => exact ends_kill

/-- What an operation can come to: a child that was there still is, it counts as gone, or another
one was started. -/
theorem run_cases (hc : Sound tracer c) (call : ChildCall) :
    c.alive = true ∧ There c (call.run c).2 ∨ Off c (call.run c).2 ∨
      (call = restart ∧ (call.run c).1 = .ok ()) ∧ Fresh c (call.run c).2 := by
  have hrestarted (hreplaced : Replaced c (restart.run c)) : Off c (restart.run c).2 ∨
      (restart = restart ∧ (restart.run c).1 = .ok ()) ∧ Fresh c (restart.run c).2 :=
    hreplaced.off_or_fresh.imp id fun h => ⟨⟨rfl, h.1⟩, h.2⟩
  rcases halive : c.alive with _ | _
  · by_cases hcall : call = restart
    · subst hcall
      exact .inr (hrestarted (restart_off (hc.off halive)))
    · rw [run_gone halive hcall]
      exact .inr (.inl ((hc.off halive).next (e := ⟨.currentThread, _⟩) nofun _))
  · by_cases hcall : call = restart
    · subst hcall
      exact (restart_there (hc.there halive)).imp (⟨rfl, ·⟩) hrestarted
    · exact (ends_run hcall c (hc.there halive)).imp (⟨rfl, ·⟩) .inl

/-- One operation keeps a child sound. -/
theorem sound_run (hc : Sound tracer c) (call : ChildCall) : Sound tracer (call.run c).2 := by
  rcases run_cases hc call with ⟨-, h⟩ | h | ⟨-, h⟩
  · exact h.sound hc.tracer
  · exact h.sound hc.tracer
  · exact h.sound hc.tracer

/-- Any operations keep a child sound. -/
theorem sound_runAll (hc : Sound tracer c) (calls : List ChildCall) :
    Sound tracer (runAll calls c) := by
  induction calls generalizing c with
  | nil => exact hc
  | cons call calls ih => exact ih (sound_run hc call)

/-- A child that was reported as gone counts as gone, unless it was replaced. -/
theorem not_alive_of_reaps (hc : Sound tracer c) (hreaps : call.Reaps c)
    (hcall : ¬ (call = restart ∧ (call.run c).1 = .ok ())) : (call.run c).2.alive = false := by
  rcases run_cases hc call with ⟨-, h⟩ | h | ⟨hrestarted, -⟩
  · -- as long as the child is there, nothing was reported as gone
    obtain ⟨new, hlog, e, he, hgone⟩ := hreaps
    obtain ⟨new', hlog', hquiet⟩ := h.quiet
    obtain rfl := List.append_cancel_right (hlog.symm.trans hlog')
    exact absurd (hquiet e he) hgone
  · exact h.alive
  · exact absurd hrestarted hcall

/-- A child that counts as gone does so until a restart succeeds. -/
theorem runAll_not_alive (hc : Sound tracer c) (halive : c.alive = false)
    {calls : List ChildCall} (hcalls : Unrestarted calls c) : (runAll calls c).alive = false := by
  induction calls generalizing c with
  | nil => exact halive
  | cons call calls ih =>
    obtain ⟨hcall, hcalls⟩ := hcalls
    refine ih (sound_run hc call) ?_ hcalls
    rcases run_cases hc call with ⟨hthere, -⟩ | h | ⟨hrestarted, -⟩
    · cases halive.symm.trans hthere
    · exact h.alive
    · exact absurd hrestarted hcall

/-- Giving the child up asks nothing of a process that was reported as gone: a child that is alive is
killed and waited for, and any other is left alone. -/
theorem careful_release (hc : Sound tracer c) : (release c).log.Careful := by
  unfold release
  split
  next halive =>
    rcases ends_kill c (hc.there halive) with h | h
    · exact h.careful
    · exact h.careful
  next => exact hc.careful

/-- A child that was just launched is sound. -/
theorem sound_launch {path : String} {arguments : List String} {system : ω}
    {left : Logged ω} (h : launch path arguments ⟨system, []⟩ = (.ok c, left)) :
    Sound (System.thread system) c := by
  unfold launch at h
  unfold System.thread
  rw [perform_logged] at h
  dsimp only at h
  rw [perform_logged] at h
  dsimp only at h
  -- the thread that starts the child is the one that traces it
  generalize (System.perform .currentThread system).1 = tracer at h ⊢
  split at h
  -- arguments with a zero byte are refused before anything is asked for
  · cases h
  · cases h
  split at h
  · cases h
  split at h
  next pid b hspawn =>
    cases h
    exact sound_of_spawn hspawn ⟨rfl, rfl, nofun, nofun, trivial⟩
  · cases h

end Runs

end ChildCall

namespace TracedChild

open ChildCall

/-- A child that was launched, whatever is done with it and whatever the system answers: no request
is about a process that was reported as gone, not even when the child is released. After such a
report every access is refused until a restart succeeds. -/
theorem launch_careful {ω : Type} [System ω] {path : String} {arguments : List String} {system : ω}
    {c : TracedChild (Logged ω)} {left : Logged ω}
    (h : launch path arguments ⟨system, []⟩ = (.ok c, left)) :
    (∀ calls, (runAll calls c).log.Careful ∧ (release (runAll calls c)).log.Careful) ∧
      ∀ calls call later, call.Reaps (runAll calls c) →
        Unrestarted (call :: later) (runAll calls c) →
        ∀ access ≠ ChildCall.restart, let b := runAll (calls ++ call :: later) c
          access.run b =
            (.error (if b.thread = System.thread system then .processGone else .wrongTracerThread),
              b.identified) := by
  have hc := sound_launch h
  refine ⟨fun calls => ?_, fun calls call later hreaps hunrestarted access haccess => ?_⟩
  · have hsound := sound_runAll hc calls
    exact ⟨hsound.careful, careful_release hsound⟩
  · have hbefore := sound_runAll hc calls
    -- the report that the child is gone stays in the log, hence no later call asks for it again
    have hgone := not_alive_of_reaps hbefore hreaps hunrestarted.1
    have hlater := runAll_not_alive (sound_run hbefore call) hgone hunrestarted.2
    have hb : runAll (calls ++ call :: later) c = runAll later (call.run (runAll calls c)).2 := by
      rw [runAll_append, runAll]
    rw [← hb] at hlater
    intro b
    have htracer : b.tracer = _ := (sound_runAll hc (calls ++ call :: later)).tracer
    rw [← htracer]
    exact run_gone hlater haccess

/-- A system that reports changes of children in a given order and does all it is asked to. -/
structure Script where
  /-- The changes. -/
  changes : List WaitStatus

instance : System Script where
  perform
    | .currentThread, s => ((1 : Nat), s)
    | .start _, s => (.ok 7, s)
    | .wait _, ⟨[]⟩ => (.error ⟨10⟩, ⟨[]⟩)
    | .wait _, ⟨status :: changes⟩ => (.ok status, ⟨changes⟩)
    | .trapCode _, s => (.ok 1, s)
    | .readWord _ _, s => (.ok 0, s)
    | .writeWord _ _ _, s => (.ok (), s)
    | .registers _, s => (.ok .zero, s)
    | .setRegisters _ _, s => (.ok (), s)
    | .step _, s => (.ok (), s)
    | .resume _ _, s => (.ok (), s)
    | .kill _, s => (.ok (), s)
    | .killGroup _, s => (.ok (), s)
    | .readMemory _ _ count, s => (.ok (List.replicate count 0), s)
    | .memoryRanges _, s => (.ok [], s)
    | .canonicalPath path, s => (.ok path, s)
    | .fileAt _, s => (some true, s)

/-- A child that was launched there, and the changes that are still to be reported. -/
def launched (changes : List WaitStatus) : TracedChild (Logged Script) where
  system := ⟨⟨changes⟩, [⟨.wait 7, .ok (.stopped .trap)⟩, ⟨.start ["a.out"], .ok 7⟩,
    ⟨.fileAt "a.out", some true⟩, ⟨.currentThread, (1 : Nat)⟩]⟩
  executable := "a.out"
  arguments := ["a.out"]
  pid := 7
  alive := true
  tracer := 1

/-- The child ends when it is resumed, and its successor before it has started. -/
theorem launch_careful_ended :
    let c := launched [.exited 0, .exited 1]
    launch "a.out" [] ⟨⟨.stopped .trap :: c.system.system.changes⟩, []⟩ = (.ok c, c.system) ∧
    (release (runAll [.registers, .resume none, .restart, .kill] c)).log.Careful ∧
    (ChildCall.resume none).Reaps (runAll [.registers] c) ∧
    (ChildCall.registers.run (runAll [.registers, .resume none, .restart, .kill] c)).1 =
      .error .processGone := by
  intro c
  -- the child is started by one report of a trap; what follows is what the call sees
  have hlaunch : launch "a.out" [] ⟨⟨.stopped .trap :: c.system.system.changes⟩, []⟩ =
      (.ok c, c.system) := by
    have hplace : "a.out".toUTF8.toList.findIdx? (· == 0) = none := by decide +kernel
    have harguments : checkArguments ["a.out"] = .ok () := by
      rw [checkArguments, hplace]
      rfl
    unfold launch
    rw [harguments]
    rfl
  have hreaps : (ChildCall.resume none).Reaps (runAll [.registers] c) :=
    ⟨[⟨.wait 7, .ok (.exited 0)⟩, ⟨.resume 7 none, .ok ()⟩, ⟨.currentThread, (1 : Nat)⟩], rfl,
      _, .head _, nofun⟩
  obtain ⟨hcareful, hrefused⟩ := launch_careful hlaunch
  refine ⟨hlaunch, (hcareful _).2, hreaps, ?_⟩
  exact congrArg Prod.fst
    (hrefused [.registers] (.resume none) [.restart, .kill] hreaps ⟨nofun, nofun, nofun, trivial⟩
      .registers nofun)

end TracedChild

end SourceDebugger
