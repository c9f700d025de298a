import SourceDebugger.Proofs.TableEffects

/-!
# The breakpoints of the operator

What becomes of the breakpoints of the operator in the course of a session, of whatever kind its
process is: nothing is asked of how the process answers.

* `Session.Spares` is what a part of a command does that neither sets nor clears breakpoints of the
  operator. It passes from parts to what is built of them, so `Session.spares_handle` holds of all
  commands but those that set or clear such breakpoints, and of a restart.
* `Session.setBreakpoint_cases`, `Session.setFunctionBreakpoint_apply`,
  `Session.clearNumber_apply`: what the others come to.
* `Session.Tidy` holds in every session, `Session.executeAll_tidy`: no address has two breakpoints,
  and the breakpoints of the operator are where their lines stand for.
* `Session.handle_effect`: what every command does to the breakpoints of the operator. It puts one
  behind those that there are, or takes some away, and never changes their order,
  `Session.Effect.evolves`.
-/

namespace SourceDebugger

open BreakpointTable

variable {σ α β : Type}

namespace BreakpointTable

variable {table : BreakpointTable} {b : Breakpoint}

/-- A breakpoint of the operator that is put behind the table is put behind those of the operator. -/
theorem user_append_user (hkind : b.kind = .user) : user (table ++ [b]) = table.user ++ [b] := by
  simp [user, hkind]

/-- A breakpoint with a number is the operator's. -/
theorem mem_user_of_numbered? {number : UInt64} (h : table.numbered? number = some b) :
    b ∈ table.user := by
  unfold numbered? at h
  split at h
  · cases h
  · exact List.mem_of_getElem? h

/-- A number that is shown belongs to a breakpoint in the table. -/
theorem mem_of_numbered? {number : UInt64} (h : table.numbered? number = some b) : b ∈ table :=
  (List.mem_filter.1 (mem_user_of_numbered? h)).1

end BreakpointTable

/-! ### Single operations -/

namespace Debuggee

variable [Tracee σ]

/-- A breakpoint that is lifted for a while stays in the table. -/
theorem withDisarmed_breakpoints (addr : Addr) (x : Action σ α) (d : Debuggee σ) :
    (withDisarmed addr x d).2.breakpoints = d.breakpoints := by
  rw [withDisarmed_apply]
  rcases d.breakpoints.locate? addr with _ | b
  · rfl
  dsimp only
  rcases Tracee.writeMemory addr [b.saved] d.process with ⟨_ | _, p⟩
  · rfl
  dsimp only
  rcases x p with ⟨result, q⟩
  by_cases halive : Tracee.isAlive q = true <;> simp only [halive] <;> rfl

/-- To clear the breakpoints of the step engine leaves those of the operator, also if it fails on
the way. -/
theorem clearInternal_user {d : Debuggee σ} (hdistinct : d.breakpoints.Distinct) :
    (clearInternal d).2.breakpoints.Distinct ∧
      (clearInternal d).2.breakpoints.user = d.breakpoints.user := by
  let K : Debuggee σ → Prop := fun d' =>
    d'.breakpoints.Distinct ∧ d'.breakpoints.user = d.breakpoints.user
  suffices h : Outcome K K (clearInternal d).1 (clearInternal d).2 from
    (outcome_same (K := K)).1 h
  refine clearKind_keeps_of_kind (fun b hb hkind d' _ hd' => outcome_same.2 ?_) hdistinct
    ⟨hdistinct, rfl⟩
  obtain ⟨hdistinct', huser⟩ := hd'
  rcases clearAt_cases b.addr d' with ⟨e, p, herror⟩ | ⟨c, p, hok⟩
  · rw [herror]
    exact ⟨hdistinct', huser⟩
  · rw [hok]
    refine ⟨hdistinct'.without, (hdistinct'.filter_without fun a ha hakind => ?_).trans huser⟩
    -- what is left of the operator's breakpoints are those of the whole table
    have ha' : a ∈ d.breakpoints.user := huser ▸ List.mem_filter.2 ⟨ha, by simpa using hakind⟩
    exact hdistinct.addr_ne_of_kind hb (by simp [hkind]) a (List.mem_filter.1 ha').1 hakind

/-- To clear all breakpoints of the operator takes away some of them. -/
theorem clearAllUser_user {d : Debuggee σ} (hdistinct : d.breakpoints.Distinct) :
    (clearAllUser d).2.breakpoints.Distinct ∧
      (clearAllUser d).2.breakpoints.user.Sublist d.breakpoints.user := by
  let K : Debuggee σ → Prop := fun d' =>
    d'.breakpoints.Distinct ∧ d'.breakpoints.user.Sublist d.breakpoints.user
  suffices h : Outcome K K (clearAllUser d).1 (clearAllUser d).2 from
    (outcome_same (K := K)).1 h
  refine clearKind_keeps (fun addr d' hd' => outcome_same.2 ?_) .user
    ⟨hdistinct, List.Sublist.refl _⟩
  rcases clearAt_cases addr d' with ⟨e, p, herror⟩ | ⟨c, p, hok⟩
  · rw [herror]
    exact hd'
  · rw [hok]
    exact ⟨hd'.1.without, (List.eraseP_sublist.filter _).trans hd'.2⟩

/-- A breakpoint of the step engine is set behind the others. -/
theorem setInternal_user (index : DebugIndex) (addr : Addr) {d : Debuggee σ}
    (hdistinct : d.breakpoints.Distinct) :
    (setInternal index addr d).2.breakpoints.Distinct ∧
      (setInternal index addr d).2.breakpoints.user = d.breakpoints.user := by
  rw [setInternal_apply]
  dsimp only
  rcases arm_cases addr _ _ .internal d with ⟨e, p, herror⟩ | ⟨byte, p, hfree, hok⟩
  · rw [herror]
    exact ⟨hdistinct, rfl⟩
  · rw [hok]
    exact ⟨hdistinct.append hfree, user_append_internal rfl⟩

/-- In a fresh process some breakpoints of the operator are set again, in this order, where they
were. -/
theorem setAgain_fresh {index : DebugIndex} {bs : List Breakpoint}
    (h : ∀ b ∈ bs, b.Resolves index) (q : σ) :
    ∃ kept q', setAgain index bs ⟨q, []⟩ = (kept.length, ⟨q', kept⟩) ∧ kept.user = kept ∧
      kept.Distinct ∧ (kept.map (·.site)).Sublist (bs.map (·.site)) := by
  -- on the way the table has breakpoints already
  have hsteps : ∀ (bs : List Breakpoint) (d : Debuggee σ), d.breakpoints.Distinct →
      (setAgain index bs d).2.breakpoints.Distinct ∧
        (setAgain index bs d).2.breakpoints.length =
          d.breakpoints.length + (setAgain index bs d).1 := by
    intro bs
    induction bs with
    | nil => exact fun d hdistinct => ⟨hdistinct, rfl⟩
    | cons b rest ih =>
      intro d hdistinct
      rw [setAgain]
      rcases setUser_cases index b.file b.line d with
        ⟨e, p, herror⟩ | ⟨c, p, -, -, hfree, -, -, hok⟩
      · rw [herror]
        exact ih ⟨p, d.breakpoints⟩ hdistinct
      · rw [hok]
        obtain ⟨htable, hlength⟩ := ih ⟨p, d.breakpoints ++ [c]⟩ (hdistinct.append hfree)
        refine ⟨htable, hlength.trans ?_⟩
        simp only [List.length_append, List.length_singleton]
        omega
  obtain ⟨hdistinct, hlength⟩ := hsteps bs ⟨q, []⟩ List.nodup_nil
  obtain ⟨kept, htable, hkinds, hsites⟩ := setAgain_sites h (⟨q, []⟩ : Debuggee σ)
  rw [List.nil_append] at htable
  refine ⟨kept, (setAgain index bs ⟨q, []⟩).2.process, ?_, ?_, htable ▸ hdistinct, hsites⟩
  · rw [htable, List.length_nil, Nat.zero_add] at hlength
    rw [hlength, ← htable]
  · exact List.filter_eq_self.2 fun b hb => by simp [hkinds b hb]

end Debuggee

/-- Whether a breakpoint is where its line stands for is said by its site. -/
theorem Breakpoint.Resolves.of_site {index : DebugIndex} {b c : Breakpoint} (h : b.Resolves index)
    (hsite : c.site = b.site) : c.Resolves index := by
  have haddr : c.addr = b.addr := congrArg (·.1) hsite
  have hfile : c.file = b.file := congrArg (·.2.1) hsite
  have hline : c.line = b.line := congrArg (·.2.2) hsite
  exact ⟨by rw [haddr, hfile, hline]; exact h.lookup, by rw [hfile]; exact h.known⟩

namespace Session

/-! ### Parts that spare the breakpoints of the operator -/

/-- From one session to another the breakpoints of the operator stay as they are. -/
structure Spared (s t : Session σ) : Prop where
  index : t.index = s.index
  table : s.breakpoints.Distinct →
    t.breakpoints.Distinct ∧ t.breakpoints.user = s.breakpoints.user

/-- A session that did nothing spared the breakpoints. -/
theorem Spared.refl (s : Session σ) : Spared s s := ⟨rfl, fun h => ⟨h, rfl⟩⟩

/-- What spares the breakpoints can be done one behind the other. -/
theorem Spared.trans {s t u : Session σ} (h : Spared s t) (h' : Spared t u) : Spared s u where
  index := h'.index.trans h.index
  table hdistinct := by
    obtain ⟨ht, huser⟩ := h.table hdistinct
    obtain ⟨hu, huser'⟩ := h'.table ht
    exact ⟨hu, huser'.trans huser⟩

/-- A part of a command that leaves the breakpoints of the operator as they are, whether it fails or
not. -/
def Spares (x : Task σ α) : Prop := ∀ s, Ensures x s fun _ t => Spared s t

namespace Spares

/-- A part that spares the breakpoints can be followed by another one, also when the first one
fails. -/
theorem bind {x : Task σ α} {f : α → Task σ β} (hx : Spares x) (hf : ∀ a, Spares (f a)) :
    Spares (x >>= f) := fun s =>
  (hx s).bind (fun a t ht => (hf a t).mono fun _ _ hu => ht.trans hu) fun _ _ ht => ht

/-- Both branches have to spare the breakpoints. -/
theorem ite {p : Prop} [Decidable p] {x y : Task σ α} (hx : Spares x) (hy : Spares y) :
    Spares (if p then x else y) := by
  split
  · exact hx
  · exact hy

/-- A part that leaves the whole session as it is. -/
theorem of_same {x : Task σ α} (h : ∀ s, Ensures x s fun _ t => t = s) : Spares x := fun s =>
  (h s).mono fun _ _ ht => ht ▸ .refl s

/-- An answer that is given at once spares the breakpoints. -/
theorem pure (a : α) : Spares (pure a : Task σ α) := of_same fun _ => ensures_pure.2 rfl

/-- A failure spares the breakpoints. -/
theorem throw (e : DebugError) : Spares (throw e : Task σ α) := of_same fun _ => ensures_throw.2 rfl

/-- A result that is known already spares the breakpoints. -/
theorem lift (e : Except DebugError α) : Spares (liftM e : Task σ α) :=
  of_same fun _ => ensures_lift.2 rfl

/-- Looking at the session spares the breakpoints. -/
theorem get : Spares (get : Task σ (Session σ)) := of_same fun _ => (ensures_of_eq rfl).2 rfl

/-- A part without an end spares the breakpoints, as it leaves no session behind. -/
theorem diverge : Spares (diverge : Task σ α) := fun _ => ensures_diverge

/-- What is read off the session spares the breakpoints. -/
theorem reading (f : Session σ → α) : Spares (reading f) := of_same fun _ => ensures_reading.2 rfl

/-- A part that works on the process and its breakpoints. -/
theorem onDebuggee {x : Action (Debuggee σ) α} (h : ∀ d : Debuggee σ, d.breakpoints.Distinct →
    (x d).2.breakpoints.Distinct ∧ (x d).2.breakpoints.user = d.breakpoints.user) :
    Spares (onDebuggee x) := fun s => ensures_onDebuggee.2 ⟨rfl, h s.debuggee⟩

/-- A part that does not touch the table. -/
theorem of_breakpoints {x : Action (Debuggee σ) α}
    (h : ∀ d : Debuggee σ, (x d).2.breakpoints = d.breakpoints) : Spares (Session.onDebuggee x) :=
  onDebuggee fun d hd => by rw [h d]; exact ⟨hd, rfl⟩

/-- What is observed of the process spares the breakpoints. -/
theorem observe (f : σ → Except DebugError α) : Spares (observe f) :=
  of_same fun _ => ensures_observe.2 rfl

/-- What is done to the process spares the breakpoints, which are in the table. -/
theorem onProcess (x : Action σ α) : Spares (Session.onProcess x) := of_breakpoints fun _ => rfl

/-- Dropping the breakpoints of the debugger leaves those of the operator. -/
theorem discardInternal : Spares (σ := σ) Session.discardInternal := fun _ =>
  ensures_modify.2 ⟨rfl, fun hdistinct => ⟨hdistinct.user, user_user _⟩⟩

/-- The signal that is to be delivered is another one. -/
theorem setSignal (signal : Option Signal) :
    Spares (σ := σ) (modify fun s => { s with pendingSignal := signal }) := fun _ =>
  ensures_modify.2 ⟨rfl, fun hdistinct => ⟨hdistinct, rfl⟩⟩

end Spares

variable [Tracee σ]

/-- Reading the program counter spares the breakpoints. -/
theorem spares_pc : Spares (σ := σ) pc := .observe _

/-- Asking whether the process is alive spares the breakpoints. -/
theorem spares_ensureAlive : Spares (σ := σ) ensureAlive := .observe _

/-- Clearing the breakpoints of the debugger leaves those of the operator. -/
theorem spares_clearInternal : Spares (σ := σ) clearInternal :=
  .bind (.onDebuggee fun _ hd => Debuggee.clearInternal_user hd) fun _ => .pure _

/-- A breakpoint that is stepped over is in the table afterwards. -/
theorem spares_stepOverBreakpoint (addr : Addr) : Spares (σ := σ) (stepOverBreakpoint addr) :=
  .of_breakpoints (Debuggee.withDisarmed_breakpoints addr Tracee.singleStep)

/-- Resuming the process spares the breakpoints. -/
theorem spares_resumeProcess : Spares (σ := σ) resumeProcess := by
  intro s r t h
  unfold resumeProcess at h
  split at h
  · cases h
  · cases h
    exact ⟨rfl, fun hd => ⟨hd, rfl⟩⟩

/-- Decoding an instruction spares the breakpoints. -/
theorem spares_instructionAt (addr : Addr) : Spares (σ := σ) (instructionAt addr) :=
  .bind .get fun _ => .bind (.lift _) fun _ => .lift _

/-- A single step spares the breakpoints, over one of them or not. -/
theorem spares_stepOnce : Spares (σ := σ) stepOnce :=
  .bind spares_pc fun addr => .bind .get fun _ =>
    .ite (spares_stepOverBreakpoint addr) (.onProcess _)

/-- Going back to a breakpoint changes registers only. -/
theorem spares_rewindAfterTrap : Spares (σ := σ) rewindAfterTrap := by
  refine .bind spares_pc fun addr => ?_
  split
  · exact .bind .get fun _ => .ite (.bind (.onProcess _) fun _ => .pure _) (.pure _)
  · exact .pure _

/-- The answer to a stop spares the breakpoints of the operator, also when the process is gone and
those of the debugger are dropped. -/
theorem spares_stopped (stop : Stop) : Spares (σ := σ) (stopped stop) := by
  unfold stopped
  split
  · exact .bind spares_rewindAfterTrap fun _ => .reading _
  · exact .bind spares_pc fun _ => .reading _
  · exact .bind (.setSignal _) fun _ => .bind spares_pc fun _ => .pure _
  · exact .bind .discardInternal fun _ => .bind .get fun _ => .pure _
  · exact .bind .discardInternal fun _ => .bind .get fun _ => .pure _

/-- A run back to a return address spares the breakpoints for any fuel. -/
theorem spares_runBack (ret callerSp : Addr) (fuel : Nat) :
    Spares (σ := σ) (runBack ret callerSp fuel) := by
  induction fuel with
  | zero => exact .diverge
  | succ fuel ih =>
    refine .bind spares_resumeProcess fun stop => .ite (.pure _) ?_
    refine .bind spares_rewindAfterTrap fun addr => .ite (.pure _) ?_
    refine .bind (.observe _) fun regs => .ite (.pure _) ?_
    exact .bind (spares_stepOverBreakpoint ret) fun stop => .ite (.pure _) ih

/-- Taking back the breakpoint of a run spares those of the operator, whether the process is alive
or not. -/
theorem spares_takeBack : Spares (σ := σ) takeBack :=
  .bind .get fun _ => .ite spares_clearInternal .discardInternal

/-- Whatever ended a run back, its answer spares the breakpoints. -/
theorem spares_answerFor (outcome : Option Stop) : Spares (σ := σ) (answerFor outcome) := by
  unfold answerFor
  split
  · exact .pure _
  · exact .bind spares_pc fun _ => .bind (.reading _) fun _ => .pure _
  · exact .bind (spares_stopped _) fun _ => .pure _

/-- The breakpoint at a return address is the debugger's, so setting it spares those of the
operator. -/
theorem spares_runToReturn (fuel : Nat) (ret callerSp : Addr) :
    Spares (σ := σ) (runToReturn fuel ret callerSp) := fun s => by
  refine ensures_runToReturn.2 ⟨fun _ => ?_, fun _ => ?_⟩
  · refine Spares.bind (.onDebuggee fun _ hd => Debuggee.setInternal_user _ _ hd) (fun _ => ?_) s
    refine .bind (spares_runBack ret callerSp fuel) fun outcome => ?_
    exact .bind spares_takeBack fun _ => spares_answerFor outcome
  · exact Spares.bind (spares_runBack ret callerSp fuel) (fun outcome => spares_answerFor outcome) s

/-- A step along the lines that begins with an instruction, whatever follows it. -/
theorem spares_instructionThen {onward : Registers → InstructionInfo → Task σ Feedback}
    (h : ∀ regs info, Spares (onward regs info)) : Spares (instructionThen onward) := by
  refine .bind (.observe _) fun regs => .bind (spares_instructionAt regs.pc) fun info => ?_
  exact .bind spares_stepOnce fun stop => .ite (spares_stopped stop) (h regs info)

/-- Steps up to another line spare the breakpoints for any fuel. -/
theorem spares_stepFrom (start : SourceLocation) (fuel : Nat) :
    Spares (σ := σ) (stepFrom start fuel) := by
  induction fuel with
  | zero => exact .diverge
  | succ fuel ih =>
    refine spares_instructionThen fun regs info => ?_
    refine .bind spares_pc fun addr => .bind .get fun s => ?_
    split
    · exact .ite (.reading _) ih
    · refine .ite (.reading _) (.bind (spares_runToReturn _ _ _) fun outcome => ?_)
      split
      · exact .pure _
      · refine .bind spares_pc fun addr => .bind .get fun s => ?_
        split
        · exact .ite (.reading _) ih
        · exact ih

/-- One round of steps over calls spares the breakpoints if the rounds behind it do. -/
theorem spares_nextOnward (start : SourceLocation) (fuel : Nat)
    (hnext : Spares (σ := σ) (nextFrom start fuel)) : Spares (σ := σ) (nextOnward start fuel) := by
  refine .bind spares_pc fun addr => .bind .get fun s => .ite (.reading _) (.bind .get fun s => ?_)
  split
  · exact .ite hnext (.reading _)
  · exact .reading _

/-- Steps over calls up to another line spare the breakpoints for any fuel. -/
theorem spares_nextFrom (start : SourceLocation) (fuel : Nat) :
    Spares (σ := σ) (nextFrom start fuel) := by
  induction fuel with
  | zero => exact .diverge
  | succ fuel ih =>
    have honward := spares_nextOnward start fuel ih
    refine spares_instructionThen fun regs info => .bind spares_pc fun addr => .ite ?_ honward
    refine .bind (spares_runToReturn _ _ _) fun outcome => ?_
    split
    · exact .pure _
    · exact honward

/-- A command that steps by lines spares the breakpoints if its steps do. -/
theorem spares_stepLineWith {from_ : SourceLocation → Task σ Feedback}
    (h : ∀ start, Spares (from_ start)) : Spares (stepLineWith from_) := by
  refine .bind spares_ensureAlive fun _ => .bind spares_clearInternal fun _ => ?_
  refine .bind spares_pc fun addr => .bind .get fun s => ?_
  split
  · exact h _
  · exact .throw _

/-- Continuing spares the breakpoints. -/
theorem spares_continueExecution : Spares (σ := σ) continueExecution := by
  have run : Spares (σ := σ) (resumeProcess >>= stopped) :=
    .bind spares_resumeProcess spares_stopped
  refine .bind spares_ensureAlive fun _ => .bind spares_clearInternal fun _ => ?_
  refine .bind spares_pc fun addr => .bind .get fun s => .ite ?_ run
  exact .bind (spares_stepOverBreakpoint addr) fun stop => .ite (spares_stopped stop) run

/-- Stepping one instruction spares the breakpoints. -/
theorem spares_stepInstruction : Spares (σ := σ) stepInstruction :=
  .bind spares_ensureAlive fun _ => .bind spares_clearInternal fun _ =>
    .bind spares_stepOnce spares_stopped

/-- A command that neither sets nor clears breakpoints of the operator spares them, unless it starts
the process again. -/
theorem spares_handle (fuel : Nat) (c : Command) (hc : setsOrClears c = false)
    (hrestart : c ≠ .restart) : Spares (σ := σ) (handle fuel c) := by
  by_cases hshows : onlyShows c = true
  · exact .of_same fun s => handle_reads fuel c hshows s
  cases c
  case resume => exact spares_continueExecution
  case step => exact spares_stepLineWith fun start => spares_stepFrom start fuel
  case next => exact spares_stepLineWith fun start => spares_nextFrom start fuel
  case stepInstruction => exact spares_stepInstruction
  case restart => exact absurd rfl hrestart
  all_goals first | exact absurd rfl hshows | cases hc

/-! ### Setting and clearing -/

/-- A breakpoint of the operator is set behind all others and answered with its number, or nothing
changes in the table. -/
theorem setBreakpoint_cases (file : String) (line : UInt64) (s : Session σ) :
    (∃ e p, setBreakpoint file line s =
      some (.error e, { s with debuggee := ⟨p, s.breakpoints⟩ })) ∨
    ∃ b p, b.kind = .user ∧ b.Resolves s.index ∧ s.breakpoints.isArmed b.addr = false ∧
      (s.index.resolveFile? file = some file → b.file = file) ∧ b.line = line ∧
      setBreakpoint file line s =
        some (.ok (.breakpointSet (user (s.breakpoints ++ [b])).length b.addr b.file b.line),
          { s with debuggee := ⟨p, s.breakpoints ++ [b]⟩ }) := by
  unfold setBreakpoint
  rw [bind_of_ok (x := get) rfl]
  -- either nothing is set, or one breakpoint is, with the file as the index knows it
  rcases Debuggee.setUser_cases s.index file line s.debuggee with
    ⟨e, p, herror⟩ | ⟨b, p, hkind, hresolves, hfree, hfile, hline, hok⟩
  · refine .inl ⟨e, p, bind_of_error ?_⟩
    rw [onDebuggee_apply, herror]
    rfl
  · refine .inr ⟨b, p, hkind, hresolves, hfree, hfile, hline, ?_⟩
    have hset : onDebuggee (Debuggee.setUser s.index file line) s =
        some (.ok b, { s with debuggee := ⟨p, s.breakpoints ++ [b]⟩ }) := by
      rw [onDebuggee_apply, hok]
      rfl
    exact (bind_of_ok hset).trans rfl

/-- A function stands for the line of its entry. -/
theorem setFunctionBreakpoint_apply (name : String) (s : Session σ) :
    setFunctionBreakpoint name s = match s.index.functionsNamed name with
      | [] => some (.error (.unknownFunction name), s)
      | f :: _ => match s.index.functionEntry f with
        | .error e => some (.error e, s)
        | .ok location => setBreakpoint location.file location.line s := by
  unfold setFunctionBreakpoint
  rw [bind_of_ok (x := get) rfl]
  rcases s.index.functionsNamed name with _ | ⟨f, -⟩
  · rfl
  dsimp only
  rw [bind_apply]
  rcases s.index.functionEntry f with e | location
  · rfl
  · rfl

/-- The commands that set a breakpoint of the operator. -/
def setsOne : Command → Bool
  | .setBreakpoint .. | .setFunctionBreakpoint _ => true
  | _ => false

/-- Where such a command succeeds, there is one more breakpoint behind all others, and the answer
is its number. -/
theorem handle_setsOne {fuel : Nat} {c : Command} (hc : setsOne c = true) {s t : Session σ}
    {answer : Feedback} (h : handle fuel c s = some (.ok answer, t)) :
    ∃ b, b.kind = .user ∧ t.breakpoints = s.breakpoints ++ [b] ∧
      answer = .breakpointSet t.breakpoints.user.length b.addr b.file b.line := by
  -- a function comes down to the line of its entry
  have hline : ∀ file line, setBreakpoint file line s = some (.ok answer, t) →
      ∃ b, b.kind = .user ∧ t.breakpoints = s.breakpoints ++ [b] ∧
        answer = .breakpointSet t.breakpoints.user.length b.addr b.file b.line := by
    intro file line hset
    rcases setBreakpoint_cases file line s with ⟨e, p, herror⟩ | ⟨b, p, hkind, -, -, -, -, hok⟩
    · cases herror.symm.trans hset
    · cases hok.symm.trans hset
      exact ⟨b, hkind, rfl, rfl⟩
  -- no other command sets one
  cases c
  case setBreakpoint file line => exact hline file line h
  case setFunctionBreakpoint name =>
    have hset : setFunctionBreakpoint name s = some (.ok answer, t) := h
    rw [setFunctionBreakpoint_apply] at hset
    split at hset
    · cases hset
    split at hset
    · cases hset
    · exact hline _ _ hset
  all_goals cases hc

/-- A number stands for a breakpoint, whose byte is put back, or is refused. -/
theorem clearNumber_apply {s : Session σ} (hdistinct : s.breakpoints.Distinct) (number : UInt64) :
    clearBreakpoint (.number number) s = match s.breakpoints.numbered? number with
      | none => some (.error (.noSuchBreakpoint number), s)
      | some b => match Tracee.writeMemory b.addr [b.saved] s.process with
        | (.error e, p) => some (.error e, { s with debuggee := ⟨p, s.breakpoints⟩ })
        | (.ok _, p) => some (.ok (.breakpointsCleared [b]),
            { s with debuggee := ⟨p, s.breakpoints.without b.addr⟩ }) := by
  have hclear : Debuggee.clearUser number s.debuggee =
      match s.breakpoints.numbered? number with
      | none => (.error (.noSuchBreakpoint number), s.debuggee)
      | some b => Debuggee.clearAt b.addr s.debuggee := by
    simp only [Debuggee.clearUser, Action.bind_apply, Action.get_apply]
    show (match s.breakpoints.numbered? number with | none => _ | some b => _ : Action _ _) _ = _
    rcases s.breakpoints.numbered? number with _ | b <;> rfl
  unfold clearBreakpoint
  dsimp only
  rw [bind_apply, onDebuggee_apply, hclear]
  rcases hnumber : s.breakpoints.numbered? number with _ | b
  · rfl
  -- the breakpoint with the number is the one at its address
  have hfound : s.debuggee.breakpoints.locate? b.addr = some b :=
    hdistinct.locate?_of_mem (mem_of_numbered? hnumber)
  dsimp only
  rw [Debuggee.clearAt_apply, hfound]
  dsimp only
  rw [show s.debuggee.process = s.process from rfl]
  rcases Tracee.writeMemory b.addr [b.saved] s.process with ⟨_ | _, p⟩ <;> rfl

/-! ### What a command comes to -/

/-- What holds of the table of breakpoints in every session. -/
structure Tidy (index : DebugIndex) (s : Session σ) : Prop where
  /-- The lines of the program do not change. -/
  lines : s.index = index
  /-- No address has two breakpoints. -/
  distinct : s.breakpoints.Distinct
  /-- The breakpoints of the operator are where their lines stand for. -/
  resolves : ∀ b ∈ s.breakpoints.user, b.Resolves index

/-- What a command that ends with `r` in `t` has done to the breakpoints of the operator in `s`. -/
inductive Effect (s t : Session σ) : Command → Except DebugError Feedback → Prop where
  /-- They are as they were. -/
  | spared {c : Command} {r : Except DebugError Feedback} (spared : Spared s t) : Effect s t c r
  /-- One more is set, and answered with the number of them. -/
  | set {c : Command} (b : Breakpoint) (kind : b.kind = .user) (resolves : b.Resolves s.index)
      (free : s.breakpoints.isArmed b.addr = false) (index : t.index = s.index)
      (table : t.breakpoints = s.breakpoints ++ [b]) :
      Effect s t c (.ok (.breakpointSet t.breakpoints.user.length b.addr b.file b.line))
  /-- The one with a number is cleared. -/
  | cleared (number : UInt64) (b : Breakpoint)
      (numbered : s.breakpoints.numbered? number = some b) (index : t.index = s.index)
      (table : t.breakpoints = s.breakpoints.without b.addr) :
      Effect s t (.clearBreakpoint (.number number)) (.ok (.breakpointsCleared [b]))
  /-- All are cleared, or some of them before that failed. -/
  | clearedAll {r : Except DebugError Feedback} (index : t.index = s.index)
      (distinct : t.breakpoints.Distinct) (table : t.breakpoints.user.Sublist s.breakpoints.user) :
      Effect s t (.clearBreakpoint .all) r
  /-- The process was started again, and some are set again where they were. -/
  | restarted (pid : Nat) (index : t.index = s.index) (distinct : t.breakpoints.Distinct)
      (resolves : ∀ b ∈ t.breakpoints.user, b.Resolves s.index)
      (table : (t.breakpoints.user.map (·.site)).Sublist (s.breakpoints.user.map (·.site))) :
      Effect s t .restart (.ok (.restarted pid t.breakpoints.user.length))

/-- A breakpoint is set where its line stands for, with the next number, or the table stays as it
is. -/
theorem setBreakpoint_effect (file : String) (line : UInt64) (c : Command) (s : Session σ) :
    Ensures (setBreakpoint file line) s fun r t => Effect s t c r := by
  rcases setBreakpoint_cases file line s with
    ⟨e, p, herror⟩ | ⟨b, p, hkind, hresolves, hfree, -, -, hok⟩
  · exact (ensures_of_eq herror).2 (.spared ⟨rfl, fun hd => ⟨hd, rfl⟩⟩)
  · exact (ensures_of_eq hok).2 (.set b hkind hresolves hfree rfl rfl)

/-- A breakpoint at a function is one at a line, with the same effects. -/
theorem setFunctionBreakpoint_effect (name : String) (c : Command) (s : Session σ) :
    Ensures (setFunctionBreakpoint name) s fun r t => Effect s t c r := by
  intro r t h
  rw [setFunctionBreakpoint_apply] at h
  split at h
  · cases h
    exact .spared (.refl s)
  split at h
  · cases h
    exact .spared (.refl s)
  · exact setBreakpoint_effect _ _ c s r t h

/-- Clearing one breakpoint takes that one away if it succeeds; clearing all of them leaves some in
their order if it fails. -/
theorem clearBreakpoint_effect {s : Session σ} (hdistinct : s.breakpoints.Distinct)
    (target : ClearTarget) :
    Ensures (clearBreakpoint target) s fun r t => Effect s t (.clearBreakpoint target) r := by
  -- one number is looked up in the list as shown; all of them are cleared in its order
  rcases target with number | _
  · intro r t h
    rw [clearNumber_apply hdistinct] at h
    rcases hnumber : s.breakpoints.numbered? number with _ | b <;> rw [hnumber] at h
    · cases h
      exact .spared (.refl s)
    dsimp only at h
    rcases hw : Tracee.writeMemory b.addr [b.saved] s.process with ⟨e | _, p⟩ <;> rw [hw] at h
    · cases h
      exact .spared ⟨rfl, fun hd => ⟨hd, rfl⟩⟩
    · cases h
      exact .cleared number b hnumber rfl rfl
  · obtain ⟨htable, hsub⟩ := Debuggee.clearAllUser_user (d := s.debuggee) hdistinct
    have hend : ∀ r, Effect s { s with debuggee := (Debuggee.clearAllUser s.debuggee).2 }
        (.clearBreakpoint .all) r := fun _ => .clearedAll rfl htable hsub
    refine ensures_get_bind.2 (Ensures.bind (R := fun _ t => ∀ r,
      Effect s t (.clearBreakpoint .all) r) (ensures_onDebuggee.2 hend) ?_ fun e t ht => ht _)
    exact fun n t ht => ensures_pure.2 (ht _)

/-- A restart keeps those breakpoints that could be set again, in their order and at their sites, or
fails and changes no table. -/
theorem restart_effect {index : DebugIndex} {s : Session σ} (hs : s.Tidy index) :
    Ensures restart s fun r t => Effect s t .restart r := by
  intro r t h
  rw [restart_apply] at h
  rcases hfresh : Tracee.restart s.process with ⟨e | _, q⟩ <;> rw [hfresh] at h
  · cases h
    exact .spared ⟨rfl, fun hd => ⟨hd, rfl⟩⟩
  obtain ⟨kept, q', hagain, huser, hdistinct, hsites⟩ :=
    Debuggee.setAgain_fresh (fun b hb => hs.lines ▸ hs.resolves b hb) q
  dsimp only at h
  rw [hagain] at h
  let u : Session σ := { s with pendingSignal := none, debuggee := ⟨q', kept⟩ }
  have hu : u.breakpoints.user = kept := huser
  -- a breakpoint that is set again has the site of one that resolves
  have hresolves : ∀ b ∈ u.breakpoints.user, b.Resolves s.index := by
    intro b hb
    rw [hu] at hb
    obtain ⟨a, ha, hsite⟩ := List.mem_map.1 (hsites.subset (List.mem_map_of_mem hb))
    exact (hs.lines ▸ hs.resolves a ha : a.Resolves s.index).of_site hsite.symm
  have hend : Effect s u .restart
      (.ok (.restarted (Tracee.pid q') u.breakpoints.user.length)) :=
    .restarted _ rfl hdistinct hresolves (hu.symm ▸ hsites)
  rw [hu] at hend
  cases h
  exact hend

/-- Every command has one of these effects. -/
theorem handle_effect {index : DebugIndex} {s : Session σ} (hs : s.Tidy index) (fuel : Nat)
    (c : Command) : Ensures (handle fuel c) s fun r t => Effect s t c r := by
  by_cases hc : setsOrClears c = false ∧ c ≠ .restart
  · exact (spares_handle fuel c hc.1 hc.2 s).mono fun _ _ ht => .spared ht
  cases c
  case setBreakpoint file line => exact setBreakpoint_effect file line _ s
  case setFunctionBreakpoint name => exact setFunctionBreakpoint_effect name _ s
  case clearBreakpoint target => exact clearBreakpoint_effect hs.distinct target
  case restart => exact restart_effect hs
  all_goals exact absurd ⟨rfl, nofun⟩ hc

namespace Effect

variable {s t : Session σ} {c : Command} {r : Except DebugError Feedback} {index : DebugIndex}

omit [Tracee σ] in
/-- Each effect leaves a session tidy. -/
theorem tidy (h : Effect s t c r) (hs : s.Tidy index) : t.Tidy index := by
  -- what each command does to the table keeps the addresses apart
  cases h with
  | spared hspared =>
    obtain ⟨hdistinct, huser⟩ := hspared.table hs.distinct
    exact ⟨hspared.index.trans hs.lines, hdistinct, huser ▸ hs.resolves⟩
  | set b hkind hresolves hfree hindex htable =>
    refine ⟨hindex.trans hs.lines, htable ▸ hs.distinct.append hfree, fun a ha => ?_⟩
    rw [htable, user_append_user hkind] at ha
    rcases List.mem_append.1 ha with ha | ha
    · exact hs.resolves a ha
    · exact List.mem_singleton.1 ha ▸ hs.lines ▸ hresolves
  | cleared number b hnumber hindex htable =>
    refine ⟨hindex.trans hs.lines, htable ▸ hs.distinct.without, fun a ha => hs.resolves a ?_⟩
    exact (List.eraseP_sublist.filter _).subset (htable ▸ ha)
  | clearedAll hindex hdistinct hsub =>
    exact ⟨hindex.trans hs.lines, hdistinct, fun a ha => hs.resolves a (hsub.subset ha)⟩
  | restarted pid hindex hdistinct hresolves hsub =>
    exact ⟨hindex.trans hs.lines, hdistinct, hs.lines ▸ hresolves⟩

omit [Tracee σ] in
/-- New breakpoints of the operator are behind the others, and the others stay in their order. -/
theorem evolves (h : Effect s t c r) (hs : s.Tidy index) :
    (∃ b, t.breakpoints.user.map (·.site) = s.breakpoints.user.map (·.site) ++ [b]) ∨
      (t.breakpoints.user.map (·.site)).Sublist (s.breakpoints.user.map (·.site)) := by
  cases h with
  | spared hspared =>
    rw [(hspared.table hs.distinct).2]
    exact .inr (List.Sublist.refl _)
  | set b hkind _ _ _ htable =>
    refine .inl ⟨b.site, ?_⟩
    rw [htable, user_append_user hkind, List.map_append]
    rfl
  | cleared number b _ _ htable =>
    rw [htable]
    exact .inr ((List.eraseP_sublist.filter _).map _)
  | clearedAll _ _ hsub => exact .inr (hsub.map _)
  | restarted _ _ _ _ hsub => exact .inr hsub

end Effect

omit [Tracee σ] in
/-- A session starts without breakpoints. -/
theorem tidy_start (p : σ) (index : DebugIndex) (frames : Option FrameIndex) (bias : Addr)
    (files : FileSystem) : (start p index frames bias files).Tidy index where
  lines := rfl
  distinct := List.nodup_nil
  resolves := nofun

/-- A tidy session stays tidy in a run of commands. -/
theorem executeAll_tidy (commands : List (Nat × Command)) {index : DebugIndex} {s t : Session σ}
    (hs : s.Tidy index) (hrun : executeAll commands s = some t) : t.Tidy index :=
  executeAll_keeps commands
    (fun fuel c _ _ hu => (handle_effect hu fuel c).mono fun _ _ he => he.tidy hu) hrun hs

end Session

end SourceDebugger
