import SourceDebugger.Proofs.Signals
import SourceDebugger.Proofs.Transients
import SourceDebugger.Proofs.Traps

/-!
# What commands leave in the table of breakpoints

The table holds the breakpoints of the operator and, for a while, one of the step engine. Here is
what each command makes of it, whether it fails or not.

* `Debuggee.Sound` is what every command keeps: no address has two breakpoints, the file and the
  line of an operator's breakpoint stand for its address, and the breakpoints of a process that
  ended are the operator's alone. `Session.executeAll_sound`: so it holds after every run.
* `Session.Leaves` is what a command leaves of the breakpoints that it found,
  `Session.handle_leaves`.
* `Session.transients_released`: so a command that lets the process go leaves no breakpoint of the
  step engine behind, unless the process refuses to be let go on the way back from a call.
-/

namespace SourceDebugger

open Recorded BreakpointTable

variable {σ : Type}

/-! ### Files and lines -/

namespace DebugIndex

variable {index : DebugIndex} {file known : String} {line : UInt64} {addr : Addr}

/-- The path under which a file is known stands for itself. -/
theorem resolveFile?_known (h : index.resolveFile? file = some known) :
    index.resolveFile? known = some known := by
  have hmem : (SortedMap.keys index.sources).contains known = true := by
    unfold resolveFile? at h
    dsimp only at h
    -- the path itself, the path seen from the working directory, or the only one with this end
    split at h
    · rename_i hknown
      cases h
      exact hknown
    split at h
    · rename_i hjoined
      cases h
      exact hjoined
    split at h
    · rename_i k hfilter
      cases h
      have hk := List.mem_filter.1 (hfilter ▸ List.mem_singleton_self known)
      exact List.contains_iff_mem.2 hk.1
    · cases h
  unfold resolveFile?
  dsimp only
  rw [if_pos hmem]

/-- A line of a file is found under the path under which the file is known. -/
theorem lookupBreakpointAddress_known (h : index.lookupBreakpointAddress file line = .ok addr) :
    ∃ known, index.resolveFile? file = some known ∧
      index.lookupBreakpointAddress known line = .ok addr := by
  rcases hfile : index.resolveFile? file with _ | known
  · have hnone : index.recordsOf file line = [] := by simp only [recordsOf, hfile]
    simp [lookupBreakpointAddress, hnone, lowestAddr?] at h
  have hsame : index.recordsOf known line = index.recordsOf file line := by
    simp only [recordsOf, hfile, resolveFile?_known hfile]
  refine ⟨known, rfl, ?_⟩
  unfold lookupBreakpointAddress at h ⊢
  dsimp only at h ⊢
  rw [hsame]
  -- the path occurs in the failures only
  split at h
  · exact h
  split at h
  · split at h
    · cases h
    · rename_i hnull
      rw [if_neg hnull]
      exact h
  · cases h

end DebugIndex

/-- A breakpoint is where its file and line stand for, and the file is known by its path. -/
structure Breakpoint.Resolves (b : Breakpoint) (index : DebugIndex) : Prop where
  lookup : index.lookupBreakpointAddress b.file b.line = .ok b.addr
  known : index.resolveFile? b.file = some b.file

/-- Where a breakpoint is, without what is in memory there. -/
def Breakpoint.site (b : Breakpoint) : Addr × String × UInt64 := (b.addr, b.file, b.line)

/-- The breakpoints of the step engine. -/
def BreakpointTable.internal (table : BreakpointTable) : BreakpointTable :=
  table.filter (·.kind = .internal)

/-- Among the breakpoints of the operator there is none of the step engine. -/
theorem BreakpointTable.internal_user (table : BreakpointTable) : table.user.internal = [] := by
  refine List.filter_eq_nil_iff.2 fun b hb => ?_
  have hkind := (List.mem_filter.1 hb).2
  simp only [decide_eq_true_eq] at hkind ⊢
  rw [hkind]
  simp

/-! ### Single operations -/

namespace Debuggee

section Operations

variable [Tracee σ]

/-- A breakpoint is put behind the table if its address was free and its byte could be read and
written, or the table stays as it is. -/
theorem arm_cases (addr : Addr) (file : String) (line : UInt64) (kind : BreakpointKind)
    (d : Debuggee σ) :
    (∃ e p, arm addr file line kind d = (.error e, ⟨p, d.breakpoints⟩)) ∨
    ∃ byte p, d.breakpoints.isArmed addr = false ∧
      arm addr file line kind d =
        (.ok ⟨addr, byte, file, line, kind⟩,
          ⟨p, d.breakpoints ++ [⟨addr, byte, file, line, kind⟩]⟩) := by
  rw [arm_apply]
  -- in the order of the program; the table grows only if the byte was read and written
  by_cases harmed : d.breakpoints.isArmed addr = true
  · rw [if_pos harmed]
    exact .inl ⟨_, d.process, rfl⟩
  rw [if_neg harmed]
  rcases Tracee.readExact d.process addr 1 with e | bytes
  · exact .inl ⟨e, d.process, rfl⟩
  dsimp only
  rcases Tracee.writeMemory addr [trapByte] d.process with ⟨e | _, p⟩
  · exact .inl ⟨e, p, rfl⟩
  · exact .inr ⟨bytes.headD 0, p, by simpa using harmed, rfl⟩

/-- A breakpoint is taken out of the table if its byte could be written, or the table stays as it
is. -/
theorem clearAt_cases (addr : Addr) (d : Debuggee σ) :
    (∃ e p, clearAt addr d = (.error e, ⟨p, d.breakpoints⟩)) ∨
    ∃ b p, clearAt addr d = (.ok b, ⟨p, d.breakpoints.without addr⟩) := by
  rw [clearAt_apply]
  rcases d.breakpoints.locate? addr with _ | b
  · exact .inl ⟨_, d.process, rfl⟩
  dsimp only
  rcases Tracee.writeMemory addr [b.saved] d.process with ⟨e | _, p⟩
  · exact .inl ⟨e, p, rfl⟩
  · exact .inr ⟨b, p, rfl⟩

/-- A breakpoint of the operator is set where its line stands for, if that can be done at all. -/
theorem setUser_eq (index : DebugIndex) (file : String) (line : UInt64) (d : Debuggee σ) :
    (∃ e, setUser index file line d = (.error e, d) ∧
      ∀ addr, index.lookupBreakpointAddress file line ≠ .ok addr) ∨
    ∃ addr known, index.lookupBreakpointAddress file line = .ok addr ∧
      index.resolveFile? file = some known ∧
      (setUser index file line d).2 = (arm addr known line .user d).2 ∧
      ∀ b, (setUser index file line d).1 = .ok b ↔ (arm addr known line .user d).1 = .ok b := by
  simp only [setUser, Action.bind_apply, Action.liftM_apply]
  rcases hlookup : index.lookupBreakpointAddress file line with e | addr
  · exact .inl ⟨e, rfl, nofun⟩
  -- a line that has an address belongs to a file that is known
  obtain ⟨known, hknown, -⟩ := DebugIndex.lookupBreakpointAddress_known hlookup
  refine .inr ⟨addr, known, rfl, hknown, ?_⟩
  simp only [hknown, Option.getD_some, Action.tryCatch_apply]
  rcases arm addr known line .user d with ⟨e | b, d'⟩
  -- a failure is only reported in other words
  · cases e <;> exact ⟨rfl, fun b => ⟨nofun, nofun⟩⟩
  · exact ⟨rfl, fun b => Iff.rfl⟩

/-- It resolves then, and is the last one in the table. -/
theorem setUser_cases (index : DebugIndex) (file : String) (line : UInt64) (d : Debuggee σ) :
    (∃ e p, setUser index file line d = (.error e, ⟨p, d.breakpoints⟩)) ∨
    ∃ b p, b.kind = .user ∧ b.Resolves index ∧ d.breakpoints.isArmed b.addr = false ∧
      (index.resolveFile? file = some file → b.file = file) ∧ b.line = line ∧
      setUser index file line d = (.ok b, ⟨p, d.breakpoints ++ [b]⟩) := by
  rcases setUser_eq index file line d with ⟨e, herror, -⟩ |
    ⟨addr, known, hlookup, hknown, hstate, hok⟩
  · exact .inl ⟨e, d.process, herror⟩
  rcases arm_cases addr known line .user d with ⟨e, p, harm⟩ | ⟨byte, p, hfree, harm⟩
  · refine .inl ?_
    rcases hset : setUser index file line d with ⟨e' | b, d'⟩
    · rw [hset, harm] at hstate
      exact ⟨e', p, congrArg _ hstate⟩
    · rw [hset, harm] at hok
      cases (hok b).1 rfl
  · refine .inr
      ⟨⟨addr, byte, known, line, .user⟩, p, rfl, ⟨?_, ?_⟩, hfree, fun hfile => ?_, rfl, ?_⟩
    -- it is looked up again under the path that is on record
    · obtain ⟨known', hknown', hlookup'⟩ := DebugIndex.lookupBreakpointAddress_known hlookup
      cases hknown.symm.trans hknown'
      exact hlookup'
    · exact DebugIndex.resolveFile?_known hknown
    · cases hknown.symm.trans hfile
      rfl
    · rw [harm] at hstate hok
      exact Prod.ext ((hok _).2 rfl) hstate

end Operations

/-! ### What every command keeps -/

/-- In between the process was neither let go nor started again. -/
structure Rests [Tracee σ] (d d' : Debuggee (Recorded σ)) : Prop where
  ended : ended d'.process.events = ended d.process.events
  alive : Tracee.isAlive d'.process = true → Tracee.isAlive d.process = true

/-- No address has two breakpoints, the file and the line of an operator's breakpoint stand for its
address, and a process that ended is gone and has breakpoints of the operator only. -/
structure Sound [Tracee σ] (index : DebugIndex) (d : Debuggee (Recorded σ)) : Prop where
  distinct : d.breakpoints.Distinct
  resolves : ∀ b ∈ d.breakpoints.user, b.Resolves index
  gone : ended d.process.events = true → Tracee.isAlive d.process = false
  finished : ended d.process.events = true → ∀ b ∈ d.breakpoints, b.kind = .user

/-- What is sound stays so, with the same breakpoints of the step engine. -/
structure KeepsEngine [Tracee σ] (index : DebugIndex) (d d' : Debuggee (Recorded σ)) : Prop where
  sound : d'.Sound index
  internal : d'.breakpoints.internal = d.breakpoints.internal

section Keeping

variable [Tracee σ] {index : DebugIndex} {d d' : Debuggee (Recorded σ)}

theorem Rests.refl (d : Debuggee (Recorded σ)) : d.Rests d := ⟨rfl, id⟩

/-- A process that is gone once it ended stays so. -/
theorem Rests.gone (h : d.Rests d')
    (hgone : Recorded.ended d.process.events = true → Tracee.isAlive d.process = false) :
    Recorded.ended d'.process.events = true → Tracee.isAlive d'.process = false := by
  intro hended
  rcases halive : Tracee.isAlive d'.process
  · rfl
  · exact absurd (hgone (h.ended ▸ hended)) (by simp [h.alive halive])

/-- Breakpoints are taken out of the table, or it stays as it is. -/
theorem Sound.sublist (h : d.Sound index) (hrests : d.Rests d')
    (hsub : d'.breakpoints.Sublist d.breakpoints) : d'.Sound index where
  distinct := h.distinct.sublist (hsub.map _)
  resolves b hb := h.resolves b ((hsub.filter _).subset hb)
  gone := hrests.gone h.gone
  finished hended b hb := h.finished (hrests.ended ▸ hended) b (hsub.subset hb)

/-- A breakpoint of the operator is set. -/
theorem Sound.append (h : d.Sound index) (hrests : d.Rests d') {b : Breakpoint}
    (hkind : b.kind = .user) (hresolves : b.Resolves index)
    (hfree : d.breakpoints.isArmed b.addr = false) (hd' : d'.breakpoints = d.breakpoints ++ [b]) :
    d'.Sound index where
  distinct := hd' ▸ h.distinct.append hfree
  resolves c hc := by
    rw [hd', BreakpointTable.user, List.filter_append] at hc
    rcases List.mem_append.1 hc with hc | hc
    · exact h.resolves c hc
    · rw [List.mem_singleton.1 (List.mem_filter.1 hc).1]
      exact hresolves
  gone := hrests.gone h.gone
  finished hended c hc := by
    rcases List.mem_append.1 (hd' ▸ hc) with hc | hc
    · exact h.finished (hrests.ended ▸ hended) c hc
    · rw [List.mem_singleton.1 hc]
      exact hkind

variable [LawfulTracee σ]

/-- Setting a breakpoint does not let the process go. -/
theorem rests_arm (addr : Addr) (file : String) (line : UInt64) (kind : BreakpointKind)
    (d : Debuggee (Recorded σ)) : d.Rests (arm addr file line kind d).2 where
  ended := by
    rw [arm_apply]
    split
    · rfl
    rcases Tracee.readExact d.process addr 1 with e | bytes
    · rfl
    rw [Recorded.writeMemory_apply]
    rcases Tracee.writeMemory addr [trapByte] d.process.process with ⟨_ | _, q⟩ <;> rfl
  alive := LawfulTracee.alive_of_arm

/-- Clearing a breakpoint does not let the process go. -/
theorem rests_clearAt (addr : Addr) (d : Debuggee (Recorded σ)) :
    d.Rests (clearAt addr d).2 where
  ended := by
    rw [clearAt_apply]
    rcases d.breakpoints.locate? addr with _ | b
    · rfl
    simp only [Recorded.writeMemory_apply]
    rcases Tracee.writeMemory addr [b.saved] d.process.process with ⟨_ | _, q⟩ <;> rfl
  alive := LawfulTracee.alive_of_clearAt

/-- Setting a breakpoint of the operator does not let the process go. -/
theorem rests_setUser (index : DebugIndex) (file : String) (line : UInt64)
    (d : Debuggee (Recorded σ)) : d.Rests (setUser index file line d).2 := by
  rcases setUser_apply index file line d with hsame | ⟨addr, stored, harm⟩
  · rw [hsame]
    exact .refl d
  · rw [harm]
    exact rests_arm addr stored line .user d

/-- To set a breakpoint of the operator leaves those of the step engine. -/
theorem Sound.setUser (h : d.Sound index) (file : String) (line : UInt64) :
    d.KeepsEngine index (setUser index file line d).2 := by
  have hrests := rests_setUser index file line d
  rcases setUser_cases index file line d with
    ⟨e, p, herror⟩ | ⟨b, p, hkind, hresolves, hfree, -, -, hok⟩
  · rw [herror] at hrests ⊢
    exact ⟨h.sublist hrests (List.Sublist.refl _), rfl⟩
  · rw [hok] at hrests ⊢
    refine ⟨h.append hrests hkind hresolves hfree rfl, ?_⟩
    rw [BreakpointTable.internal, List.filter_append,
      List.filter_cons_of_neg (by simp [hkind]), List.filter_nil, List.append_nil]
    rfl

/-- To clear one leaves those of the step engine, too. -/
theorem Sound.clearAt (h : d.Sound index) {addr : Addr}
    (hother : ∀ c ∈ d.breakpoints, c.kind = .internal → c.addr ≠ addr) :
    d.KeepsEngine index (clearAt addr d).2 := by
  have hrests := rests_clearAt addr d
  rcases clearAt_cases addr d with ⟨e, p, herror⟩ | ⟨b, p, hok⟩
  · rw [herror] at hrests ⊢
    exact ⟨h.sublist hrests (List.Sublist.refl _), rfl⟩
  · rw [hok] at hrests ⊢
    exact ⟨h.sublist hrests List.eraseP_sublist, h.distinct.filter_without hother⟩

/-- To clear a breakpoint by its number leaves those of the step engine. -/
theorem Sound.clearUser (h : d.Sound index) (number : UInt64) :
    d.KeepsEngine index (clearUser number d).2 := by
  simp only [Debuggee.clearUser, Action.bind_apply, Action.get_apply]
  rcases hnumber : d.breakpoints.numbered? number with _ | b
  · exact ⟨h, rfl⟩
  refine h.clearAt ?_
  -- a breakpoint with a number is the operator's
  have hb : b ∈ d.breakpoints.user := by
    unfold numbered? at hnumber
    split at hnumber
    · cases hnumber
    · exact List.mem_of_getElem? hnumber
  obtain ⟨hb, hkind⟩ := List.mem_filter.1 hb
  exact h.distinct.addr_ne_of_kind hb (by simp_all)

/-- To clear all breakpoints of the operator leaves those of the step engine. -/
theorem Sound.clearAllUser (h : d.Sound index) :
    d.KeepsEngine index (clearAllUser d).2 := by
  have hend : Outcome (d.KeepsEngine index) (d.KeepsEngine index) (Debuggee.clearAllUser d).1
      (Debuggee.clearAllUser d).2 := by
    refine clearKind_keeps_of_kind (fun b hb hkind d' _ hd' => outcome_same.2 ?_) h.distinct
      ⟨h, rfl⟩
    have hother : ∀ c ∈ d'.breakpoints, c.kind = .internal → c.addr ≠ b.addr := by
      intro c hc hckind
      have hc' : c ∈ d.breakpoints.internal :=
        hd'.internal ▸ List.mem_filter.2 ⟨hc, by simpa using hckind⟩
      exact h.distinct.addr_ne_of_kind hb (by simp [hkind]) c (List.mem_filter.1 hc').1 hckind
    have hclear := hd'.sound.clearAt hother
    exact ⟨hclear.sound, hclear.internal.trans hd'.internal⟩
  exact outcome_same.1 hend

end Keeping

/-- A breakpoint could not be written although one was written there before. -/
theorem Unwritten.not_rewritable [Tracee σ] {d : Debuggee (Recorded σ)} (h : d.Unwritten)
    (halive : Tracee.isAlive d.process = true)
    (hwritten : ∀ a, d.breakpoints.isArmed a = true → written d.process.events a = true) :
    ¬ Rewritable d.process.events := by
  obtain ⟨event, earlier, addr, byte, e, hevents, hdeed, hafter, harmed⟩ := h
  intro hrewritable
  have hbefore := hwritten addr harmed
  rw [hevents] at hrewritable hbefore
  simp only [written, hdeed] at hbefore
  cases hrewritable event earlier addr byte _ List.suffix_rfl hdeed hbefore (hafter ▸ halive)

/-! ### Setting breakpoints again -/

section Again

variable [Tracee σ]

/-- Sets breakpoints on the lines of some others, as far as that can be done: how many, and what
comes of it. -/
def setAgain (index : DebugIndex) : List Breakpoint → Debuggee σ → Nat × Debuggee σ
  | [], d => (0, d)
  | b :: rest, d =>
    match setUser index b.file b.line d with
    | (.ok _, d') => ((setAgain index rest d').1 + 1, (setAgain index rest d').2)
    | (.error _, d') => setAgain index rest d'

/-- What is set again are some of the breakpoints, in this order, where they were. -/
theorem setAgain_sites {index : DebugIndex} {bs : List Breakpoint}
    (h : ∀ b ∈ bs, b.Resolves index) (d : Debuggee σ) :
    ∃ kept, (setAgain index bs d).2.breakpoints = d.breakpoints ++ kept ∧
      (∀ b ∈ kept, b.kind = .user) ∧ (kept.map (·.site)).Sublist (bs.map (·.site)) := by
  induction bs generalizing d with
  | nil => exact ⟨[], (List.append_nil _).symm, by simp, List.Sublist.refl _⟩
  | cons b rest ih =>
    have hrest : ∀ c ∈ rest, c.Resolves index := fun c hc => h c (List.mem_cons_of_mem b hc)
    have hb := h b List.mem_cons_self
    rw [setAgain]
    rcases setUser_cases index b.file b.line d with
      ⟨e, p, herror⟩ | ⟨c, p, hkind, hresolves, -, hfile, hline, hok⟩
    · rw [herror]
      obtain ⟨kept, htable, hkinds, hsites⟩ := ih hrest ⟨p, d.breakpoints⟩
      exact ⟨kept, htable, hkinds, hsites.cons _⟩
    · rw [hok]
      obtain ⟨kept, htable, hkinds, hsites⟩ := ih hrest ⟨p, d.breakpoints ++ [c]⟩
      -- both stand for the same line of the same file
      have hsite : c.site = b.site := by
        have hlookup := hresolves.lookup
        rw [hfile hb.known, hline, hb.lookup] at hlookup
        have haddr : c.addr = b.addr := (Except.ok.inj hlookup).symm
        rw [Breakpoint.site, haddr, hfile hb.known, hline, Breakpoint.site]
      refine ⟨c :: kept, ?_, ?_, ?_⟩
      · rw [htable]
        exact List.append_assoc _ [c] kept
      · intro a ha
        rcases List.mem_cons.1 ha with rfl | ha
        · exact hkind
        · exact hkinds a ha
      · rw [List.map_cons, List.map_cons, hsite]
        exact hsites.cons_cons _

/-- Breakpoints that are set again, as far as they can be, leave the table sound. -/
theorem Sound.setAgain [LawfulTracee σ] {index : DebugIndex} (bs : List Breakpoint)
    {d : Debuggee (Recorded σ)} (h : d.Sound index) : (setAgain index bs d).2.Sound index := by
  induction bs generalizing d with
  | nil => exact h
  | cons b rest ih =>
    have hset := (h.setUser b.file b.line).sound
    rw [Debuggee.setAgain]
    rcases hrun : Debuggee.setUser index b.file b.line d with ⟨e | c, d'⟩ <;> rw [hrun] at hset
    · exact ih hset
    · exact ih hset

end Again

end Debuggee

namespace Session

open Debuggee

section Restart

variable [Tracee σ]

/-- The loop of a restart sets the breakpoints again one by one. -/
theorem foldlM_setAgain (index : DebugIndex) (bs : List Breakpoint) (n : Nat) (s : Session σ) :
    (bs.foldlM (fun n b => tryCatch (do
      let _ ← onDebuggee (Debuggee.setUser index b.file b.line)
      return n + 1) fun _ => return n) n : Task σ Nat) s =
      some (.ok (n + (setAgain index bs s.debuggee).1),
        { s with debuggee := (setAgain index bs s.debuggee).2 }) := by
  induction bs generalizing n s with
  | nil => rfl
  | cons b rest ih =>
    rw [List.foldlM_cons, bind_apply, tryCatch_apply, bind_apply, onDebuggee_apply, setAgain]
    rcases Debuggee.setUser index b.file b.line s.debuggee with ⟨e | c, d⟩
    · exact ih n { s with debuggee := d }
    · have hrest := ih (n + 1) { s with debuggee := d }
      refine hrest.trans ?_
      simp only [Nat.add_assoc, Nat.add_comm 1]

/-- What a restart comes to: it fails and leaves the table as it is, or the breakpoints of the
operator are set again in a fresh process. -/
theorem restart_apply (s : Session σ) :
    restart s = match Tracee.restart s.process with
      | (.error e, q) => some (.error e, { s with debuggee := ⟨q, s.breakpoints⟩ })
      | (.ok _, q) =>
        let again := setAgain s.index s.breakpoints.user ⟨q, []⟩
        some (.ok (.restarted (Tracee.pid again.2.process) again.1),
          { s with pendingSignal := none, debuggee := again.2 }) := by
  unfold restart
  rw [bind_apply, onProcess, onDebuggee_apply, Debuggee.onProcess_apply]
  rw [show s.debuggee.process = s.process from rfl]
  rcases Tracee.restart s.process with ⟨e | _, q⟩
  · rfl
  -- the loop starts from a fresh process without breakpoints
  have hloop := foldlM_setAgain s.index s.breakpoints.user 0
    { s with pendingSignal := none, debuggee := ⟨q, []⟩ }
  rw [Nat.zero_add] at hloop
  exact (bind_of_ok hloop).trans rfl

end Restart

/-! ### Commands -/

/-- The commands that let the process go. -/
def letsGo : Command → Bool
  | .resume | .step | .next | .stepInstruction => true
  | _ => false

/-- The commands that set or clear breakpoints of the operator. -/
def setsOrClears : Command → Bool
  | .setBreakpoint .. | .setFunctionBreakpoint _ | .clearBreakpoint _ => true
  | _ => false

/-- What a command that ends with `r` leaves in `t` of the breakpoints that it finds in `s`. -/
structure Leaves [Tracee σ] (c : Command) (s : Session (Recorded σ))
    (r : Except DebugError Feedback) (t : Session (Recorded σ)) : Prop where
  /-- One that only shows something changes nothing. -/
  shown : onlyShows c = true → t = s
  /-- One that sets or clears breakpoints of the operator leaves those of the step engine. -/
  engine : setsOrClears c = true → t.breakpoints.internal = s.breakpoints.internal
  /-- A restart fails, or it drops those of the step engine and sets those of the operator again
  where they were, unless one of them cannot be set. -/
  restarted : c = .restart → (∃ e, r = .error e ∧ t.breakpoints = s.breakpoints) ∨
    t.breakpoints.internal = [] ∧
      (t.breakpoints.user.map (·.site)).Sublist (s.breakpoints.user.map (·.site))
  /-- One that lets the process go ends as `Settled` says. -/
  settled : letsGo c = true → Settled (c = .step ∨ c = .next) s r t

section Commands

variable [Tracee σ] {s t : Session (Recorded σ)} {r : Except DebugError Feedback}

/-- A command that cannot be interrupted settles in particular as one that can. -/
theorem Settled.mono {interruptible interruptible' : Prop} (h : Settled interruptible s r t)
    (himp : interruptible → interruptible') : Settled interruptible' s r t := by
  refine h.imp_right fun hend => ⟨?_, hend.2⟩
  rcases r with e | _
  · rcases hend.1 with htabled | hstuck | ⟨hp, hinterrupted⟩
    · exact .inl htabled
    · exact .inr (.inl hstuck)
    · exact .inr (.inr ⟨himp hp, hinterrupted⟩)
  · exact hend.1

/-- However such a command ends, the breakpoints of the operator are as before. -/
theorem Settled.user {interruptible : Prop} (h : Settled interruptible s r t) :
    t.breakpoints.user = s.breakpoints.user := by
  have tabled : t.debuggee.Tabled s.breakpoints.user → t.breakpoints.user = s.breakpoints.user :=
    fun htabled => (congrArg BreakpointTable.user htabled.breakpoints).trans (user_user _)
  rcases h with ⟨-, rfl, -⟩ | ⟨hend, -⟩
  · rfl
  rcases r with e | _
  · rcases hend with htabled | hstuck | ⟨-, ⟨⟨b, hkind, hleft⟩, -, -, -⟩⟩
    · exact tabled htabled
    · exact hstuck.user
    · show t.debuggee.breakpoints.user = _
      rw [hleft, user_append_internal hkind, user_user]
  · exact tabled hend.tabled

/-- An end of the process that is answered has happened. -/
theorem Settled.reported {interruptible : Prop} {f : Feedback}
    (h : Settled interruptible s (.ok f) t) (hf : f.reportsEnd = true) :
    ended t.process.events = true := by
  rcases h with ⟨hgone, -⟩ | ⟨hend, -⟩
  · cases hgone
  · exact hend.reported hf

/-- However such a command ends, the index is as before. -/
theorem Settled.index {interruptible : Prop} (h : Settled interruptible s r t) :
    t.index = s.index := by
  rcases h with ⟨-, rfl, -⟩ | ⟨-, hindex⟩
  · rfl
  · exact hindex

/-- However such a command ends, the table is sound. -/
theorem Settled.sound {interruptible : Prop} (h : Settled interruptible s r t)
    (hs : s.debuggee.Sound s.index) : t.debuggee.Sound s.index := by
  have huser := h.user
  have resolves : ∀ b ∈ t.debuggee.breakpoints.user, b.Resolves s.index :=
    fun b hb => hs.resolves b (huser ▸ hb)
  have tabled : t.debuggee.Tabled s.breakpoints.user → t.debuggee.Sound s.index := by
    intro htabled
    refine ⟨htabled.breakpoints ▸ hs.distinct.user, resolves, htabled.gone, fun _ b hb => ?_⟩
    rw [htabled.breakpoints] at hb
    simpa using (List.mem_filter.1 hb).2
  -- a command that leaves a breakpoint of the step engine has not seen the end of the process
  have going : t.debuggee.breakpoints.Distinct → ended t.debuggee.process.events = false →
      t.debuggee.Sound s.index := by
    intro hdistinct hgoing
    refine ⟨hdistinct, resolves, ?_, ?_⟩
    · rw [hgoing]
      nofun
    · rw [hgoing]
      nofun
  rcases h with ⟨-, rfl, -⟩ | ⟨hend, -⟩
  · exact hs
  rcases r with e | _
  · rcases hend with htabled | hstuck | ⟨-, hinterrupted⟩
    · exact tabled htabled
    · exact going hstuck.distinct hstuck.going
    · exact going hinterrupted.distinct hinterrupted.going
  · exact tabled hend.tabled

variable [LawfulTracee σ]

/-- A breakpoint that is set at a line leaves those of the step engine. -/
theorem setBreakpoint_keepsEngine (hs : s.debuggee.Sound s.index) (file : String)
    (line : UInt64) :
    Ensures (setBreakpoint file line) s fun _ => On s.index (s.debuggee.KeepsEngine s.index) := by
  refine ensures_get_bind.2 ?_
  refine Ensures.bind_keeps (ensures_onDebuggee.2 ⟨hs.setUser file line, rfl⟩) fun b t ht => ?_
  exact ensures_get_bind.2 (ensures_pure.2 ht)

/-- A breakpoint that is set at a function leaves those of the step engine. -/
theorem setFunctionBreakpoint_keepsEngine (hs : s.debuggee.Sound s.index) (name : String) :
    Ensures (setFunctionBreakpoint name) s fun _ =>
      On s.index (s.debuggee.KeepsEngine s.index) := by
  have hsame : s.On s.index (s.debuggee.KeepsEngine s.index) := ⟨⟨hs, rfl⟩, rfl⟩
  refine ensures_get_bind.2 ?_
  dsimp only
  split
  · exact ensures_throw.2 hsame
  · refine ensures_lift_bind.2 ?_
    split
    · exact setBreakpoint_keepsEngine hs _ _
    · exact hsame

/-- Clearing breakpoints of the operator leaves those of the step engine. -/
theorem clearBreakpoint_keepsEngine (hs : s.debuggee.Sound s.index) (target : ClearTarget) :
    Ensures (clearBreakpoint target) s fun _ =>
      On s.index (s.debuggee.KeepsEngine s.index) := by
  rcases target with number | _
  · refine Ensures.bind_keeps (ensures_onDebuggee.2 ⟨hs.clearUser number, rfl⟩) fun b t ht => ?_
    exact ensures_pure.2 ht
  · refine ensures_get_bind.2 ?_
    refine Ensures.bind_keeps (ensures_onDebuggee.2 ⟨hs.clearAllUser, rfl⟩) fun n t ht => ?_
    exact ensures_pure.2 ht

/-- A restart fails and leaves the table, or it starts from an empty table and sets the breakpoints
of the operator again. -/
theorem restart_leaves (hs : s.debuggee.Sound s.index) :
    Ensures restart s fun r t => t.On s.index (Sound s.index) ∧ Leaves .restart s r t := by
  intro r t hrestart
  rw [restart_apply, Recorded.restart_apply] at hrestart
  rcases hfresh : Tracee.restart s.process.process with ⟨e | _, q⟩ <;> rw [hfresh] at hrestart
  · -- the process is the old one, or gone
    cases hrestart
    refine ⟨⟨hs.sublist ⟨rfl, fun halive => ?_⟩ (List.Sublist.refl _), rfl⟩, nofun, nofun,
      fun _ => .inl ⟨e, rfl, rfl⟩, nofun⟩
    exact (LawfulTracee.restart_error (σ := σ) hfresh halive).1
  · cases hrestart
    let fresh : Debuggee (Recorded σ) := ⟨s.process.next (.restart (.ok ())) q, []⟩
    have hfresh : fresh.Sound s.index := ⟨List.nodup_nil, nofun, nofun, nofun⟩
    refine ⟨⟨Sound.setAgain s.breakpoints.user hfresh, rfl⟩, nofun, nofun,
      fun _ => .inr ?_, nofun⟩
    -- the breakpoints are set again one after the other; some may fail, and none is internal
    obtain ⟨kept, htable, hkinds, hsites⟩ := setAgain_sites hs.resolves fresh
    have hkept : kept.user = kept := List.filter_eq_self.2 fun b hb => by simp [hkinds b hb]
    have htable' : (setAgain s.index s.breakpoints.user fresh).2.breakpoints = kept := htable
    constructor
    · show (setAgain s.index s.breakpoints.user fresh).2.breakpoints.internal = []
      rw [htable', ← hkept]
      exact internal_user kept
    · show ((setAgain s.index s.breakpoints.user fresh).2.breakpoints.user.map _).Sublist _
      rw [htable', hkept]
      exact hsites

/-- Every command keeps what is sound, and leaves of the breakpoints what `Leaves` says. -/
theorem handle_leaves (hs : s.debuggee.Sound s.index) (fuel : Nat) (c : Command) :
    Ensures (handle fuel c) s fun r t => t.On s.index (Sound s.index) ∧ Leaves c s r t := by
  have hready : s.Ready := ⟨hs.distinct, hs.gone⟩
  -- what lets the process go, and what only sets or clears, each has one argument for all its
  -- commands
  have goes : ∀ {x : Task (Recorded σ) Feedback} {interruptible : Prop},
      Ensures x s (Settled interruptible s) → onlyShows c = false → setsOrClears c = false →
      c ≠ .restart → (interruptible → c = .step ∨ c = .next) →
      Ensures x s fun r t => t.On s.index (Sound s.index) ∧ Leaves c s r t := by
    intro x interruptible hx hshows hsets hrestart himp
    refine hx.mono fun r t ht => ⟨⟨ht.sound hs, ht.index⟩, ?_⟩
    exact ⟨by simp [hshows], by simp [hsets], fun h => absurd h hrestart, fun _ => ht.mono himp⟩
  have sets : ∀ {x : Task (Recorded σ) Feedback},
      Ensures x s (fun _ => On s.index (s.debuggee.KeepsEngine s.index)) →
      onlyShows c = false → letsGo c = false → c ≠ .restart →
      Ensures x s fun r t => t.On s.index (Sound s.index) ∧ Leaves c s r t := by
    intro x hx hshows hgoes hrestart
    refine hx.mono fun r t ht => ⟨⟨ht.1.sound, ht.2⟩, ?_⟩
    exact ⟨by simp [hshows], fun _ => ht.1.internal, fun h => absurd h hrestart, by simp [hgoes]⟩
  cases c
  case setBreakpoint file line => exact sets (setBreakpoint_keepsEngine hs file line) rfl rfl nofun
  case setFunctionBreakpoint name =>
    exact sets (setFunctionBreakpoint_keepsEngine hs name) rfl rfl nofun
  case clearBreakpoint target => exact sets (clearBreakpoint_keepsEngine hs target) rfl rfl nofun
  case resume => exact goes (continueExecution_settled hready) rfl rfl nofun False.elim
  case step => exact goes (stepLine_settled hready fuel) rfl rfl nofun fun _ => .inl rfl
  case next => exact goes (nextLine_settled hready fuel) rfl rfl nofun fun _ => .inr rfl
  case stepInstruction => exact goes (stepInstruction_settled hready) rfl rfl nofun False.elim
  case restart => exact restart_leaves hs
  -- the commands that are left only show something
  all_goals
    refine (handle_reads fuel _ rfl s).mono fun r t ht => ?_
    subst ht
    exact ⟨⟨hs, rfl⟩, fun _ => rfl, nofun, nofun, nofun⟩

/-- It holds after every run of commands. -/
theorem executeAll_sound (commands : List (Nat × Command)) (hs : s.debuggee.Sound s.index)
    (h : executeAll commands s = some t) : t.debuggee.Sound t.index := by
  refine executeAll_keeps (K := fun u => u.debuggee.Sound u.index) commands
    (fun fuel c _ u hu => ?_) h hs
  refine (handle_leaves hu fuel c).mono fun r v hv => ?_
  obtain ⟨⟨hsound, hindex⟩, -⟩ := hv
  rw [hindex]
  exact hsound

/-! ### Runs -/

omit [LawfulTracee σ] in
/-- A session begins without breakpoints. -/
theorem sound_start (p : σ) (index : DebugIndex) (frames : Option FrameIndex) (bias : Addr)
    (files : FileSystem) :
    (start (Recorded.ofProcess p) index frames bias files).debuggee.Sound index :=
  ⟨List.nodup_nil, nofun, nofun, nofun⟩

omit [LawfulTracee σ] in
/-- One more command at the end of a run. -/
theorem executeAll_concat {commands : List (Nat × Command)} {fuel : Nat} {c : Command}
    {u : Session (Recorded σ)} (h : executeAll commands s = some u)
    (hend : handle fuel c u = some (r, t)) :
    executeAll (commands ++ [(fuel, c)]) s = some t := by
  rw [executeAll_append, h]
  simp only [Option.bind_some, executeAll, hend]

omit [LawfulTracee σ] in
/-- A command that ends has a record. -/
theorem exists_recorded_handle {fuel : Nat} {c : Command} {u : Session σ}
    (h : handle fuel c s.plain = some (r, u)) :
    ∃ t, handle fuel c s = some (r, t) ∧ t.plain = u := by
  have hmirrors := mirrors_handle s fuel c
  unfold Mirrors at hmirrors
  rw [h] at hmirrors
  obtain ⟨⟨r', t⟩, ht, hend⟩ := Option.map_eq_some_iff.1 hmirrors
  cases hend
  exact ⟨t, ht, rfl⟩

/-- Breakpoints that are in memory were written, so that they can be written again. -/
theorem accounted_executeAll (commands : List (Nat × Command)) (hs : signalInvariant.holds s)
    (h : executeAll commands s = some t) : signalInvariant.holds t := by
  refine executeAll_keeps commands (fun fuel c _ u hu => ?_) h hs
  by_cases hc : c = .restart
  · rw [hc]
    exact signals_restart u hu
  · exact signalInvariant_maintained.handle fuel c hc u hu

/-- What is held in memory for the breakpoints is kept by a run of commands. -/
theorem held_executeAll {memory : AddressSpace} (commands : List (Nat × Command))
    (hs : Held memory s.debuggee) (h : executeAll commands s = some t) :
    Held memory t.debuggee := by
  refine executeAll_keeps (K := fun u => Held memory u.debuggee) commands
    (fun fuel c _ u hu => ?_) h hs
  by_cases hc : c = .restart
  · rw [hc]
    exact held_restart _ u hu
  · exact (heldInvariant_maintained _).handle fuel c hc u hu

/-- What is left of the breakpoints of the step engine when a command ended that let the process
go: none, unless the way back from a call was interrupted by a failure of the process. -/
def Released (c : Command) (s : Session σ) (r : Except DebugError Feedback)
    (t : Session (Recorded σ)) : Prop :=
  t.breakpoints = s.breakpoints.user ∨
    (c = .step ∨ c = .next) ∧ ∃ e b, r = .error e ∧ Refused e t.process ∧ b.kind = .internal ∧
      t.breakpoints = s.breakpoints.user ++ [b]

/-- However a run of commands went and however the next command ends, with an answer or with a
failure, that command leaves of the breakpoints what `Leaves` says. If it let the process go, the
operator's breakpoints are those from before. As long as the process is alive and breakpoints can be
written where they were written before, there are no others, unless the process refused to be let
go, or to show or replace its registers, on the way back from a call. What is in memory is what the
program has there, apart from a trap for each breakpoint of the table. -/
theorem transients_released (p : σ) (index : DebugIndex) (frames : Option FrameIndex) (bias : Addr)
    (files : FileSystem) (commands : List (Nat × Command)) (fuel : Nat) (c : Command)
    {s t : Session σ} {r : Except DebugError Feedback}
    (hrun : executeAll commands (Session.start p index frames bias files) = some s)
    (hend : handle fuel c s = some (r, t)) :
    ∃ s' t' : Session (Recorded σ),
      executeAll commands (Session.start (.ofProcess p) index frames bias files) = some s' ∧
      s'.plain = s ∧ handle fuel c s' = some (r, t') ∧ t'.plain = t ∧
      Leaves c s' r t' ∧
      (letsGo c = true → t.breakpoints.user = s.breakpoints.user ∧
        (Tracee.isAlive t.process = true → Rewritable t'.process.events → Released c s r t')) ∧
      (Tracee.isAlive t.process = true → Obedient t'.process.events →
        Coherent t.breakpoints (Tracee.memory t.process)
          (ownMemory (Tracee.memory p) t'.process.events)) := by
  obtain ⟨s', hs', rfl⟩ :=
    exists_recorded (s := Session.start (.ofProcess p) index frames bias files) hrun
  obtain ⟨t', ht', rfl⟩ := exists_recorded_handle hend
  have hall := executeAll_concat hs' ht'
  have hsound := executeAll_sound commands (sound_start p index frames bias files) hs'
  have hleaves := (handle_leaves hsound fuel c r t' ht').2
  refine ⟨s', t', hs', rfl, ht', rfl, hleaves, fun hgoes => ?_, fun halive hobedient => ?_⟩
  · have hsettled := hleaves.settled hgoes
    refine ⟨hsettled.user, fun halive hrewritable => ?_⟩
    have haccounted : signalInvariant.holds t' := by
      refine accounted_executeAll _ (fun _ => ?_) hall
      exact ⟨List.Sublist.refl [], List.nodup_nil, nofun, fun _ => ⟨rfl, List.Perm.refl []⟩⟩
    rcases hsettled with ⟨-, rfl, hgone⟩ | ⟨hends, -⟩
    · exact absurd (hgone.symm.trans halive) (by simp)
    rcases r with e | f
    · rcases hends with htabled | hstuck | ⟨hc, hinterrupted⟩
      · exact .inl htabled.breakpoints
      -- a breakpoint that could not be written was written before
      · exact absurd hrewritable
          (hstuck.unwritten.not_rewritable halive (haccounted halive).written)
      · obtain ⟨⟨b, hkind, hleft⟩, -, -, hrefused⟩ := hinterrupted
        exact .inr ⟨hc, e, b, rfl, hrefused, hkind, hleft⟩
    · exact .inl hends.tabled.breakpoints
  · refine (held_executeAll _ (fun _ _ => ?_) hall hobedient halive).coherent
    exact ⟨Coherent.nil _, fun _ => rfl⟩

end Commands

end Session

namespace Machine

/-- A program that calls a function, while something else may happen at set times. -/
def callsUnless (events : List (Nat × MachineEvent)) : Machine :=
  let code := [0xe8, 2, 0, 0, 0, 0x90, 0xf4, 0x90, 0x90, 0xc3]
  .ofImage ⟨[⟨⟨0x1000⟩, code, false⟩, ⟨⟨0x2000⟩, List.replicate 16 0, false⟩],
    (Registers.zero.setPc ⟨0x1000⟩).set .rsp 0x2010, 0, [], [], events, false⟩ []

/-- Where no write failed, every byte can be written again. -/
theorem rewritable_of_all {events : List (Event σ)} [Tracee σ]
    (h : events.all (!·.deed.fails) = true) : Rewritable events := by
  intro e earlier a x r hsuffix hdeed _ _
  have he := List.all_eq_true.1 h e (hsuffix.subset List.mem_cons_self)
  rw [hdeed] at he
  rcases r with e | _
  · cases he
  · rfl

end Machine

namespace Session

/-- A session in which the program stands before the call. -/
def beforeCall (process : σ) [Tracee σ] : Session σ :=
  start process (.ofEntries "/" linedCall) none .null ⟨"/", []⟩

open Machine in
/-- When the call is stepped over, the trap behind it is gone also if the function stops at a
breakpoint of the operator. -/
theorem transients_released_call :
    ∃ s t r, executeAll [(0, .setBreakpoint "a.c" 3)] (beforeCall (callsUnless [])) = some s ∧
      handle 20 .next s = some (r, t) ∧ t.breakpoints = s.breakpoints.user ∧
      t.breakpoints.map (·.addr) = [⟨0x1007⟩] := by
  have hrun : ((executeAll [(0, .setBreakpoint "a.c" 3)] (beforeCall (callsUnless []))).bind
      (handle 20 .next)).any (fun end_ =>
        decide (end_.2.breakpoints.map (·.addr) = [⟨0x1007⟩]) && end_.1.isOk &&
        end_.2.process.alive) = true := by
    decide +kernel
  -- the record of the run shows that no write failed
  have hrecord : ((executeAll [(0, .setBreakpoint "a.c" 3)]
      (beforeCall (Recorded.ofProcess (callsUnless [])))).bind (handle 20 .next)).all
        (·.2.process.events.all (!·.deed.fails)) = true := by
    decide +kernel
  obtain ⟨⟨r, t⟩, hrun, hend⟩ := (Option.any_eq_true _ _).1 hrun
  obtain ⟨s, hs, ht⟩ := Option.bind_eq_some_iff.1 hrun
  obtain ⟨hend, halive⟩ := Bool.and_eq_true_iff.1 hend
  obtain ⟨haddrs, hok⟩ := Bool.and_eq_true_iff.1 hend
  obtain ⟨s', t', hs', -, ht', rfl, -, hreleased, -⟩ :=
    transients_released (callsUnless []) _ none .null ⟨"/", []⟩ _ 20 .next hs ht
  have hevents : (some (r, t')).all (·.2.process.events.all (!·.deed.fails)) = true := by
    rw [← ht', ← Option.bind_some (f := handle 20 Command.next), ← hs']
    exact hrecord
  -- only a failure on the way leaves the temporary breakpoint
  rcases (hreleased rfl).2 halive (rewritable_of_all hevents) with hclean | ⟨-, e, b, rfl, -⟩
  · exact ⟨s, t'.plain, r, hs, ht, hclean, of_decide_eq_true haddrs⟩
  · cases hok

open Machine in
/-- When the process refuses to go on in the function, the trap behind the call stays in memory,
though the process is alive and its memory can be written. -/
theorem transient_left :
    ∃ e s, handle 20 .next (beforeCall (Recorded.ofProcess (callsUnless [(2, .refused)]))) =
        some (.error e, s) ∧
      Tracee.isAlive s.process = true ∧ Rewritable s.process.events ∧
      s.breakpoints.internal.map (·.addr) = [⟨0x1005⟩] ∧
      Tracee.readMemory s.process ⟨0x1005⟩ 1 = .ok [trapByte] := by
  have hrun : (handle 20 .next
      (beforeCall (Recorded.ofProcess (callsUnless [(2, .refused)])))).any (fun end_ =>
        decide (end_.2.breakpoints.internal.map (·.addr) = [⟨0x1005⟩]) && !end_.1.isOk &&
        end_.2.process.process.alive && end_.2.process.events.all (!·.deed.fails) &&
        decide (end_.2.process.process.read ⟨0x1005⟩ 1 = .ok [trapByte])) = true := by
    decide +kernel
  -- computed once: the breakpoint is in the table and its byte is in the memory
  obtain ⟨⟨r, t⟩, h, hend⟩ := (Option.any_eq_true _ _).1 hrun
  simp only [Bool.and_eq_true, decide_eq_true_eq] at hend
  obtain ⟨⟨⟨⟨hleft, hfailed⟩, halive⟩, hevents⟩, hmemory⟩ := hend
  rcases r with e | _
  · exact ⟨e, t, h, halive, rewritable_of_all hevents, hleft, (if_pos halive).trans hmemory⟩
  · cases hfailed

end Session

end SourceDebugger
