import SourceDebugger.Proofs.TableEffects

/-!
# Starting the process again

A restart takes the breakpoints of the operator over into the fresh process: it drops the table and
sets each of them again from the file and the line that it has on record.

* `Tracee.accepts` is what is asked of the fresh process: that it lets traps be stored at some
  addresses.
* `Debuggee.setAgain_accepted`: then every breakpoint is set where it was, and saves what the fresh
  process has there.
* `Session.restart_restores`: so after any run of commands a restart that succeeds restores all
  breakpoints of the operator, with their numbers.
-/

namespace SourceDebugger

variable {σ : Type}

/-- Whether the bytes at some addresses can be read and replaced by traps, one after the other. -/
def Tracee.accepts [Tracee σ] : List Addr → σ → Bool
  | [], _ => true
  | addr :: rest, p =>
    (Tracee.readExact p addr 1).isOk &&
      match Tracee.writeMemory addr [trapByte] p with
      | (.ok _, q) => Tracee.isAlive q && accepts rest q
      | (.error _, _) => false

theorem Tracee.accepts_cons [Tracee σ] {addr : Addr} {rest : List Addr} {p : σ}
    (h : Tracee.accepts (addr :: rest) p = true) :
    ∃ bytes q, Tracee.readExact p addr 1 = .ok bytes ∧
      Tracee.writeMemory addr [trapByte] p = (.ok (), q) ∧ Tracee.isAlive q = true ∧
      Tracee.accepts rest q = true := by
  rw [Tracee.accepts, Bool.and_eq_true] at h
  obtain ⟨hread, hwrite⟩ := h
  rcases hbytes : Tracee.readExact p addr 1 with e | bytes
  · rw [hbytes] at hread
    cases hread
  rcases hw : Tracee.writeMemory addr [trapByte] p with ⟨e | _, q⟩ <;> rw [hw] at hwrite
  · cases hwrite
  · obtain ⟨halive, hrest⟩ := Bool.and_eq_true_iff.1 hwrite
    exact ⟨bytes, q, rfl, rfl, halive, hrest⟩

namespace BreakpointTable

variable {table table' : BreakpointTable}

/-- In a table without duplicates no breakpoint is where an earlier one is. -/
theorem Distinct.free {b : Breakpoint} {rest : List Breakpoint}
    (h : Distinct (table ++ b :: rest)) : table.isArmed b.addr = false := by
  refine isArmed_eq_false_iff.2 fun c hc => ?_
  unfold Distinct at h
  rw [List.map_append, List.map_cons, List.nodup_append] at h
  exact h.2.2 c.addr (List.mem_map_of_mem hc) b.addr List.mem_cons_self

/-- Breakpoints at the same places in the same order have the same numbers. -/
theorem numbered?_site (h : table.user.map (·.site) = table'.user.map (·.site))
    (number : UInt64) :
    (table.numbered? number).map (·.site) = (table'.numbered? number).map (·.site) := by
  unfold numbered?
  split
  · rfl
  · rw [← List.getElem?_map, h, List.getElem?_map]

end BreakpointTable

namespace Debuggee

open BreakpointTable

variable [Tracee σ] {index : DebugIndex} {d : Debuggee σ}

/-- A breakpoint that resolves is set where it was, if that is possible in the process. -/
theorem setUser_accepted {b : Breakpoint} (hb : b.Resolves index)
    (hfree : d.breakpoints.isArmed b.addr = false) {bytes : List UInt8} {q : σ}
    (hread : Tracee.readExact d.process b.addr 1 = .ok bytes)
    (hwrite : Tracee.writeMemory b.addr [trapByte] d.process = (.ok (), q)) :
    let c : Breakpoint := ⟨b.addr, bytes.headD 0, b.file, b.line, .user⟩
    setUser index b.file b.line d = (.ok c, ⟨q, d.breakpoints ++ [c]⟩) := by
  intro c
  have harm : arm b.addr b.file b.line .user d = (.ok c, ⟨q, d.breakpoints ++ [c]⟩) := by
    rw [arm_apply, hfree, hread]
    simp only [Bool.false_eq_true, if_false, hwrite]
    rfl
  rcases setUser_eq index b.file b.line d with ⟨e, -, hnone⟩ |
    ⟨addr, known, hlookup, hknown, hstate, hok⟩
  · exact absurd hb.lookup (hnone b.addr)
  -- the line is found where it was found the first time, and the file by its own path
  cases hb.lookup.symm.trans hlookup
  cases hb.known.symm.trans hknown
  rw [harm] at hstate hok
  exact Prod.ext ((hok c).2 rfl) hstate

variable [LawfulTracee σ]

/-- Breakpoints at different addresses are all set again, in this order. Each of them saves the byte
of the program. -/
theorem setAgain_accepted {own : AddressSpace} {bs : List Breakpoint}
    (hresolves : ∀ b ∈ bs, b.Resolves index) (hdistinct : Distinct (d.breakpoints ++ bs))
    (haccepts : Tracee.accepts (bs.map (·.addr)) d.process = true)
    (hcoherent : Coherent d.breakpoints (Tracee.memory d.process) own) :
    ∃ kept q, setAgain index bs d = (bs.length, ⟨q, d.breakpoints ++ kept⟩) ∧
      kept.map (·.site) = bs.map (·.site) ∧ (∀ b ∈ kept, b.kind = .user) ∧
      Coherent (d.breakpoints ++ kept) (Tracee.memory q) own := by
  -- the table grows from breakpoint to breakpoint, so the debuggee stays general
  induction bs generalizing d with
  | nil =>
    refine ⟨[], d.process, ?_, rfl, nofun, ?_⟩
    · rw [List.append_nil]
      rfl
    · rwa [List.append_nil]
  | cons b rest ih =>
    obtain ⟨bytes, q, hread, hwrite, halive, hrest⟩ := Tracee.accepts_cons haccepts
    have hfree := hdistinct.free
    have hset := setUser_accepted (hresolves b List.mem_cons_self) hfree hread hwrite
    dsimp only at hset
    let c : Breakpoint := ⟨b.addr, bytes.headD 0, b.file, b.line, .user⟩
    -- the byte that is saved is still the program's, for the traps so far are elsewhere
    have hcoherent' : Coherent (d.breakpoints ++ [c]) (Tracee.memory q) own := by
      rw [LawfulTracee.memory_write hwrite halive]
      exact hcoherent.arm (b := c) hfree (Tracee.memory_of_readExact hread)
    have hdistinct' : Distinct (d.breakpoints ++ [c] ++ rest) := by
      simpa [Distinct] using hdistinct
    obtain ⟨kept, q', hagain, hsites, hkinds, hend⟩ :=
      ih (d := ⟨q, d.breakpoints ++ [c]⟩) (fun a ha => hresolves a (List.mem_cons_of_mem b ha))
        hdistinct' hrest hcoherent'
    refine ⟨c :: kept, q', ?_, congrArg (b.site :: ·) hsites, ?_, ?_⟩
    · rw [setAgain, hset]
      dsimp only
      rw [hagain, List.append_assoc]
      rfl
    · intro a ha
      rcases List.mem_cons.1 ha with rfl | ha
      · rfl
      · exact hkinds a ha
    · rwa [List.append_assoc] at hend

end Debuggee

namespace Session

open Debuggee BreakpointTable

variable [Tracee σ]

/-- What a restart into the fresh process `q` makes of the operator's breakpoints of a table. -/
structure Restored (table : BreakpointTable) (q : σ) (t : Session σ) : Prop where
  /-- They are all there again, in the same order, and no others. -/
  sites : t.breakpoints.map (·.site) = table.user.map (·.site)
  user : ∀ b ∈ t.breakpoints, b.kind = .user
  /-- Each has the number that it had. -/
  numbers : ∀ number, (t.breakpoints.numbered? number).map (·.site) =
    (table.numbered? number).map (·.site)
  /-- There is a trap at each, which saves the byte of the fresh process, and nothing else has
  changed there. -/
  coherent : Coherent t.breakpoints (Tracee.memory t.process) (Tracee.memory q)
  /-- No signal of the old process is left. -/
  pendingSignal : t.pendingSignal = none

variable [LawfulTracee σ]

/-- However a run of commands went, alive or gone, a restart that succeeds restores the breakpoints
of the operator and tells how many they are, if the fresh process lets traps be stored where they
were. The file and the line on record for each of them still stand for its address, and no two of
them for the same one. -/
theorem restart_restores (p : σ) (index : DebugIndex) (frames : Option FrameIndex) (bias : Addr)
    (files : FileSystem) (commands : List (Nat × Command)) {s : Session σ}
    (hrun : executeAll commands (Session.start p index frames bias files) = some s)
    (fuel : Nat) {q : σ} (hfresh : Tracee.restart s.process = (.ok (), q))
    (haccepts : Tracee.accepts (s.breakpoints.user.map (·.addr)) q = true) :
    s.breakpoints.user.Distinct ∧ (∀ b ∈ s.breakpoints.user, b.Resolves s.index) ∧
      ∃ t, handle fuel .restart s =
          some (.ok (.restarted (Tracee.pid t.process) s.breakpoints.user.length), t) ∧
        Restored s.breakpoints q t := by
  -- the table of a session is sound, so every address can be armed again once the image accepts it
  obtain ⟨s', hs', rfl⟩ :=
    exists_recorded (s := Session.start (.ofProcess p) index frames bias files) hrun
  have hsound := executeAll_sound commands (sound_start p index frames bias files) hs'
  obtain ⟨kept, q', hagain, hsites, hkinds, hcoherent⟩ :=
    setAgain_accepted (d := ⟨q, []⟩) hsound.resolves hsound.distinct.user haccepts (.nil _)
  -- no temporary breakpoint is among those that were set again
  have hkept : kept.user = kept := List.filter_eq_self.2 fun b hb => by simp [hkinds b hb]
  refine ⟨hsound.distinct.user, hsound.resolves,
    { s'.plain with pendingSignal := none, debuggee := ⟨q', kept⟩ }, ?_,
    hsites, hkinds, numbered?_site ?_, hcoherent, rfl⟩
  · have hrestart := restart_apply s'.plain
    rw [hfresh] at hrestart
    dsimp only at hrestart
    have hagain' : setAgain s'.plain.index s'.plain.breakpoints.user ⟨q, []⟩ =
        (s'.plain.breakpoints.user.length, ⟨q', kept⟩) := hagain
    rw [hagain'] at hrestart
    exact hrestart
  · show kept.user.map _ = _
    rw [hkept]
    exact hsites

/-- Two breakpoints, the second one set first, and a run to the end. -/
def runToEnd : List (Nat × Command) :=
  [(0, .setBreakpoint "a.c" 3), (0, .setBreakpoint "a.c" 2), (0, .resume), (0, .resume),
    (0, .resume)]

open Machine in
/-- After the program ended, a restart puts both breakpoints back in their order. -/
theorem restart_restores_ended :
    ∃ s t pid, executeAll runToEnd (beforeCall (callsUnless [])) = some s ∧
      s.process.alive = false ∧ handle 0 .restart s = some (.ok (.restarted pid 2), t) ∧
      t.breakpoints.map (·.site) = [(⟨0x1007⟩, "a.c", 3), (⟨0x1005⟩, "a.c", 2)] ∧
      ∀ b ∈ t.breakpoints, Tracee.memory t.process b.addr = some trapByte := by
  -- computed once: the process has ended, and the fresh image takes both breakpoints
  have hrun : (executeAll runToEnd (beforeCall (callsUnless []))).any (fun s =>
      !s.process.alive &&
      decide (s.breakpoints.user.map (·.site) = [(⟨0x1007⟩, "a.c", 3), (⟨0x1005⟩, "a.c", 2)]) &&
      (Tracee.restart s.process).1.isOk &&
      Tracee.accepts (s.breakpoints.user.map (·.addr)) (Tracee.restart s.process).2) = true := by
    decide +kernel
  obtain ⟨s, hs, hend⟩ := (Option.any_eq_true _ _).1 hrun
  simp only [Bool.and_eq_true, Bool.not_eq_true', decide_eq_true_eq] at hend
  obtain ⟨⟨⟨hended, hsites⟩, hok⟩, haccepts⟩ := hend
  rcases hfresh : Tracee.restart s.process with ⟨e | _, q⟩ <;> rw [hfresh] at hok haccepts
  · cases hok
  obtain ⟨-, -, t, ht, hrestored⟩ :=
    restart_restores (callsUnless []) _ none .null ⟨"/", []⟩ _ hs 0 hfresh haccepts
  have hcount : s.breakpoints.user.length = 2 := by
    rw [← List.length_map (f := (·.site)), hsites]
    rfl
  rw [hcount] at ht
  exact ⟨s, t, _, hs, hended, ht, hrestored.sites.trans hsites, hrestored.coherent.trapped⟩

end Session

end SourceDebugger
