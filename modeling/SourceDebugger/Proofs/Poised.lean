import SourceDebugger.Proofs.Debuggee
import SourceDebugger.Proofs.Host

/-!
# Processes between two accesses

`Poised` says of a process with breakpoints where it is in its program: its state is a program state
with the traps of the table in memory, and the traps can be lifted and put back. Each access of the
debugger leads from such a state to another. A single step, with a breakpoint under the instruction
or without one, is a step of the program: `Poised.step` and `Poised.stepOver`.
-/

namespace SourceDebugger

variable {σ κ : Type} [Tracee σ]

/-- A process with breakpoints in its memory is in a state of its program. -/
structure Poised (rest : σ → κ) (d : Debuggee σ) (u : ProgramState κ) : Prop where
  /-- The state of the process is that of the program, but for the traps. -/
  stands : ∃ x, Shows rest d.process x ∧ Patched d.breakpoints x u
  /-- Traps can be lifted and put back. -/
  writable : ∀ a, d.breakpoints.isArmed a = true → Tracee.Writable d.process a

/-- A process is in a state of its program, or it is gone if there is none. -/
def PoisedOrGone (rest : σ → κ) : Option (ProgramState κ) → Debuggee σ → Prop
  | some u, d => Poised rest d u
  | none, d => Tracee.isAlive d.process = false

namespace Poised

open BreakpointTable

variable {cpu : Cpu κ} {rest : σ → κ} {d : Debuggee σ} {u : ProgramState κ} {q : σ}

theorem alive (h : Poised rest d u) : Tracee.isAlive d.process = true := by
  obtain ⟨x, hx, -⟩ := h.stands
  exact hx.alive

/-- The program counter of the process is that of the program. -/
theorem pc (h : Poised rest d u) : Tracee.pc d.process = .ok u.pc := by
  obtain ⟨x, hx, hpatched⟩ := h.stands
  rw [hx.pc, hpatched.pc_eq]

theorem distinct (h : Poised rest d u) : d.breakpoints.Distinct := by
  obtain ⟨x, -, hpatched⟩ := h.stands
  exact hpatched.coherent.distinct

/-- The byte that a breakpoint saves is that of the program. -/
theorem saved (h : Poised rest d u) {addr : Addr} {b : Breakpoint}
    (hb : d.breakpoints.locate? addr = some b) : u.memory addr = some b.saved := by
  obtain ⟨x, -, hpatched⟩ := h.stands
  exact hpatched.coherent.saved_of_locate? hb

/-- What the process executes next is what the program executes, as far as the breakpoints are
concerned. -/
theorem undisturbed (h : Poised rest d u) (hfree : d.breakpoints.isArmed u.pc = false)
    (hclear : ∀ x, Shows rest d.process x → ∀ a, d.breakpoints.isArmed a = true →
      ¬ cpu.Disturbs x a) {a : Addr}
    (ha : ∀ x, Shows rest d.process x → x.pc = u.pc → ¬ cpu.Disturbs x a) :
    ¬ cpu.Disturbs u a := by
  obtain ⟨x, hx, hpatched⟩ := h.stands
  exact hpatched.undisturbed hfree (hclear x hx) (ha x hx hpatched.pc_eq)

section Writing

variable (host : Writes rest) [LawfulTracee σ]
include host

theorem write_error (h : Poised rest d u) {addr : Addr} {byte : UInt8} {e : DebugError}
    (hw : Tracee.writeMemory addr [byte] d.process = (.error e, q))
    (halive : Tracee.isAlive q = true) : Poised rest { d with process := q } u := by
  obtain ⟨x, hx, hpatched⟩ := h.stands
  refine ⟨⟨x, host.shows_write_error hx hw halive, hpatched⟩, fun a ha => ?_⟩
  exact host.writable_write hw halive (h.writable a ha)

/-- A breakpoint is set where there was none. -/
theorem arm (h : Poised rest d u) (b : Breakpoint) (hfree : d.breakpoints.isArmed b.addr = false)
    (hsaved : Tracee.memory d.process b.addr = some b.saved)
    (hw : Tracee.writeMemory b.addr [trapByte] d.process = (.ok (), q)) :
    Poised rest ⟨q, d.breakpoints ++ [b]⟩ u := by
  obtain ⟨x, hx, hpatched⟩ := h.stands
  refine ⟨⟨_, host.shows_write hx hw, hpatched.registers, hpatched.rest, ?_⟩, fun a ha => ?_⟩
  · exact hpatched.coherent.arm hfree (hx.memory ▸ hsaved)
  -- the new trap was written just now, and the others could be written before
  · simp only [isArmed_append, Bool.or_eq_true, decide_eq_true_eq] at ha
    rcases ha with ha | rfl
    · exact host.writable_write hw (host.alive_write hw) (h.writable a ha)
    · exact host.writable_of_write hw

/-- A breakpoint is cleared, or lifted for a while. -/
theorem clear (h : Poised rest d u) {addr : Addr} {b : Breakpoint}
    (hb : d.breakpoints.locate? addr = some b)
    (hw : Tracee.writeMemory addr [b.saved] d.process = (.ok (), q)) :
    Poised rest ⟨q, d.breakpoints.without addr⟩ u := by
  obtain ⟨x, hx, hpatched⟩ := h.stands
  refine ⟨⟨_, host.shows_write hx hw, hpatched.registers, hpatched.rest, ?_⟩, fun a ha => ?_⟩
  · exact hpatched.coherent.clear hb
  · rw [h.distinct.isArmed_without, Bool.and_eq_true] at ha
    exact host.writable_write hw (host.alive_write hw) (h.writable a ha.1)

/-- A breakpoint that was lifted is put back. -/
theorem rearm {table : BreakpointTable} {p : σ} {addr : Addr} {b : Breakpoint}
    (h : Poised rest ⟨p, table.without addr⟩ u) (hdistinct : table.Distinct)
    (hb : table.locate? addr = some b) (hown : u.memory addr = some b.saved)
    (hw : Tracee.writeMemory addr [trapByte] p = (.ok (), q)) : Poised rest ⟨q, table⟩ u := by
  obtain ⟨x, hx, hpatched⟩ := h.stands
  refine ⟨⟨_, host.shows_write hx hw, hpatched.registers, hpatched.rest, ?_⟩, fun a ha => ?_⟩
  · exact hpatched.coherent.rearm hdistinct hb hown
  · by_cases haddr : a = addr
    · rw [haddr]
      exact host.writable_of_write hw
    · refine host.writable_write hw (host.alive_write hw) (h.writable a ?_)
      rw [hdistinct.isArmed_without, ha]
      simpa using haddr

/-- Breakpoints are cleared in a row. -/
theorem clearEach (h : Poised rest d u) {addrs : List Addr} (hnodup : addrs.Nodup)
    (harmed : ∀ a ∈ addrs, d.breakpoints.isArmed a = true) :
    ∃ q, Debuggee.clearEach addrs d = (.ok (), ⟨q, d.breakpoints.filter (·.addr ∉ addrs)⟩) ∧
      Poised rest ⟨q, d.breakpoints.filter (·.addr ∉ addrs)⟩ u := by
  -- the table shrinks on the way, so the debuggee varies
  induction addrs generalizing d with
  | nil =>
    have hall : d.breakpoints.filter (·.addr ∉ []) = d.breakpoints :=
      List.filter_eq_self.2 (by simp)
    rw [hall]
    exact ⟨d.process, rfl, h⟩
  | cons a others ih =>
    obtain ⟨hfresh, hnodup⟩ := List.nodup_cons.1 hnodup
    obtain ⟨b, hb⟩ := Option.isSome_iff_exists.1 (harmed a List.mem_cons_self)
    obtain ⟨p, hw⟩ := h.writable a (harmed a List.mem_cons_self) b.saved
    obtain ⟨q, hq, hpoised⟩ := ih (h.clear host hb hw) hnodup fun c hc => by
      have hne : c ≠ a := by
        rintro rfl
        exact hfresh hc
      rw [h.distinct.isArmed_without, harmed c (List.mem_cons_of_mem a hc)]
      simpa using hne
    -- one address after the other, or all of them at once
    have hfilter : (d.breakpoints.without a).filter (·.addr ∉ others) =
        d.breakpoints.filter (·.addr ∉ a :: others) := by
      rw [h.distinct.without_eq, List.filter_filter]
      refine List.filter_congr fun c _ => ?_
      simp [Bool.and_comm]
    refine ⟨q, ?_, hfilter ▸ hpoised⟩
    rw [Debuggee.clearEach_cons_apply, Debuggee.clearAt_apply, hb]
    simp only [hw]
    rw [hq, hfilter]

/-- The breakpoints of the step engine are cleared. -/
theorem clearInternal (h : Poised rest d u) :
    ∃ n q, Debuggee.clearInternal d = (.ok n, ⟨q, d.breakpoints.user⟩) ∧
      Poised rest ⟨q, d.breakpoints.user⟩ u := by
  have hsublist : (d.breakpoints.filter (·.kind = .internal)).Sublist d.breakpoints :=
    List.filter_sublist
  have harmed : ∀ a ∈ (d.breakpoints.filter (·.kind = .internal)).map (·.addr),
      d.breakpoints.isArmed a = true := by
    intro a ha
    obtain ⟨b, hb, rfl⟩ := List.mem_map.1 ha
    exact isArmed_of_mem (hsublist.subset hb)
  have hnodup : ((d.breakpoints.filter (·.kind = .internal)).map (·.addr)).Nodup :=
    List.Nodup.sublist (hsublist.map _) h.distinct
  obtain ⟨q, hq, hpoised⟩ := h.clearEach host hnodup harmed
  rw [h.distinct.user_eq] at hq hpoised
  have hcleared := Debuggee.clearKind_apply .internal d
  rw [hq] at hcleared
  exact ⟨_, q, hcleared, hpoised⟩

end Writing

variable (host : Executes cpu rest)
include host

/-- There is no breakpoint at the end of the address space. -/
theorem pc_ne_last (h : Poised rest d u) (harmed : d.breakpoints.isArmed u.pc = true) :
    u.pc ≠ Addr.last := by
  obtain ⟨x, hx, hpatched⟩ := h.stands
  apply hpatched.pc_ne_last harmed
  rw [← hx.memory]
  exact host.last hx.alive

/-- The program counter is changed. -/
theorem setPc (h : Poised rest d u) (pc : Addr) :
    ∃ q, Tracee.setPc pc d.process = (.ok (), q) ∧
      Poised rest { d with process := q } (u.withPc pc) := by
  obtain ⟨x, hx, hpatched⟩ := h.stands
  obtain ⟨q, hset, hq⟩ := host.setRegisters_ok (x.registers.setPc pc) hx
  refine ⟨q, by rw [Tracee.setPc_apply, hx.registers]; exact hset, ⟨_, hq, hpatched.withPc pc⟩, ?_⟩
  exact fun a ha => host.writable_setRegisters hset hq.alive (h.writable a ha)

/-- The process executes one instruction, under which there is no breakpoint. -/
theorem step (h : Poised rest d u) (hfree : d.breakpoints.isArmed u.pc = false)
    (hclear : ∀ a, d.breakpoints.isArmed a = true → ¬ cpu.Disturbs u a) :
    ∃ q, Tracee.singleStep d.process = (.ok (cpu.step u).1, q) ∧
      PoisedOrGone rest (cpu.step u).2 { d with process := q } := by
  obtain ⟨x, hx, hpatched⟩ := h.stands
  obtain ⟨q, hstep, hcomes⟩ := host.singleStep hx
  refine ⟨q, ?_⟩
  -- the processor does in the state with the traps what it does in that of the program
  rcases hpatched.step hfree hclear with ⟨stop, x', u', hx', hu', h'⟩ | ⟨stop, hx', hu'⟩ <;>
    rw [hx'] at hstep hcomes <;> rw [hu']
  · refine ⟨hstep, ⟨x', hcomes, h'⟩, fun a ha => ?_⟩
    exact host.writable_step hstep hcomes.alive (h.writable a ha)
  · exact ⟨hstep, hcomes⟩

variable [LawfulTracee σ]

/-- The process executes the instruction under a breakpoint: the trap is lifted and put back. -/
theorem stepOver (h : Poised rest d u) {b : Breakpoint}
    (hb : d.breakpoints.locate? u.pc = some b) {lifted : σ}
    (hlift : Tracee.writeMemory u.pc [b.saved] d.process = (.ok (), lifted))
    (hclear : ∀ a, d.breakpoints.isArmed a = true → ¬ cpu.Disturbs u a) :
    ∃ stepped, Tracee.singleStep lifted = (.ok (cpu.step u).1, stepped) ∧
      match (cpu.step u).2 with
      | none => Tracee.isAlive stepped = false
      | some u' => Tracee.isAlive stepped = true ∧
        ∃ q, Tracee.writeMemory u.pc [trapByte] stepped = (.ok (), q) ∧
          Poised rest ⟨q, d.breakpoints⟩ u' := by
  -- while the trap is lifted, the table without it describes the memory
  have hcleared := h.clear host.writes hb hlift
  have hfree : (d.breakpoints.without u.pc).isArmed u.pc = false := by
    rw [h.distinct.isArmed_without]
    simp
  have hothers : ∀ a, (d.breakpoints.without u.pc).isArmed a = true → ¬ cpu.Disturbs u a := by
    intro a ha
    rw [h.distinct.isArmed_without, Bool.and_eq_true] at ha
    exact hclear a ha.1
  obtain ⟨stepped, hstep, hpoised⟩ := hcleared.step host hfree hothers
  refine ⟨stepped, hstep, ?_⟩
  rcases hu : (cpu.step u).2 with _ | u' <;> rw [hu] at hpoised
  · exact hpoised
  have halive : Tracee.isAlive stepped = true := Poised.alive hpoised
  -- the trap can be put back, as something was written there before
  have hwritable : Tracee.Writable stepped u.pc :=
    host.writable_step hstep halive (host.writable_of_write hlift)
  obtain ⟨q, hw⟩ := hwritable trapByte
  refine ⟨halive, q, hw, hpoised.rearm host.writes h.distinct hb ?_ hw⟩
  -- the instruction has not written over its own first byte
  rw [Cpu.memory_of_step (Prod.ext rfl hu) (hclear u.pc (isArmed_of_locate? hb))]
  exact h.saved hb

/-- The same for the debuggee: afterwards its breakpoints are what they were. -/
theorem withDisarmed (h : Poised rest d u) (harmed : d.breakpoints.isArmed u.pc = true)
    (hclear : ∀ a, d.breakpoints.isArmed a = true → ¬ cpu.Disturbs u a) :
    ∃ q, Debuggee.withDisarmed u.pc Tracee.singleStep d =
        (.ok (cpu.step u).1, { d with process := q }) ∧
      PoisedOrGone rest (cpu.step u).2 { d with process := q } := by
  obtain ⟨b, hb⟩ := Option.isSome_iff_exists.1 harmed
  obtain ⟨lifted, hlift⟩ := h.writable u.pc harmed b.saved
  obtain ⟨stepped, hstep, hafter⟩ := h.stepOver host hb hlift hclear
  simp only [Debuggee.withDisarmed_apply, hb, hlift, hstep]
  -- if the program ended, nothing is put back
  rcases hu : (cpu.step u).2 with _ | u' <;> rw [hu] at hafter
  · have hgone : Tracee.isAlive stepped = false := hafter
    simp only [hgone, Bool.false_eq_true, if_false]
    exact ⟨stepped, rfl, hgone⟩
  · obtain ⟨halive, q, hw, hpoised⟩ := hafter
    simp only [halive, if_true, hw]
    exact ⟨q, rfl, hpoised⟩

end Poised

end SourceDebugger
