import SourceDebugger.Proofs.Action
import SourceDebugger.Proofs.Memory

/-!
# What operations on a debuggee come to

The operations that set, clear and lift breakpoints are written step by step, with failures that
end them early. Here each of them is stated as a whole: what it answers and what it leaves behind,
by the outcomes of the accesses to the process.

* `Debuggee.arm_apply`, `Debuggee.clearAt_apply`, `Debuggee.withDisarmed_apply`: one breakpoint.
* `Debuggee.setUser_apply`: a breakpoint of the operator is set like any other.
* `Debuggee.clearKind_keeps`: what clearing one breakpoint keeps, clearing many of them keeps.
-/

namespace SourceDebugger

variable {σ α β : Type}

/-- What holds at an end, by whether it is a success. -/
def Outcome (keep fails : σ → Prop) : Except DebugError α → σ → Prop
  | .ok _, p => keep p
  | .error _, p => fails p

theorem outcome_map {K F : σ → Prop} {r : Except DebugError α} {f : α → β} {p : σ} :
    Outcome K F (r.map f) p ↔ Outcome K F r p := by
  cases r <;> exact Iff.rfl

theorem outcome_same {K : σ → Prop} {r : Except DebugError α} {p : σ} :
    Outcome K K r p ↔ K p := by
  cases r <;> exact Iff.rfl

theorem Tracee.setPc_apply [Tracee σ] (pc : Addr) (p : σ) :
    Tracee.setPc pc p = match Tracee.registers p with
      | .error e => (.error e, p)
      | .ok regs => Tracee.setRegisters (regs.setPc pc) p := by
  simp only [Tracee.setPc, Action.bind_apply, Action.get_apply, Action.liftM_apply]
  rcases Tracee.registers p with _ | _ <;> rfl

namespace Debuggee

variable [Tracee σ]

omit [Tracee σ] in
theorem onProcess_apply (x : Action σ α) (d : Debuggee σ) :
    onProcess x d = ((x d.process).1, { d with process := (x d.process).2 }) := rfl

theorem arm_apply (addr : Addr) (file : String) (line : UInt64) (kind : BreakpointKind)
    (d : Debuggee σ) :
    arm addr file line kind d =
      if d.breakpoints.isArmed addr then (.error (.duplicateBreakpoint addr.text), d)
      else match Tracee.readExact d.process addr 1 with
        | .error e => (.error e, d)
        | .ok bytes =>
          match Tracee.writeMemory addr [trapByte] d.process with
          | (.error e, p) => (.error e, { d with process := p })
          | (.ok _, p) =>
            (.ok ⟨addr, bytes.headD 0, file, line, kind⟩,
              ⟨p, d.breakpoints ++ [⟨addr, bytes.headD 0, file, line, kind⟩]⟩) := by
  simp only [arm, Action.bind_apply, Action.get_apply]
  by_cases h : d.breakpoints.isArmed addr
  · simp only [h, if_true, Action.bind_apply, Action.throw_apply]
  · simp only [h, Bool.false_eq_true, if_false, Action.bind_apply, Action.liftM_apply,
      Action.pure_apply]
    rcases Tracee.readExact d.process addr 1 with e | bytes
    · rfl
    -- the byte is known, so what is left is whether the trap can be written
    · simp only [onProcess_apply, modifyTable]
      rcases Tracee.writeMemory addr [trapByte] d.process with ⟨_ | _, p⟩
      · rfl
      · rfl

theorem clearAt_apply (addr : Addr) (d : Debuggee σ) :
    clearAt addr d = match d.breakpoints.locate? addr with
      | none => (.error (.breakpointNotArmed addr), d)
      | some b =>
        match Tracee.writeMemory addr [b.saved] d.process with
        | (.error e, p) => (.error e, { d with process := p })
        | (.ok _, p) => (.ok b, ⟨p, d.breakpoints.without addr⟩) := by
  simp only [clearAt, Action.bind_apply, Action.get_apply]
  rcases d.breakpoints.locate? addr with _ | b
  · rfl
  · simp only [Action.bind_apply, onProcess_apply, modifyTable]
    rcases Tracee.writeMemory addr [b.saved] d.process with ⟨_ | _, p⟩ <;> rfl

omit [Tracee σ] in
theorem observing_apply (x : Action σ α) (p : σ) :
    withDisarmed.observing x p = (.ok (x p).1, (x p).2) := rfl

theorem withDisarmed_apply (addr : Addr) (x : Action σ α) (d : Debuggee σ) :
    withDisarmed addr x d = match d.breakpoints.locate? addr with
      | none => (.error (.breakpointNotArmed addr), d)
      | some b =>
        match Tracee.writeMemory addr [b.saved] d.process with
        | (.error e, p) => (.error e, { d with process := p })
        | (.ok _, p) =>
          match x p with
          | (result, q) =>
            if Tracee.isAlive q then
              let rearmed := Tracee.writeMemory addr [trapByte] q
              (result.bind fun a => rearmed.1.map fun _ => a, { d with process := rearmed.2 })
            else (result, { d with process := q }) := by
  simp only [withDisarmed, Action.bind_apply, Action.get_apply]
  rcases d.breakpoints.locate? addr with _ | b
  · rfl
  · simp only [Action.bind_apply, onProcess_apply]
    rcases Tracee.writeMemory addr [b.saved] d.process with ⟨_ | _, p⟩
    · rfl
    -- a failure of `x` is kept until the trap is back, so the process is looked at first
    · simp only [observing_apply, Action.get_apply]
      rcases x p with ⟨result, q⟩
      by_cases h : Tracee.isAlive q
      · simp only [h, if_true, Action.bind_apply, onProcess_apply, observing_apply,
          Action.liftM_apply]
        rcases Tracee.writeMemory addr [trapByte] q with ⟨rearmed, q'⟩
        rcases result with _ | a
        · rfl
        · rcases rearmed with _ | _ <;> rfl
      · simp only [h, Bool.false_eq_true, if_false, Action.liftM_apply]

/-- Setting a breakpoint of the operator changes what setting one at an address changes, or
nothing. -/
theorem setUser_apply (index : DebugIndex) (file : String) (line : UInt64) (d : Debuggee σ) :
    (setUser index file line d).2 = d ∨
      ∃ addr stored, (setUser index file line d).2 = (arm addr stored line .user d).2 := by
  simp only [setUser, Action.bind_apply, Action.liftM_apply]
  rcases index.lookupBreakpointAddress file line with e | addr
  · exact .inl rfl
  · refine .inr ⟨addr, (index.resolveFile? file).getD file, ?_⟩
    simp only [Action.tryCatch_apply]
    rcases arm addr ((index.resolveFile? file).getD file) line .user d with ⟨e | b, d'⟩
    -- a failure is only reported in other words
    · cases e <;> rfl
    · rfl

/-- A breakpoint of the step engine is set like any other. -/
theorem setInternal_apply (index : DebugIndex) (addr : Addr) (d : Debuggee σ) :
    setInternal index addr d =
      let location := (index.resolveAddress addr).toOption.getD ⟨"", 0⟩
      ((arm addr location.file location.line .internal d).1.map fun _ => (),
        (arm addr location.file location.line .internal d).2) := by
  simp only [setInternal, Action.bind_apply]
  rcases arm addr _ _ .internal d with ⟨_ | _, d'⟩ <;> rfl

/-- A number stands for an address, or nothing is done. -/
theorem clearUser_apply (number : UInt64) (d : Debuggee σ) :
    (clearUser number d).2 = d ∨ ∃ addr, (clearUser number d).2 = (clearAt addr d).2 := by
  simp only [clearUser, Action.bind_apply, Action.get_apply]
  rcases d.breakpoints.numbered? number with _ | b
  · exact .inl rfl
  · exact .inr ⟨b.addr, rfl⟩

/-- Clears the breakpoints at some addresses in a row. -/
def clearEach (addrs : List Addr) : Action (Debuggee σ) Unit :=
  addrs.forM fun addr => do
    let _ ← clearAt addr

theorem clearEach_cons_apply (addr : Addr) (rest : List Addr) (d : Debuggee σ) :
    clearEach (addr :: rest) d = match clearAt addr d with
      | (.ok _, d') => clearEach rest d'
      | (.error e, d') => (.error e, d') := by
  show ((do let _ ← clearAt addr : Action (Debuggee σ) Unit) >>= fun _ => clearEach rest) d = _
  rw [Action.bind_apply, Action.bind_apply]
  rcases clearAt addr d with ⟨_ | _, d'⟩ <;> rfl

theorem clearKind_apply (kind : BreakpointKind) (d : Debuggee σ) :
    clearKind kind d =
      ((clearEach ((d.breakpoints.filter (·.kind = kind)).map (·.addr)) d).1.map fun _ =>
          ((d.breakpoints.filter (·.kind = kind)).map (·.addr)).length,
        (clearEach ((d.breakpoints.filter (·.kind = kind)).map (·.addr)) d).2) := by
  let addrs := (d.breakpoints.filter (·.kind = kind)).map (·.addr)
  show ((clearEach addrs >>= fun _ => pure addrs.length : Action (Debuggee σ) Nat) d) = _
  rw [Action.bind_apply]
  rcases clearEach addrs d with ⟨_ | _, d'⟩ <;> rfl

/-- Clearing breakpoints in a row keeps whatever clearing one of them keeps. If one cannot be
cleared, what that leaves holds at the end. -/
theorem clearEach_keeps {K F : Debuggee σ → Prop}
    (clear : ∀ addr d, K d → Outcome K F (clearAt addr d).1 (clearAt addr d).2)
    (addrs : List Addr) {d : Debuggee σ} (h : K d) :
    Outcome K F (clearEach addrs d).1 (clearEach addrs d).2 := by
  -- the state between two addresses is arbitrary, as long as `K` holds of it
  induction addrs generalizing d with
  | nil => exact h
  | cons addr rest ih =>
    have first := clear addr d h
    rw [clearEach_cons_apply]
    rcases hclear : clearAt addr d with ⟨_ | b, d'⟩ <;> rw [hclear] at first
    · exact first
    · exact ih first

/-- Clearing the breakpoints of a kind keeps whatever clearing one of them keeps. -/
theorem clearKind_keeps {K F : Debuggee σ → Prop}
    (clear : ∀ addr d, K d → Outcome K F (clearAt addr d).1 (clearAt addr d).2)
    (kind : BreakpointKind) {d : Debuggee σ} (h : K d) :
    Outcome K F (clearKind kind d).1 (clearKind kind d).2 := by
  rw [clearKind_apply, outcome_map]
  exact clearEach_keeps clear _ h

section Tables

open BreakpointTable

/-- Clearing breakpoints of the table in a row keeps whatever clearing one of them keeps. -/
theorem clearEach_keeps_of_armed {K F : Debuggee σ → Prop} (addrs : List Addr)
    (clear : ∀ addr ∈ addrs, ∀ d, d.breakpoints.isArmed addr = true → K d →
      Outcome K F (clearAt addr d).1 (clearAt addr d).2)
    (hnodup : addrs.Nodup) {d : Debuggee σ}
    (harmed : ∀ a ∈ addrs, d.breakpoints.isArmed a = true) (h : K d) :
    Outcome K F (clearEach addrs d).1 (clearEach addrs d).2 := by
  induction addrs generalizing d with
  | nil => exact h
  | cons addr rest ih =>
    obtain ⟨hnew, hrest⟩ := List.nodup_cons.1 hnodup
    have first := clear addr List.mem_cons_self d (harmed addr List.mem_cons_self) h
    -- the others are still there when the first one is gone
    have others : ∀ b d', clearAt addr d = (.ok b, d') →
        ∀ a ∈ rest, d'.breakpoints.isArmed a = true := by
      intro b d' hclear a ha
      have ha' := harmed a (List.mem_cons_of_mem _ ha)
      rw [clearAt_apply] at hclear
      rcases hb : d.breakpoints.locate? addr with _ | c <;> rw [hb] at hclear
      · cases hclear
      simp only at hclear
      rcases hw : Tracee.writeMemory addr [c.saved] d.process with ⟨_ | _, p⟩ <;> rw [hw] at hclear
      · cases hclear
      · cases hclear
        exact isArmed_without_of_ne ha' fun heq => hnew (heq ▸ ha)
    rw [clearEach_cons_apply]
    rcases hclear : clearAt addr d with ⟨_ | b, d'⟩ <;> rw [hclear] at first
    · exact first
    · exact ih (fun a ha => clear a (List.mem_cons_of_mem _ ha)) hrest (others b d' hclear) first

/-- Clearing the breakpoints of a kind, none of which is there twice. Only those of the kind are
cleared. -/
theorem clearKind_keeps_of_kind {K F : Debuggee σ → Prop} {kind : BreakpointKind} {d : Debuggee σ}
    (clear : ∀ b ∈ d.breakpoints, b.kind = kind → ∀ d', d'.breakpoints.isArmed b.addr = true →
      K d' → Outcome K F (clearAt b.addr d').1 (clearAt b.addr d').2)
    (hdistinct : d.breakpoints.Distinct) (h : K d) :
    Outcome K F (clearKind kind d).1 (clearKind kind d).2 := by
  rw [clearKind_apply, outcome_map]
  refine clearEach_keeps_of_armed _ (fun a ha => ?_) ?_ (fun a ha => ?_) h
  · obtain ⟨b, hb, rfl⟩ := List.mem_map.1 ha
    obtain ⟨hb, hkind⟩ := List.mem_filter.1 hb
    exact clear b hb (by simpa using hkind)
  · exact hdistinct.sublist (List.filter_sublist.map _)
  · obtain ⟨b, hb, rfl⟩ := List.mem_map.1 ha
    exact isArmed_of_mem (List.mem_filter.1 hb).1

theorem clearKind_keeps_of_distinct {K F : Debuggee σ → Prop}
    (clear : ∀ addr d, d.breakpoints.isArmed addr = true → K d →
      Outcome K F (clearAt addr d).1 (clearAt addr d).2)
    (kind : BreakpointKind) {d : Debuggee σ} (hdistinct : d.breakpoints.Distinct) (h : K d) :
    Outcome K F (clearKind kind d).1 (clearKind kind d).2 :=
  clearKind_keeps_of_kind (fun b _ _ => clear b.addr) hdistinct h

/-- The table without the breakpoints at some addresses. -/
theorem clearEach_breakpoints {addrs : List Addr} {d d' : Debuggee σ}
    (hdistinct : d.breakpoints.Distinct) (h : clearEach addrs d = (.ok (), d')) :
    d'.breakpoints = d.breakpoints.filter (·.addr ∉ addrs) := by
  induction addrs generalizing d with
  | nil =>
    cases h
    exact (List.filter_eq_self.2 (by simp)).symm
  | cons addr rest ih =>
    rw [clearEach_cons_apply, clearAt_apply] at h
    rcases hb : d.breakpoints.locate? addr with _ | b <;> rw [hb] at h
    · cases h
    simp only at h
    rcases hw : Tracee.writeMemory addr [b.saved] d.process with ⟨_ | _, p⟩ <;> rw [hw] at h
    · cases h
    -- one address after the other, or all of them at once
    · rw [ih hdistinct.without h, hdistinct.without_eq, List.filter_filter]
      refine List.filter_congr fun c _ => ?_
      simp [Bool.and_comm]

/-- Once the breakpoints of the step engine are cleared, those of the operator are left. -/
theorem clearInternal_breakpoints {d d' : Debuggee σ} {n : Nat}
    (hdistinct : d.breakpoints.Distinct) (h : clearInternal d = (.ok n, d')) :
    d'.breakpoints = d.breakpoints.user := by
  rw [clearInternal, clearKind_apply] at h
  rcases heach : clearEach ((d.breakpoints.filter (·.kind = .internal)).map (·.addr)) d with
    ⟨_ | _, d''⟩ <;> rw [heach] at h <;> cases h
  rw [clearEach_breakpoints hdistinct heach, hdistinct.user_eq]

end Tables

end Debuggee

end SourceDebugger
