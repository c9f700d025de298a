import SourceDebugger.Machine.Execute
import SourceDebugger.Proofs.LawfulTracee

/-!
# Scripted machines keep the rules

The rules for processes hold for scripted machines: `instLawfulTraceeMachine`. What the debugger
reads of their memory is one byte at each address, `Machine.byteAt`, whatever pieces the memory has.
-/

namespace SourceDebugger.Machine

/-! ### Memory -/

/-- The byte at an address: that of the first piece of memory in which the address lies. -/
def byteAt (regions : List Region) (a : Addr) : Option UInt8 :=
  (regions.findSome? fun r => (r.offsetOf? a).map r.bytes.drop).bind List.head?

/-- An address in a region is at the place of one of its bytes. -/
theorem lt_of_offsetOf? {r : Region} {a : Addr} {n : Nat} (h : r.offsetOf? a = some n) :
    n < r.bytes.length := by
  unfold Region.offsetOf? at h
  split at h
  · split at h
    · cases h
      assumption
    · cases h
  · cases h

/-- Different addresses have different places. -/
theorem offsetOf?_injective {r : Region} {a b : Addr} {n : Nat} (ha : r.offsetOf? a = some n)
    (hb : r.offsetOf? b = some n) : a = b := by
  -- the place is the distance from the first address
  have place : ∀ {c : Addr}, r.offsetOf? c = some n → (c.val - r.start.val).toNat = n := by
    intro c hc
    unfold Region.offsetOf? Addr.distanceFrom? at hc
    split at hc
    · rename_i d hd
      split at hc
      · cases hc
        split at hd
        · cases hd
          rfl
        · cases hd
      · cases hc
    · cases hc
  have hsub : a.val - r.start.val = b.val - r.start.val :=
    UInt64.toNat_inj.1 ((place ha).trans (place hb).symm)
  rw [Addr.ext_iff_val, ← UInt64.sub_add_cancel a.val r.start.val, hsub, UInt64.sub_add_cancel]

/-- A piece of memory in which one byte was replaced. -/
theorem write_byte (r : Region) {offset : Nat} (byte : UInt8) (h : offset < r.bytes.length) :
    r.write offset [byte] = { r with bytes := r.bytes.set offset byte } := by
  unfold Region.write
  rw [List.set_eq_take_append_cons_drop, if_pos h]
  simp

/-- The first region that contains an address decides on its byte. -/
theorem byteAt_cons (r : Region) (rest : List Region) (a : Addr) :
    byteAt (r :: rest) a = match r.offsetOf? a with
      | some n => r.bytes[n]?
      | none => byteAt rest a := by
  unfold byteAt
  rw [List.findSome?_cons]
  rcases r.offsetOf? a with _ | n
  · rfl
  · simp

/-- A byte that was stored is there, and the others have not changed. -/
theorem byteAt_store {forced : Bool} {addr : Addr} {byte : UInt8} {regions regions' : List Region}
    (h : store forced addr [byte] regions = .ok regions') (a : Addr) :
    byteAt regions' a = if a = addr then some byte else byteAt regions a := by
  -- the first piece that has the address is the one that is written, and the one that is read
  induction regions generalizing regions' with
  | nil => cases h
  | cons r rest ih =>
    unfold store at h
    split at h
    · rename_i hoffset
      rcases hrest : store forced addr [byte] rest with e | rest' <;> rw [hrest] at h
      · cases h
      cases h
      -- the address is in a later piece
      rw [byteAt_cons, byteAt_cons, ih hrest]
      by_cases ha : a = addr
      · rw [ha, hoffset]
      · simp [ha]
    · rename_i offset hoffset
      split at h
      · cases h
      split at h
      · cases h
      cases h
      -- the address is in this piece
      have hlt := lt_of_offsetOf? hoffset
      have hsame : ∀ c, Region.offsetOf? { r with bytes := r.bytes.set offset byte } c =
          r.offsetOf? c := by
        intro c
        simp only [Region.offsetOf?, List.length_set]
      rw [write_byte r byte hlt, byteAt_cons, byteAt_cons, hsame]
      by_cases ha : a = addr
      · rw [ha, hoffset]
        simp [hlt]
      rcases hplace : r.offsetOf? a with _ | n
      · simp [ha]
      · have hne : offset ≠ n := by
          rintro rfl
          exact ha (offsetOf?_injective hplace hoffset)
        simp [ha, List.getElem?_set_ne hne]

/-- What the debugger reads of the memory of a machine that was not ended. -/
theorem memory_eq {m : Machine} (h : m.alive = true) : Tracee.memory m = byteAt m.regions := by
  funext a
  have hread : Tracee.readMemory m a 1 = m.whileAlive (m.read a 1) := rfl
  unfold Tracee.memory
  rw [hread]
  simp only [whileAlive, h, if_true, read, memoryFrom?, byteAt]
  generalize List.findSome? _ m.regions = found
  rcases found with _ | (_ | ⟨byte, _⟩) <;> rfl

/-! ### Ends -/

/-- Either the machine goes on, or it was ended. -/
def Ends (end_ : Except DebugError Stop × Machine) : Prop :=
  ∀ stop, end_.1 = .ok stop → stop.isTerminal = true → end_.2.alive = false

/-- A part of an instruction may be followed by one that ends the machine or lets it go on. A
failure is no end. -/
theorem ends_bind {α : Type} {x : Action Machine α} {f : α → Action Machine Stop} {m : Machine}
    (h : ∀ a q, Ends (f a q)) : Ends ((x >>= f) m) := by
  rw [Action.bind_apply]
  rcases x m with ⟨_ | a, q⟩
  · exact fun _ he => nomatch he
  · exact h a q

/-- A failure is no end. -/
theorem ends_throw (e : DebugError) (m : Machine) : Ends ((throw e : Action Machine Stop) m) :=
  fun _ he => nomatch he

/-- A stop from which the machine can go on. -/
theorem ends_pure {stop : Stop} (h : stop.isTerminal = false) (m : Machine) :
    Ends ((pure stop : Action Machine Stop) m) := by
  rintro _ ⟨⟩ hterminal
  simp [h] at hterminal

/-- An instruction that goes on to the next one does not end the machine. -/
theorem plain_ends (x : Action Machine Unit) (next : UInt64) (m : Machine) :
    Ends (plain x next m) :=
  ends_bind fun _ _ => ends_bind fun _ _ => ends_pure rfl _

/-- A jump does not end the machine. -/
theorem jump_ends (distance next : UInt64) (m : Machine) : Ends (jump distance next m) :=
  ends_bind fun _ _ => ends_pure rfl _

/-- A jump under a condition does not end the machine. -/
theorem jumpIf_ends (zero : Bool) (distance next : UInt64) (m : Machine) :
    Ends (jumpIf zero distance next m) :=
  ends_bind fun _ _ => jump_ends _ _ _

/-- A call does not end the machine. -/
theorem call_ends (target : UInt64 → Registers → UInt64) (next : UInt64) (m : Machine) :
    Ends (call target next m) :=
  ends_bind fun _ _ => ends_bind fun _ _ => ends_bind fun _ _ => ends_bind fun _ _ =>
    ends_pure rfl _

/-- A machine that reports its exit is ended before. -/
theorem halt_ends (m : Machine) :
    Ends ((do die; return .exited (← get).image.exitCode : Action Machine Stop) m) := by
  rintro _ ⟨⟩ _
  rfl

/-- No instruction ends the machine without saying so. -/
theorem decode?_ends {bytes : List UInt8} {length : Nat} {effect : Effect}
    (h : decode? bytes = some (length, effect)) (next : UInt64) (m : Machine) :
    Ends (effect next m) := by
  unfold decode? at h
  -- one case for each opcode
  split at h <;> cases h
  · exact ends_bind fun _ _ => ends_pure rfl _
  · exact ends_bind fun _ _ => ends_pure rfl _
  · exact halt_ends m
  · exact plain_ends _ _ _
  · exact plain_ends _ _ _
  · exact plain_ends _ _ _
  · exact plain_ends _ _ _
  · exact ends_bind fun _ _ => ends_bind fun _ _ => ends_pure rfl _
  · exact call_ends _ _ _
  · exact call_ends _ _ _
  · exact jump_ends _ _ _
  · exact jump_ends _ _ _
  · exact jumpIf_ends _ _ _ _
  · exact jumpIf_ends _ _ _ _
  all_goals exact plain_ends _ _ _

/-- What happens at a set time ends the machine only if it says so. -/
theorem happen_ends (event : MachineEvent) (m : Machine) : Ends (happen event m) := by
  rcases event with s | s | code | _ | _ | _
  · exact ends_pure rfl m
  · rintro _ ⟨⟩ _
    rfl
  · rintro _ ⟨⟩ _
    rfl
  · exact ends_bind fun _ _ => ends_throw _ _
  · exact ends_throw _ m
  · exact ends_pure rfl m

/-- An instruction that reports the end of the machine has ended it. -/
theorem execute_ends (m : Machine) : Ends (execute m) := by
  refine ends_bind fun rip p => ends_bind fun q _ => ?_
  rcases q.memoryFrom? ⟨rip⟩ with _ | bytes
  · exact ends_pure rfl _
  rcases hdecode : decode? (bytes.take fetchLength) with _ | ⟨length, effect⟩
  · simp only [hdecode]
    exact ends_pure rfl _
  · simp only [hdecode]
    exact decode?_ends hdecode _ _

/-- A single step that reports the end of the machine has ended it. -/
theorem step_ends (m : Machine) : Ends (step m) := by
  refine ends_bind fun _ _ => ends_bind fun _ _ => ends_bind fun (q : Machine) r => ?_
  dsimp only
  -- what is due at this time is an event or an instruction
  generalize q.image.events.find? _ = due
  rcases due with _ | ⟨_, event⟩
  · split
    · exact ends_bind fun _ r => execute_ends r
    · exact execute_ends r
  · split
    · exact ends_bind fun _ r => happen_ends event r
    · exact happen_ends event r

/-- The same of a run, by induction on the steps that are left. -/
theorem run_ends (left : Nat) (m : Machine) : Ends (run left m) := by
  induction left generalizing m with
  | zero => exact ends_throw _ m
  | succ left ih =>
    unfold run
    rw [Action.bind_apply]
    have hstep := step_ends m
    rcases hm : step m with ⟨_ | stop, q⟩
    · exact fun _ he => nomatch he
    rw [hm] at hstep
    dsimp only
    -- another round, or the stop of this one
    split
    · exact ih q
    · exact hstep

/-- The same of a resume, whatever signal it delivers. -/
theorem resume_ends (signal : Option Signal) (m : Machine) : Ends (resume signal m) := by
  refine ends_bind fun _ p => ?_
  rcases signal with _ | s
  · exact run_ends _ p
  dsimp only
  rw [Action.bind_apply]
  -- a signal that the machine does not survive ends it, and another one is delivered
  by_cases hdeadly : p.image.deadly.contains s = true
  · have hdeliver : deliver s p = (.ok (some (.killed s)),
        { p with delivered := p.delivered ++ [s], alive := false }) := by
      simp only [deliver, Action.bind_apply, Action.modify_apply, Action.get_apply, hdeadly,
        if_true, die]
      rfl
    rw [hdeliver]
    rintro _ ⟨⟩ _
    rfl
  · have hdeliver : ∃ q, deliver s p = (.ok none, q) := by
      simp only [deliver, Action.bind_apply, Action.modify_apply, Action.get_apply, hdeadly,
        Bool.false_eq_true, if_false]
      rcases p.image.handlers.find? _ with _ | ⟨_, distance⟩
      · exact ⟨_, rfl⟩
      · exact ⟨_, rfl⟩
    obtain ⟨q, hq⟩ := hdeliver
    rw [hq]
    exact run_ends _ q

/-! ### A machine that was ended -/

/-- Whether the machine is alive is looked at, and nothing is changed. -/
theorem ensureAlive_apply (m : Machine) :
    ensureAlive m = if m.alive then (.ok (), m) else (.error .processGone, m) := by
  rcases h : m.alive <;> simp [ensureAlive, Action.bind_apply, Action.get_apply, h] <;> rfl

/-- Nothing can be done to a machine that was ended. -/
theorem bind_of_ended {α : Type} {f : Unit → Action Machine α} {m : Machine}
    (h : m.alive = false) : (ensureAlive >>= f) m = (.error .processGone, m) := by
  simp [Action.bind_apply, ensureAlive_apply, h]

/-- A machine that is alive goes on. -/
theorem bind_of_alive {α : Type} {f : Unit → Action Machine α} {m : Machine}
    (h : m.alive = true) : (ensureAlive >>= f) m = f () m := by
  simp [Action.bind_apply, ensureAlive_apply, h]

/-- Whatever asks for a machine that was not ended finds one. -/
theorem alive_of_bind {α : Type} {f : Unit → Action Machine α} {m q : Machine}
    {r : Except DebugError α} (h : (ensureAlive >>= f) m = (r, q)) (halive : q.alive = true) :
    m.alive = true := by
  rcases hm : m.alive
  · rw [bind_of_ended hm] at h
    cases h
    exact hm.symm.trans halive
  · rfl

/-- Bytes are stored in the regions, or the machine stays as it is. -/
theorem write_apply (forced : Bool) (addr : Addr) (data : List UInt8) (m : Machine) :
    write forced addr data m = match store forced addr data m.regions with
      | .ok regions => (.ok (), { m with regions })
      | .error e => (.error e, m) := rfl

instance instLawfulTracee : LawfulTracee Machine where
  memory_write {p q addr byte} h halive := by
    have hp : p.alive = true := alive_of_bind h halive
    change (ensureAlive >>= fun _ => write false addr [byte]) p = _ at h
    rw [bind_of_alive hp, write_apply] at h
    rcases hstore : store false addr [byte] p.regions with e | regions <;> rw [hstore] at h
    · cases h
    cases h
    rw [memory_eq halive, memory_eq hp]
    funext a
    exact byteAt_store hstore a
  memory_write_error {p q addr data e} h halive := by
    have hp : p.alive = true := alive_of_bind h halive
    change (ensureAlive >>= fun _ => write false addr data) p = _ at h
    rw [bind_of_alive hp, write_apply] at h
    rcases hstore : store false addr data p.regions with e | regions <;> rw [hstore] at h
    · cases h
      rfl
    · cases h
  memory_setRegisters {p q regs r} h halive := by
    have hp : p.alive = true := alive_of_bind h halive
    change (ensureAlive >>= fun _ => modify fun m => { m with regs }) p = _ at h
    rw [bind_of_alive hp] at h
    cases h
    rw [memory_eq halive, memory_eq hp]
  registers_setRegisters {p q regs} h halive := by
    have hp : p.alive = true := alive_of_bind h halive
    change (ensureAlive >>= fun _ => modify fun m => { m with regs }) p = _ at h
    rw [bind_of_alive hp] at h
    cases h
    exact if_pos halive
  alive_of_write h halive := alive_of_bind h halive
  alive_of_setRegisters h halive := alive_of_bind h halive
  alive_of_step h halive := alive_of_bind h halive
  alive_of_resume h halive := alive_of_bind (Option.some.inj h) halive
  step_terminal {p q stop} h hterminal := by
    have hends := step_ends p
    rw [show step p = _ from h] at hends
    exact hends stop rfl hterminal
  resume_terminal {p q signal stop} h hterminal := by
    have hends := resume_ends signal p
    rw [show resume signal p = _ from Option.some.inj h] at hends
    exact hends stop rfl hterminal
  restart_error {p q e} h halive := by
    change restart p = _ at h
    simp only [restart, Action.bind_apply, Action.get_apply] at h
    by_cases hno : p.image.noRestart = true
    · simp only [hno, if_true, die, Action.bind_apply, Action.modify_apply] at h
      cases h
      cases halive
    · simp only [hno, Bool.false_eq_true, if_false] at h
      have hfst : (.ok () : Except DebugError Unit) = .error e := congrArg Prod.fst h
      cases hfst

end SourceDebugger.Machine
