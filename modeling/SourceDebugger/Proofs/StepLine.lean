import SourceDebugger.Proofs.MacroStep
import SourceDebugger.Proofs.Traps

/-!
# To step out of a line

When the operator steps through the lines, the command looks at where the process stands at certain
boundaries only: behind a single step, and behind a call into code without lines once the process is
back from it. `Session.AfterStep` and `Session.AfterReturn` lead from one boundary to the next one;
they say what the process does there, and nothing of what the command makes of it.

* `Session.stepLine_exact`: the answer is given at the first boundary whose line is another one than
  that of the start. A boundary without a line counts as such behind a single step, but not behind a
  call. There is an answer if there is such a boundary.
-/

namespace SourceDebugger

open Relation

/-! ### Bounded runs -/

section Yields

variable {α β : Type} {x z : Nat → Option α} {y : Nat → Option β} {a a' : α} {b : β}

/-- With enough steps `x` comes to the result `a`, and with fewer to none. -/
def Yields (x : Nat → Option α) (a : α) : Prop :=
  ∃ n, ∀ fuel, x fuel = if n ≤ fuel then some a else none

/-- One step is enough for a result that is there at once. -/
theorem Yields.of_succ (hzero : x 0 = none) (hsucc : ∀ fuel, x (fuel + 1) = some a) :
    Yields x a := by
  refine ⟨1, fun fuel => ?_⟩
  cases fuel with
  | zero => simpa using hzero
  | succ fuel => simpa using hsucc fuel

/-- However many steps there are, the result is the same. -/
theorem Yields.eq (h : Yields x a) {fuel : Nat} (hx : x fuel = some a') : a' = a := by
  obtain ⟨n, hn⟩ := h
  have := hn fuel
  grind

/-- A run that goes on with another one in its place, and needs one more step for that. -/
theorem Yields.step (h : Yields z a) (hzero : x 0 = none) (hsucc : ∀ fuel, x (fuel + 1) = z fuel) :
    Yields x a := by
  obtain ⟨n, hn⟩ := h
  refine ⟨n + 1, fun fuel => ?_⟩
  cases fuel with
  | zero => simpa using hzero
  | succ fuel => simpa using (hsucc fuel).trans (hn fuel)

end Yields

namespace Session

variable {σ : Type} [Tracee σ]

/-! ### From one boundary to the next -/

/-- A single step executes the instruction that `info` describes, from these registers, and leads to
an address. -/
structure StepsOnce (s : Session σ) (regs : Registers) (info : InstructionInfo) (pc : Addr)
    (t : Session σ) : Prop where
  registers : Tracee.registers s.process = .ok regs
  decodes : instructionAt regs.pc s = some (.ok info, s)
  steps : stepOnce s = some (.ok (.trap .singleStep), t)
  lands : Tracee.pc t.process = .ok pc

/-- The process runs until it executes a trap, the one of a breakpoint at the address or one of its
own in front of it. -/
structure RunsInto (s : Session σ) (pc : Addr) (t : Session σ) : Prop where
  trapped : ∃ u, resumeProcess s = some (.ok (.trap .breakpoint), u) ∧
    rewindAfterTrap u = some (.ok pc, t)

/-- The process runs until it traps at `ret` and has at least this stack pointer. Where it traps
there with a lower one, in a deeper call, it is stepped on. -/
inductive RunsBack (ret callerSp : Addr) : Session σ → Session σ → Prop
  /-- It is back. -/
  | back {s t : Session σ} {regs : Registers} : s.RunsInto ret t →
      Tracee.registers t.process = .ok regs → callerSp ≤ regs.stackPointer →
      RunsBack ret callerSp s t
  /-- It is back from a deeper call. -/
  | deeper {s u v t : Session σ} {regs : Registers} : s.RunsInto ret u →
      Tracee.registers u.process = .ok regs → ¬ callerSp ≤ regs.stackPointer →
      stepOverBreakpoint ret u = some (.ok (.trap .singleStep), v) → RunsBack ret callerSp v t →
      RunsBack ret callerSp s t

/-- A completed run to the return of a call: to the breakpoint that is there, or else to one that is
set before and cleared behind. -/
inductive ReturnsTo (ret callerSp : Addr) (s t : Session σ) : Prop
  | armed : s.breakpoints.isArmed ret = true → RunsBack ret callerSp s t →
      ReturnsTo ret callerSp s t
  | free {u v : Session σ} : s.breakpoints.isArmed ret = false →
      onDebuggee (Debuggee.setInternal s.index ret) s = some (.ok (), u) →
      RunsBack ret callerSp u v → takeBack v = some (.ok (), t) → ReturnsTo ret callerSp s t

/-- A boundary behind a single step, which was no call into code without lines. -/
def AfterStep (s : Session σ) (pc : Addr) (t : Session σ) : Prop :=
  ∃ regs info, s.StepsOnce regs info pc t ∧
    (info.isCall = true → ∃ location, t.lineOf pc = .ok location)

/-- A boundary behind a call into code without lines. -/
def AfterReturn (s : Session σ) (pc : Addr) (t : Session σ) : Prop :=
  ∃ regs info entered u e, s.StepsOnce regs info entered u ∧ info.isCall = true ∧
    u.lineOf entered = .error e ∧
    u.ReturnsTo (regs.pc + UInt64.ofNat info.length) regs.stackPointer t ∧
    Tracee.pc t.process = .ok pc

/-- The next boundary. -/
def Boundary (s : Session σ) (pc : Addr) (t : Session σ) : Prop :=
  s.AfterStep pc t ∨ s.AfterReturn pc t

/-- The command goes on from the next boundary: there is the line of the start, or no line behind a
call. -/
def StaysOn (start : SourceLocation) (s t : Session σ) : Prop :=
  ∃ pc, s.Boundary pc t ∧ t.lineOf pc = .ok start ∨
    s.AfterReturn pc t ∧ ∃ e, t.lineOf pc = .error e

/-- The command ends at the next boundary: there is another line than that of the start, or no line
behind a single step. -/
def EndsAt (start : SourceLocation) (s : Session σ) (pc : Addr) (t : Session σ) : Prop :=
  (∃ location, s.Boundary pc t ∧ t.lineOf pc = .ok location ∧ location ≠ start) ∨
    s.AfterStep pc t ∧ ∃ e, t.lineOf pc = .error e

section Run

variable {s t u : Session σ} {start : SourceLocation} {ret callerSp pc : Addr} {regs : Registers}
  {info : InstructionInfo} {fuel : Nat}

/-- At each boundary the command goes on or ends. -/
theorem Boundary.staysOn_or_endsAt (h : s.Boundary pc t) :
    s.StaysOn start t ∨ s.EndsAt start pc t := by
  rcases hline : t.lineOf pc with e | location
  · rcases h with hstep | hreturn
    · exact .inr (.inr ⟨hstep, e, hline⟩)
    · exact .inl ⟨pc, .inr ⟨hreturn, e, hline⟩⟩
  · by_cases hsame : location = start
    · exact .inl ⟨pc, .inl ⟨h, hsame ▸ hline⟩⟩
    · exact .inr (.inl ⟨location, h, hline, hsame⟩)

/-! ### Runs to the return of a call -/

/-- A round of the run to the return, which comes to the breakpoint behind the call. -/
theorem runBack_of_runsInto (h : s.RunsInto ret t)
    (hregs : Tracee.registers t.process = .ok regs) :
    runBack ret callerSp (fuel + 1) s =
      if callerSp ≤ regs.stackPointer then some (.ok none, t)
      else (do
        let stop ← stepOverBreakpoint ret
        if stop ≠ .trap .singleStep then return some stop
        runBack ret callerSp fuel : Task σ _) t := by
  obtain ⟨u, hresume, hrewind⟩ := h.trapped
  rw [runBack, bind_of_ok hresume, if_neg (not_not_intro rfl), bind_of_ok hrewind,
    if_neg (not_not_intro rfl), bind_of_ok (observe_of_ok hregs)]
  split <;> rfl

/-- A completed run back is one that enough fuel comes to. -/
theorem RunsBack.yields (h : RunsBack ret callerSp s t) :
    Yields (fun fuel => runBack ret callerSp fuel s) (.ok none, t) := by
  induction h with
  | back hruns hregs hle =>
    refine .of_succ rfl fun fuel => ?_
    rw [runBack_of_runsInto hruns hregs, if_pos hle]
  | deeper hruns hregs hle hstep _ ih =>
    refine ih.step rfl fun fuel => ?_
    rw [runBack_of_runsInto hruns hregs, if_neg hle, bind_of_ok hstep,
      if_neg (not_not_intro rfl)]

/-- The run ends without a stop to answer only if the process is back. -/
theorem runsBack_of_runBack (fuel : Nat) (s : Session σ) :
    Ensures (runBack ret callerSp fuel) s fun r t => r = .ok none → RunsBack ret callerSp s t := by
  induction fuel generalizing s with
  | zero => exact ensures_diverge
  | succ fuel ih =>
    refine Ensures.bind (ensures_self _ s) (fun stop u hresume => ?_) fun e u _ => nofun
    refine ensures_ite.2 ⟨fun _ => ensures_pure.2 nofun, fun hstop => ?_⟩
    obtain rfl := Decidable.not_not.1 hstop
    refine Ensures.bind (ensures_self _ u) (fun pc v hrewind => ?_) fun e v _ => nofun
    refine ensures_ite.2 ⟨fun _ => ensures_pure.2 nofun, fun hpc => ?_⟩
    obtain rfl := Decidable.not_not.1 hpc
    have hruns : s.RunsInto pc v := ⟨u, hresume, hrewind⟩
    refine ensures_observe_bind.2 ?_
    rcases hregs : Tracee.registers v.process with e | regs
    · exact nofun
    refine ensures_ite.2 ⟨fun hle => ensures_pure.2 fun _ => .back hruns hregs hle, fun hle => ?_⟩
    -- in a deeper call
    refine Ensures.bind (ensures_self _ v) (fun stop w hstep => ?_) fun e w _ => nofun
    refine ensures_ite.2 ⟨fun _ => ensures_pure.2 nofun, fun hstop => ?_⟩
    obtain rfl := Decidable.not_not.1 hstop
    exact (ih w).mono fun r t hback hr => .deeper hruns hregs hle hstep (hback hr)

/-- A stop is always answered. -/
theorem answerFor_ne_none (stop : Stop) (s : Session σ) :
    Ensures (answerFor (some stop)) s fun r _ => r ≠ .ok none := by
  have hanswer (x : Task σ Feedback) : Ensures (do return some (← x)) s fun r _ => r ≠ .ok none :=
    (ensures_self x s).bind (fun _ _ _ => ensures_pure.2 nofun) fun _ _ _ => nofun
  unfold answerFor
  split
  next h => cases h
  next => exact (ensures_self _ s).bind (fun _ _ _ => ensures_pure.2 nofun) fun _ _ _ => nofun
  next h => exact hanswer _

/-- A completed run to a return is one that enough fuel comes to. -/
theorem ReturnsTo.yields (h : s.ReturnsTo ret callerSp t) :
    Yields (fun fuel => runToReturn fuel ret callerSp s) (.ok none, t) := by
  cases h with
  | armed harmed hback =>
    obtain ⟨n, hn⟩ := hback.yields
    refine ⟨n, fun fuel => ?_⟩
    dsimp only
    rw [runToReturn_eq, if_pos harmed]
    exact bind_of_bounded (hn fuel)
  | free hfree hset hback htake =>
    obtain ⟨n, hn⟩ := hback.yields
    refine ⟨n, fun fuel => ?_⟩
    dsimp only
    rw [runToReturn_eq, if_neg (by simp [hfree]), bind_of_ok hset, bind_of_bounded (hn fuel),
      bind_of_ok htake]
    rfl

/-- A run that gives no answer came back. -/
theorem returnsTo_of_runToReturn (fuel : Nat) (s : Session σ) :
    Ensures (runToReturn fuel ret callerSp) s fun r t =>
      r = .ok none → s.ReturnsTo ret callerSp t := by
  refine ensures_runToReturn.2 ⟨fun hfree => ?_, fun harmed => ?_⟩
  · refine (ensures_self _ s).bind (fun _ u hset => ?_) fun e u _ => nofun
    refine (runsBack_of_runBack fuel u).bind (fun outcome v hback => ?_) fun e v _ => nofun
    refine (ensures_self _ v).bind (fun _ w htake => ?_) fun e w _ => nofun
    rcases outcome with _ | stop
    · exact ensures_pure.2 fun _ => .free hfree hset (hback rfl) htake
    · exact (answerFor_ne_none stop w).mono fun r t hne hr => absurd hr hne
  · refine (runsBack_of_runBack fuel s).bind (fun outcome v hback => ?_) fun e v _ => nofun
    rcases outcome with _ | stop
    · exact ensures_pure.2 fun _ => .armed harmed (hback rfl)
    · exact (answerFor_ne_none stop v).mono fun r t hne hr => absurd hr hne

/-! ### Rounds of the command -/

/-- A round in which a single step leads to a boundary. -/
theorem stepFrom_of_afterStep (h : s.AfterStep pc t) : stepFrom start (fuel + 1) s =
    match t.lineOf pc with
      | .ok location =>
        if location = start then stepFrom start fuel t else some (.ok (t.stopFeedback pc), t)
      | .error _ => some (.ok (t.stopFeedback pc), t) := by
  obtain ⟨regs, info, hsteps, hcall⟩ := h
  have hpc : Session.pc t = some (.ok pc, t) := observe_of_ok hsteps.lands
  rw [stepFrom, bind_of_ok (observe_of_ok hsteps.registers), bind_of_ok hsteps.decodes,
    bind_of_ok hsteps.steps, if_neg (not_not_intro rfl), bind_of_ok hpc, get_bind_apply]
  -- code without lines is no call here, otherwise the step would have run back first
  rcases hline : t.lineOf pc with e | location
  · have hplain : info.isCall = false := by
      rw [hline] at hcall
      simpa using hcall
    simp only [hplain]
    rfl
  · by_cases hsame : location = start
    · simp only [hsame, ne_eq, not_true, if_false, if_true]
    · simp only [hsame, ne_eq, not_false_iff, if_false, if_true]
      rfl

/-- A round in which a call leads to a boundary, if there are enough steps for it. -/
theorem stepFrom_of_afterReturn (h : s.AfterReturn pc t) (start : SourceLocation) : ∃ n, ∀ fuel,
    stepFrom start (fuel + 1) s = if n ≤ fuel then
      match t.lineOf pc with
      | .ok location =>
        if location = start then stepFrom start fuel t else some (.ok (t.stopFeedback pc), t)
      | .error _ => stepFrom start fuel t
    else none := by
  obtain ⟨regs, info, entered, u, e, hsteps, hcall, hline, hreturns, hpc⟩ := h
  obtain ⟨n, hn⟩ := hreturns.yields
  -- as many rounds as the way back takes, and one for the step
  refine ⟨n, fun fuel => ?_⟩
  have hentered : Session.pc u = some (.ok entered, u) := observe_of_ok hsteps.lands
  have hback : Session.pc t = some (.ok pc, t) := observe_of_ok hpc
  rw [stepFrom, bind_of_ok (observe_of_ok hsteps.registers), bind_of_ok hsteps.decodes,
    bind_of_ok hsteps.steps, if_neg (not_not_intro rfl), bind_of_ok hentered, get_bind_apply]
  simp only [hline, hcall, Bool.not_true, Bool.false_eq_true, if_false]
  rw [bind_of_bounded (hn fuel)]
  refine congrArg (fun r => if n ≤ fuel then r else none) ((bind_of_ok hback).trans ?_)
  rw [get_bind_apply]
  -- behind the call, code without lines is run on
  rcases t.lineOf pc with e | location
  · rfl
  · by_cases hsame : location = start
    · simp only [hsame, ne_eq, not_true, if_false, if_true]
    · simp only [hsame, ne_eq, not_false_iff, if_false, if_true]
      rfl

/-- The command ends at the next boundary. -/
theorem EndsAt.yields (h : s.EndsAt start pc t) :
    Yields (fun fuel => stepFrom start fuel s) (.ok (t.stopFeedback pc), t) := by
  rcases h with ⟨location, hstep | hreturn, hline, hother⟩ | ⟨hstep, e, hline⟩
  · refine .of_succ rfl fun fuel => ?_
    simp only [stepFrom_of_afterStep hstep, hline, if_neg hother]
  · obtain ⟨n, hn⟩ := stepFrom_of_afterReturn hreturn start
    refine ⟨n + 1, fun fuel => ?_⟩
    cases fuel with
    | zero => rfl
    | succ fuel => simp only [hn, hline, if_neg hother, Nat.add_le_add_iff_right]
  · refine .of_succ rfl fun fuel => ?_
    simp only [stepFrom_of_afterStep hstep, hline]

/-- The command goes on from the next boundary, if there are enough steps to reach it. -/
theorem stepFrom_of_staysOn (h : s.StaysOn start t) : ∃ n, ∀ fuel,
    stepFrom start (fuel + 1) s = if n ≤ fuel then stepFrom start fuel t else none := by
  rcases h with ⟨pc, ⟨hstep | hreturn, hline⟩ | ⟨hreturn, e, hline⟩⟩
  · refine ⟨0, fun fuel => ?_⟩
    simp only [stepFrom_of_afterStep hstep, hline, if_true, Nat.zero_le]
  · simpa only [hline, if_true] using stepFrom_of_afterReturn hreturn start
  · simpa only [hline] using stepFrom_of_afterReturn hreturn start

/-- A boundary on the way takes a round more, and leads to the same end. -/
theorem StaysOn.yields {a : Except DebugError Feedback × Session σ} (h : s.StaysOn start t)
    (ht : Yields (fun fuel => stepFrom start fuel t) a) :
    Yields (fun fuel => stepFrom start fuel s) a := by
  obtain ⟨m, hm⟩ := stepFrom_of_staysOn h
  obtain ⟨n, hn⟩ := ht
  refine ⟨max m n + 1, fun fuel => ?_⟩
  cases fuel with
  | zero => rfl
  | succ fuel =>
    have := hm fuel
    have := hn fuel
    grind

/-- How the command begins. -/
theorem stepLine_eq {s₀ : Session σ} (halive : Tracee.isAlive s.process = true)
    (hclear : clearInternal s = some (.ok (), s₀)) (hpc : Tracee.pc s₀.process = .ok pc)
    (hline : s₀.lineOf pc = .ok start) (fuel : Nat) :
    stepLine fuel s = stepFrom start fuel s₀ := by
  have hensure : ensureAlive s = some (.ok (), s) := observe_of_ok (by rw [halive]; rfl)
  have hstands : Session.pc s₀ = some (.ok pc, s₀) := observe_of_ok hpc
  rw [stepLine, stepLineWith, bind_of_ok hensure, bind_of_ok hclear, bind_of_ok hstands,
    get_bind_apply, hline]

/-- When the operator steps, let the process stand on a line once the breakpoints that the step
engine left behind are cleared. Following the boundaries from there, as long as the command stays on
that line, it answers at the first one that leaves the line: it ends there, and nowhere else. As
long as nothing comes between, so that from each boundary there is a way to the next one, the
command comes to a boundary that leaves the line, unless it stays on the line for ever. -/
theorem stepLine_exact {s₀ : Session σ} (halive : Tracee.isAlive s.process = true)
    (hclear : clearInternal s = some (.ok (), s₀)) (hpc : Tracee.pc s₀.process = .ok pc)
    (hline : s₀.lineOf pc = .ok start) :
    (∀ u a t, ReflTransGen (StaysOn start) s₀ u → u.EndsAt start a t →
      ∃ n, ∀ fuel, stepLine fuel s =
        if n ≤ fuel then some (.ok (t.stopFeedback a), t) else none) ∧
    ((∀ u, ReflTransGen (StaysOn start) s₀ u → ∃ a t, u.Boundary a t) →
      (∃ u a t, ReflTransGen (StaysOn start) s₀ u ∧ u.EndsAt start a t) ∨
        ∀ fuel, stepLine fuel s = none) := by
  simp only [stepLine_eq halive hclear hpc hline]
  refine ⟨fun u a t hway hends => ?_, fun hnext => or_iff_not_imp_left.2 fun hnever fuel => ?_⟩
  · exact ReflTransGen.head_induction_on (motive := fun v _ => Yields (stepFrom start · v) _)
      hway hends.yields fun hstays _ ih => hstays.yields ih
  -- no boundary leaves the line, so each round is followed by another one
  · suffices hrounds : ∀ u, ReflTransGen (StaysOn start) s₀ u → stepFrom start fuel u = none from
      hrounds s₀ .refl
    induction fuel with
    | zero => exact fun u _ => rfl
    | succ fuel ih =>
      intro u hway
      obtain ⟨a, t, hboundary⟩ := hnext u hway
      have hstays : u.StaysOn start t := hboundary.staysOn_or_endsAt.resolve_right
        fun hends => hnever ⟨u, a, t, hway, hends⟩
      obtain ⟨n, hn⟩ := stepFrom_of_staysOn hstays
      rw [hn, ih t (hway.tail hstays), ite_self]

/-- A run to a return that some fuel came to is a completed one. -/
theorem afterReturn_of_runToReturn {entered : Addr} {e : DebugError}
    (h : s.StepsOnce regs info entered u) (hcall : info.isCall = true)
    (hline : u.lineOf entered = .error e)
    (hback : runToReturn fuel (regs.pc + UInt64.ofNat info.length) regs.stackPointer u =
      some (.ok none, t)) (hpc : Tracee.pc t.process = .ok pc) : s.AfterReturn pc t :=
  ⟨regs, info, entered, u, e, h, hcall, hline, returnsTo_of_runToReturn fuel u _ t hback rfl, hpc⟩

end Run

/-! ### A call into code without lines -/

/-- The session in which a part of a command ends. -/
def endOf {α : Type} (x : Task σ α) (s : Session σ) : Session σ := ((x s).map Prod.snd).getD s

omit [Tracee σ] in
/-- A result that is known leaves the session at its end. -/
theorem eq_endOf {α : Type} {x : Task σ α} {s : Session σ} {r : Except DebugError α}
    (h : (x s).map Prod.fst = some r) : x s = some (r, endOf x s) := by
  obtain ⟨⟨r', t⟩, hx, rfl⟩ := Option.map_eq_some_iff.1 h
  rw [endOf, hx]
  rfl

omit [Tracee σ] in
/-- The same for an answer that there is nothing to answer. -/
theorem eq_endOf_none {α : Type} {x : Task σ (Option α)} {s : Session σ}
    (h : (x s).any (·.1.toOption.any Option.isNone) = true) :
    x s = some (.ok none, endOf x s) := by
  obtain ⟨⟨r, t⟩, hx, hr⟩ := (Option.any_eq_true _ _).1 h
  rcases r with e | _ | a
  · cases hr
  · rw [endOf, hx]
    rfl
  · cases hr

/-- A session in which the program stands before a call. -/
def beforeCallee (entries : List DebugIndex.LineEntry) : Session Machine :=
  start (Machine.calls 10) (.ofEntries "/" entries) none .null ⟨"/", []⟩

/-- The call is executed. -/
def inCallee (entries : List DebugIndex.LineEntry) : Session Machine :=
  endOf stepOnce (beforeCallee entries)

/-- The process is back. -/
def behindCallee (entries : List DebugIndex.LineEntry) : Session Machine :=
  endOf (runToReturn 4 ⟨0x1005⟩ ⟨0x2010⟩) (inCallee entries)

/-- The instruction behind the call is executed, too. -/
def fartherOn (entries : List DebugIndex.LineEntry) : Session Machine :=
  endOf stepOnce (behindCallee entries)

/-- What is read before an instruction is executed, and what comes of it. -/
theorem StepsOnce.of_results {s : Session σ} {regs : Registers} {info : InstructionInfo}
    {first pc : Addr} {code : List UInt8} (hregisters : Tracee.registers s.process = .ok regs)
    (hfirst : regs.pc = first)
    (hread : (Tracee.readMemory s.process first X86.maxInstructionLength).map
      (s.breakpoints.unpatch first) = .ok code)
    (hdecode : InstructionInfo.decode code first = .ok info)
    (hsteps : (stepOnce s).map Prod.fst = some (.ok (.trap .singleStep)))
    (hlands : Tracee.pc (endOf stepOnce s).process = .ok pc) :
    s.StepsOnce regs info pc (endOf stepOnce s) where
  registers := hregisters
  decodes := by
    -- the bytes that are read are those of the program, with the traps taken out
    rw [hfirst, instructionAt, get_bind_apply]
    rcases hbytes : Tracee.readMemory s.process first X86.maxInstructionLength with e | bytes
    · rw [hbytes] at hread
      cases hread
    · rw [hbytes] at hread
      obtain rfl : s.breakpoints.unpatch first bytes = code := Except.ok.inj hread
      exact congrArg (fun r => some (r, s)) hdecode
  steps := eq_endOf hsteps
  lands := hlands

/-- The lines of the program, of which neither the function nor the code behind the call has one. -/
def lineOfCall : List DebugIndex.LineEntry :=
  [.record "a.c" 1 ⟨0x1000⟩ false, .sequence ⟨0x1000⟩ ⟨0x1005⟩]

/-- The first instruction is a call. -/
theorem decode_call : InstructionInfo.decode [0xe8, 2, 0, 0, 0, 0x90, 0xf4, 0x90, 0x90, 0xc3]
    ⟨0x1000⟩ = .ok ⟨5, true⟩ := by
  decide +kernel

/-- The instruction behind the call does nothing. -/
theorem decode_behindCall : InstructionInfo.decode [0x90, 0xf4, 0x90, 0x90, 0xc3] ⟨0x1005⟩ =
    .ok ⟨1, false⟩ := by
  decide +kernel

section Callee

variable {entries : List DebugIndex.LineEntry} (h : entries = unlinedCall ∨ entries = lineOfCall)
include h

/-- There is no breakpoint of the step engine yet. -/
theorem clearInternal_beforeCallee :
    clearInternal (beforeCallee entries) = some (.ok (), beforeCallee entries) := by
  rcases h with rfl | rfl <;> rfl

/-- The call leads to code without lines, so it is run to its return. -/
theorem afterReturn_beforeCallee :
    (beforeCallee entries).AfterReturn ⟨0x1005⟩ (behindCallee entries) := by
  have hsteps : (beforeCallee entries).StepsOnce (beforeCallee entries).process.regs ⟨5, true⟩
      ⟨0x1007⟩ (inCallee entries) := by
    refine .of_results ?_ ?_ ?_ decode_call ?_ ?_ <;> rcases h with rfl | rfl <;> decide +kernel
  refine afterReturn_of_runToReturn (e := .noLineInfo ⟨0x1007⟩) hsteps rfl ?_
    (eq_endOf_none ?_) ?_ <;> rcases h with rfl | rfl <;> decide +kernel

/-- Behind the call, a single step leads farther on. -/
theorem afterStep_behindCallee : (behindCallee entries).AfterStep ⟨0x1006⟩ (fartherOn entries) := by
  refine ⟨(behindCallee entries).process.regs, ⟨1, false⟩,
    .of_results ?_ ?_ ?_ decode_behindCall ?_ ?_, nofun⟩ <;>
    rcases h with rfl | rfl <;> decide +kernel

end Callee

/-- A call into code without lines is stepped over, and the process is back on the line of the
call. -/
theorem stepLine_exact_beforeCallee : ∃ n, ∀ fuel, stepLine fuel (beforeCallee unlinedCall) =
    if n ≤ fuel then
      some (.ok (.stopped ⟨0x1006⟩ (some ⟨"a.c", 2⟩) none), fartherOn unlinedCall)
    else none := by
  have hreturn := afterReturn_beforeCallee (.inl rfl)
  have hstep := afterStep_behindCallee (.inl rfl)
  have halive : Tracee.isAlive (beforeCallee unlinedCall).process = true := by decide +kernel
  have hpc : Tracee.pc (beforeCallee unlinedCall).process = .ok ⟨0x1000⟩ := by decide +kernel
  have hline : (beforeCallee unlinedCall).lineOf ⟨0x1000⟩ = .ok ⟨"a.c", 1⟩ := by decide +kernel
  obtain ⟨hfirst, -⟩ :=
    stepLine_exact halive (clearInternal_beforeCallee (.inl rfl)) hpc hline
  -- the line is known, but there is no file with it
  have hshown : (fartherOn unlinedCall).stopFeedback ⟨0x1006⟩ =
      .stopped ⟨0x1006⟩ (some ⟨"a.c", 2⟩) none :=
    stopFeedback_of_unreadable (e := FileSystem.failure .enoent) (by decide +kernel)
      (by decide +kernel)
  rw [← hshown]
  refine hfirst (behindCallee unlinedCall) ⟨0x1006⟩ _ (.single ⟨⟨0x1005⟩, .inl ⟨.inr hreturn, ?_⟩⟩)
    (.inl ⟨⟨"a.c", 2⟩, .inl hstep, ?_, ?_⟩) <;> decide +kernel

/-- The first boundary that is not on the line of the start is not always the one at which the
command ends: it goes on where a call returns to code without lines. -/
theorem not_stepLine_exact : ¬ ∀ (s s₀ u t : Session Machine) (first a : Addr)
    (line : SourceLocation), Tracee.isAlive s.process = true →
      clearInternal s = some (.ok (), s₀) → Tracee.pc s₀.process = .ok first →
      s₀.lineOf first = .ok line →
      ReflTransGen (fun v w => ∃ b, v.Boundary b w ∧ w.lineOf b = .ok line) s₀ u →
      u.Boundary a t → t.lineOf a ≠ .ok line →
      ∃ fuel, stepLine fuel s = some (.ok (t.stopFeedback a), t) := by
  intro hclaim
  have hreturn := afterReturn_beforeCallee (.inr rfl)
  have hstep := afterStep_behindCallee (.inr rfl)
  have hclear := clearInternal_beforeCallee (.inr rfl)
  have halive : Tracee.isAlive (beforeCallee lineOfCall).process = true := by decide +kernel
  have hpc : Tracee.pc (beforeCallee lineOfCall).process = .ok ⟨0x1000⟩ := by decide +kernel
  have hline : (beforeCallee lineOfCall).lineOf ⟨0x1000⟩ = .ok ⟨"a.c", 1⟩ := by decide +kernel
  have hback : (behindCallee lineOfCall).lineOf ⟨0x1005⟩ = .error (.noLineInfo ⟨0x1005⟩) := by
    decide +kernel
  have hfarther : (fartherOn lineOfCall).lineOf ⟨0x1006⟩ = .error (.noLineInfo ⟨0x1006⟩) := by
    decide +kernel
  obtain ⟨fuel, hfuel⟩ := hclaim _ _ _ _ ⟨0x1000⟩ ⟨0x1005⟩ ⟨"a.c", 1⟩ halive hclear hpc hline .refl
    (.inr hreturn) (by simp [hback])
  -- it ends behind the next instruction
  rw [stepLine_eq halive hclear hpc hline] at hfuel
  have hends : (behindCallee lineOfCall).EndsAt ⟨"a.c", 1⟩ ⟨0x1006⟩ (fartherOn lineOfCall) :=
    .inr ⟨hstep, _, hfarther⟩
  have hstays : (beforeCallee lineOfCall).StaysOn ⟨"a.c", 1⟩ (behindCallee lineOfCall) :=
    ⟨⟨0x1005⟩, .inr ⟨hreturn, _, hback⟩⟩
  have heq := (hstays.yields hends.yields).eq hfuel
  simp [stopFeedback] at heq

end Session

end SourceDebugger
