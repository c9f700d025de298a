import SourceDebugger.CallFrame.Entry
import SourceDebugger.Debuggee
import SourceDebugger.Feedback
import SourceDebugger.Listing

/-!
# Sessions

A session debugs one program. Its commands work on the process and its breakpoints, with what is
known of the program: the index and the call frame information.
-/

namespace SourceDebugger

/-- The state of a session. -/
structure Session (σ : Type) where
  /-- The process and its breakpoints. -/
  debuggee : Debuggee σ
  /-- The index of the debug information. -/
  index : DebugIndex
  /-- The call frame information, if the program has any. -/
  frames : Option FrameIndex
  /-- The signal that stopped the process and is not delivered yet. -/
  pendingSignal : Option Signal
  /-- How far the program was moved from the addresses in its file. -/
  bias : Addr
  /-- How many lines are listed on each side of a line. -/
  listRange : UInt64
  /-- The files from which sources are listed. -/
  files : FileSystem

/-- A part of a command: it can fail, and there is no result if the process never stops. -/
abbrev Task (σ α : Type) := ExceptT DebugError (StateT (Session σ) Option) α

namespace Session

variable {σ : Type} [Tracee σ]

/-- A session for a process that stands before its first instruction. -/
def start (process : σ) (index : DebugIndex) (frames : Option FrameIndex) (bias : Addr)
    (files : FileSystem) : Session σ :=
  ⟨.ofProcess process, index, frames, none, bias, Listing.defaultRange, files⟩

/-- The process. -/
def process (s : Session σ) : σ := s.debuggee.process

/-- The breakpoints. -/
def breakpoints (s : Session σ) : BreakpointTable := s.debuggee.breakpoints

/-- Never gives a result. -/
def diverge {α : Type} : Task σ α := fun _ => none

/-- An operation on the process and its breakpoints. -/
def onDebuggee {α : Type} (x : Action (Debuggee σ) α) : Task σ α := fun s =>
  let (a, debuggee) := x s.debuggee
  some (a, { s with debuggee })

/-- An operation on the process. -/
def onProcess {α : Type} (x : Action σ α) : Task σ α := onDebuggee (Debuggee.onProcess x)

/-- What can be seen of the process. -/
def observe {α : Type} (f : σ → Except DebugError α) : Task σ α := fun s =>
  some (f s.process, s)

/-- Something that depends on the session. -/
def reading {α : Type} (f : Session σ → α) : Task σ α := fun s => some (.ok (f s), s)

/-- The address of the next instruction. -/
def pc : Task σ Addr := observe Tracee.pc

/-- Fails if the process is gone. -/
def ensureAlive : Task σ Unit :=
  observe fun p => if Tracee.isAlive p then .ok () else .error .processGone

/-- Clears the breakpoints that the step engine left behind. -/
def clearInternal : Task σ Unit := do
  let _ ← onDebuggee Debuggee.clearInternal

/-- Drops the breakpoints of the step engine from the table. -/
def discardInternal : Task σ Unit :=
  modify fun s => { s with debuggee := s.debuggee.discardInternal }

/-- The line of an address. -/
def lineOf (s : Session σ) (pc : Addr) : Except DebugError SourceLocation := s.index.resolveAddress pc

/-- The answer for a stop, with the source around it if it is known and can be read. -/
def stopFeedback (s : Session σ) (pc : Addr) : Feedback :=
  let location := (s.lineOf pc).toOption
  let listing := location.bind fun l => (Listing.read s.files l.file l.line s.listRange).toOption
  .stopped pc location listing

/-! ### What is shown of a stop -/

/-- What is shown of a stop at an address: its line, if it belongs to one, and the lines around that
one, if its file can be read. -/
structure ShowsStop (s : Session σ) (pc : Addr) (location : Option SourceLocation)
    (listing : Option Listing) : Prop where
  /-- The line is the one to which the address belongs. -/
  location_iff : ∀ l, location = some l ↔ s.index.resolveAddress pc = .ok l
  /-- The source is listed from the file of that line. -/
  listing_iff : ∀ shown, listing = some shown ↔ ∃ l content, s.index.resolveAddress pc = .ok l ∧
    s.files.readText l.file = .ok content ∧
    shown = Listing.ofSource l.file content l.line s.listRange

variable {s : Session σ} {pc : Addr}

omit [Tracee σ] in
/-- The answer for a stop is that the process stopped at the address, with what is shown of it. -/
theorem stopFeedback_eq_iff {feedback : Feedback} : s.stopFeedback pc = feedback ↔
    ∃ location listing, feedback = .stopped pc location listing ∧
      s.ShowsStop pc location listing := by
  have hshows : s.ShowsStop pc (s.lineOf pc).toOption ((s.lineOf pc).toOption.bind fun l =>
      (Listing.read s.files l.file l.line s.listRange).toOption) := by
    unfold lineOf Listing.read
    constructor
    · intro l
      rcases s.index.resolveAddress pc with e | l' <;> simp [Except.toOption]
    · intro shown
      rcases s.index.resolveAddress pc with e | l
      · simp [Except.toOption]
      · rcases hcontent : s.files.readText l.file with e | content
        · simp [Except.toOption, hcontent, bind, Except.bind]
        · simp [Except.toOption, hcontent, bind, Except.bind, pure, Except.pure, eq_comm]
  constructor
  · rintro rfl
    exact ⟨_, _, rfl, hshows⟩
  · rintro ⟨location, listing, rfl, hlocation, hlisting⟩
    obtain rfl : location = (s.lineOf pc).toOption :=
      Option.ext fun l => (hlocation l).trans (hshows.location_iff l).symm
    obtain rfl : listing = _ := Option.ext fun l => (hlisting l).trans (hshows.listing_iff l).symm
    rfl

omit [Tracee σ] in
/-- A stop on a line whose file cannot be read is shown without its source. -/
theorem stopFeedback_of_unreadable {l : SourceLocation} {e : DebugError}
    (hline : s.index.resolveAddress pc = .ok l) (hfile : s.files.readText l.file = .error e) :
    s.stopFeedback pc = .stopped pc (some l) none := by
  refine stopFeedback_eq_iff.2 ⟨_, _, rfl, fun l' => ?_, fun shown => ?_⟩
  · rw [hline, Option.some_inj, Except.ok.injEq]
  · refine iff_of_false nofun ?_
    rintro ⟨l', content, hl', hcontent, -⟩
    cases hline.symm.trans hl'
    cases hfile.symm.trans hcontent

end Session

end SourceDebugger
