/-!
# Signals

The signals of the system, by number and by name.
-/

namespace SourceDebugger

/-- A signal, told apart by its number. -/
structure Signal where
  /-- The number the system uses. -/
  number : Nat
deriving DecidableEq, Inhabited

namespace Signal

/-- The names of the signals 1 to 31, in order. -/
def names : List String :=
  ["SIGHUP", "SIGINT", "SIGQUIT", "SIGILL", "SIGTRAP", "SIGABRT", "SIGBUS", "SIGFPE",
   "SIGKILL", "SIGUSR1", "SIGSEGV", "SIGUSR2", "SIGPIPE", "SIGALRM", "SIGTERM", "SIGSTKFLT",
   "SIGCHLD", "SIGCONT", "SIGSTOP", "SIGTSTP", "SIGTTIN", "SIGTTOU", "SIGURG", "SIGXCPU",
   "SIGXFSZ", "SIGVTALRM", "SIGPROF", "SIGWINCH", "SIGIO", "SIGPWR", "SIGSYS"]

/-- The name of a signal. -/
def name (s : Signal) : String :=
  (names[s.number - 1]?).getD s!"signal {s.number}"

/-- The signal with this number, if there is one. -/
def ofNumber? (n : Nat) : Option Signal :=
  if 1 ≤ n ∧ n ≤ 31 then some ⟨n⟩ else none

/-- The signal with this name, if there is one. -/
def ofName? (s : String) : Option Signal :=
  (names.findIdx? (· == s)).map (⟨· + 1⟩)

/-- An illegal instruction. -/
def ill : Signal := ⟨4⟩

/-- A trap of the processor. -/
def trap : Signal := ⟨5⟩

/-- An access the bus refuses. -/
def bus : Signal := ⟨7⟩

/-- An arithmetic fault. -/
def fpe : Signal := ⟨8⟩

/-- The signal that ends a process and cannot be held back. -/
def kill : Signal := ⟨9⟩

/-- An access to memory that is not there. -/
def segv : Signal := ⟨11⟩

/-- The stop that cannot be held back. -/
def stop : Signal := ⟨19⟩

end Signal

end SourceDebugger
