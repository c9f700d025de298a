import SourceDebugger.Proofs.ReapedChild
import SourceDebugger.Proofs.WordMemory

/-!
# Writing memory by words

Memory is written in whole words, so a write that starts or ends within a word takes the other bytes
of it from what it has read before. Here it is shown that they stay as they are.

* `TracedChild.Wrote` says what a write leaves behind that got to some byte: what is in memory, and
  which requests were made for it.
* `TracedChild.WordsOutcome` lists what can come of a write. If the system fails to read or to write
  one of the words, the write ends in front of that word.
* `TracedChild.writeMemory_exact`: nothing else comes of a write of bytes that do not go over the
  end of the address space.
-/

namespace SourceDebugger

/-- A cause tells the error number that it comes from. -/
theorem DebugError.ofErrno_injective : Function.Injective DebugError.ofErrno := by
  intro e e' h
  unfold DebugError.ofErrno at h
  split at h <;> split at h
  · rename_i he he'
    rw [he, he']
  · cases h
  · cases h
  · exact DebugError.os.inj h

/-- A word that was read and written. -/
structure WordAccess where
  /-- Where the word starts. -/
  start : Addr
  /-- What was read. -/
  old : UInt64
  /-- What was written. -/
  new : UInt64

/-- The requests for it and their answers, the last one first. -/
def WordAccess.exchanges (pid : Nat) (x : WordAccess) : Transcript :=
  [⟨.writeWord pid x.start x.new, .ok ()⟩, ⟨.readWord pid x.start, .ok x.old⟩]

/-- The requests for a word one of which failed. -/
inductive WordRefused (pid : Nat) (start : Addr) (e : Errno) : Transcript → Prop
  | read : WordRefused pid start e [⟨.readWord pid start, .error e⟩]
  | write (old new : UInt64) : WordRefused pid start e
      [⟨.writeWord pid start new, .error e⟩, ⟨.readWord pid start, .ok old⟩]

namespace TracedChild

variable {ω : Type} [System ω] [WordMemory ω]

/-- The memory of a child. -/
def memory (c : TracedChild (Logged ω)) : AddressSpace := WordMemory.memory c.system.system c.pid

/-- The first bytes of `data` were stored from an address on, with one request to read and one to
write each word that they touch. The requests `last` were made behind these. -/
structure Wrote (c b : TracedChild (Logged ω)) (addr : Addr) (data : List UInt8) (count : Nat)
    (last : Transcript) : Prop where
  /-- But for the system, the child is as it was. -/
  child : b = { c with system := b.system }
  /-- The bytes are in memory, and nothing else there has changed. -/
  stored : c.memory.Stored b.memory addr (data.take count)
  /-- Each word that is touched was read and written once. -/
  accesses : ∃ xs : List WordAccess, (xs.map (·.start)).Nodup ∧
    (∀ word, word ∈ xs.map (·.start) ↔ ∃ i < count, wordStart (addr + UInt64.ofNat i) = word) ∧
    b.log = last ++ xs.flatMap (·.exchanges c.pid) ++ c.log

/-- What can come of a write. -/
inductive WordsOutcome (c : TracedChild (Logged ω)) (addr : Addr) (data : List UInt8) :
    Except DebugError Unit × TracedChild (Logged ω) → Prop
  /-- All is written. -/
  | done {b : TracedChild (Logged ω)} : Wrote c b addr data data.length [] →
      WordsOutcome c addr data (.ok (), b)
  /-- A request failed. What comes before its word is written, and nothing of the word itself. -/
  | failed {b : TracedChild (Logged ω)} {e : Errno} {count : Nat} {last : Transcript} :
      count < data.length → (count = 0 ∨ (addr.toNat + count) % wordBytes = 0) →
      WordRefused c.pid (wordStart (addr + UInt64.ofNat count)) e last →
      Wrote c b addr data count last →
      WordsOutcome c addr data (.error (.ofErrno e), b)

section Writes

variable {c b : TracedChild (Logged ω)} {addr : Addr} {data : List UInt8}

/-- Nothing is written. -/
theorem Wrote.nothing {system : ω} (h : WordMemory.memory system c.pid = c.memory)
    (addr : Addr) (data : List UInt8) (last : Transcript) :
    Wrote c { c with system := ⟨system, last ++ c.log⟩ } addr data 0 last where
  child := rfl
  stored := by
    have hmemory : memory { c with system := ⟨system, last ++ c.log⟩ } = c.memory := h
    rw [hmemory]
    exact .nil _ _
  accesses := ⟨[], List.nodup_nil, fun _ => iff_of_false nofun nofun, by
    rw [List.flatMap_nil, List.append_nil]
    rfl⟩

/-- Bytes of one word are written. -/
theorem Wrote.word {x : WordAccess} {system : ω} {count : Nat} (hx : x.start = wordStart addr)
    (hdata : data.length = count) (hpos : 0 < count) (hword : placeInWord addr + count ≤ wordBytes)
    (hfits : addr.toNat + count ≤ 2 ^ 64)
    (hstored : c.memory.Stored (WordMemory.memory system c.pid) addr data) :
    Wrote c { c with system := ⟨system, x.exchanges c.pid ++ c.log⟩ } addr data count [] where
  child := rfl
  stored := by
    rw [← hdata, List.take_length]
    exact hstored
  accesses := by
    refine ⟨[x], List.nodup_singleton _, fun word => ?_, rfl⟩
    -- all of these bytes are in the word of the first one
    have hsame : ∀ i < count, wordStart (addr + UInt64.ofNat i) = wordStart addr := by
      intro i hi
      rw [← Addr.toNat_inj, toNat_wordStart, toNat_wordStart, Addr.toNat_add_ofNat (by omega)]
      simp only [placeInWord, wordBytes] at hword ⊢
      omega
    rw [List.map_singleton, List.mem_singleton, hx]
    constructor
    · rintro rfl
      exact ⟨0, hpos, by rw [Addr.add_zero]⟩
    · rintro ⟨i, hi, rfl⟩
      exact hsame i hi

/-- One word of a write: it is read and written, and the write goes on behind it, or one of the two
fails and the write ends. -/
theorem writeWords_step (c : TracedChild (Logged ω)) (addr : Addr) (hdata : data ≠ [])
    (hfits : addr.toNat + data.length ≤ 2 ^ 64) :
    let count := min (wordBytes - placeInWord addr) data.length
    (∃ b e last, WordRefused c.pid (wordStart addr) e last ∧ Wrote c b addr data 0 last ∧
      writeWords addr data c = (.error (.ofErrno e), b)) ∨
    ∃ b, Wrote c b addr (data.take count) count [] ∧
      writeWords addr data c = writeWords (addr + UInt64.ofNat count) (data.drop count) b := by
  intro count
  obtain ⟨byte, rest, rfl⟩ := List.exists_cons_of_ne_nil hdata
  have haligned := wordStart_mod addr
  have hplace := placeInWord_lt addr
  -- reading the word leaves the memory, whether it succeeds or not
  have hkept := WordMemory.memory_readWord c.system.system c.pid haligned
  rw [writeWords, Action.bind_apply, Action.get_apply]
  dsimp only
  rw [Action.bind_apply, ask_apply]
  dsimp only
  rcases hread : System.perform (.readWord c.pid (wordStart addr)) c.system.system with ⟨e | old, s⟩
  · rw [hread] at hkept
    exact .inl ⟨_, e, _, .read, .nothing hkept _ _ _, rfl⟩
  have hshown := WordMemory.readWord_ok haligned (congrArg Prod.fst hread)
  rw [hread] at hkept
  dsimp only [accept]
  rw [Action.bind_apply, Action.pure_apply]
  dsimp only
  rw [Action.bind_apply, ask_apply]
  dsimp only
  rcases hwrite : System.perform (.writeWord c.pid (wordStart addr)
    (patchWord old (placeInWord addr) ((byte :: rest).take count))) s with ⟨e | _, s'⟩
  -- a refused write has written nothing
  · have hsame := WordMemory.writeWord_error haligned (congrArg Prod.fst hwrite)
    rw [hwrite] at hsame
    exact .inl ⟨_, e, _, .write old _, .nothing (hsame.trans hkept) _ _ _, rfl⟩
  -- the other bytes of the word are written as they were read
  · have hstored := WordMemory.writeWord_ok haligned (congrArg Prod.fst hwrite)
    rw [hwrite, hkept] at hstored
    have hle : count ≤ (byte :: rest).length := Nat.min_le_right _ _
    have hpos : 0 < (byte :: rest).length := Nat.succ_pos _
    have htake : ((byte :: rest).take count).length = count := List.length_take_of_le hle
    have hpatched := hstored.patch (by omega) hshown
    exact .inr ⟨_, .word (x := ⟨wordStart addr, old, _⟩) rfl htake (by omega) (by omega) (by omega)
      hpatched, rfl⟩

omit [System ω] [WordMemory ω] in
/-- Bytes on the two sides of the start of a word are in different words. -/
theorem wordStart_ne {a a' : Addr} (limit : Nat) (h : a.toNat < limit) (h' : limit ≤ a'.toNat)
    (hlimit : limit % wordBytes = 0) : wordStart a' ≠ wordStart a := by
  intro heq
  have hnat := congrArg Addr.toNat heq
  rw [toNat_wordStart, toNat_wordStart] at hnat
  simp only [wordBytes] at hnat hlimit
  omega

/-- A write that goes on where another one ended. -/
theorem Wrote.behind {d : TracedChild (Logged ω)} {rest : List UInt8} {count : Nat}
    {last : Transcript} (h : Wrote c b addr data data.length [])
    (h' : Wrote b d (addr + UInt64.ofNat data.length) rest count last)
    (hcount : count ≤ rest.length) (hfits : addr.toNat + (data.length + rest.length) ≤ 2 ^ 64)
    (hboundary : count = 0 ∨ (addr.toNat + data.length) % wordBytes = 0) :
    Wrote c d addr (data ++ rest) (data.length + count) last where
  child := by
    rw [h'.child, h.child]
  stored := by
    have hfirst := h.stored
    rw [List.take_length] at hfirst
    rw [List.take_length_add_append]
    exact hfirst.append h'.stored (by rw [List.length_take]; omega)
  accesses := by
    obtain ⟨xs, hnodup, hmem, hlog⟩ := h.accesses
    obtain ⟨ys, hnodup', hmem', hlog'⟩ := h'.accesses
    have hpid : b.pid = c.pid := by rw [h.child]
    refine ⟨ys ++ xs, ?_, fun word => ?_, ?_⟩
    -- no word is accessed twice, since the first part ended at a boundary
    · rw [List.map_append]
      refine List.nodup_append.2 ⟨hnodup', hnodup, fun w' hw' w hw => ?_⟩
      obtain ⟨j, hj, rfl⟩ := (hmem' w').1 hw'
      obtain ⟨i, hi, rfl⟩ := (hmem w).1 hw
      rw [Addr.add_ofNat_add_ofNat]
      refine wordStart_ne (addr.toNat + data.length) ?_ ?_ (by omega)
      · rw [Addr.toNat_add_ofNat (by omega)]
        omega
      · rw [Addr.toNat_add_ofNat (by omega)]
        omega
    -- each byte lies in exactly one of the parts
    · rw [List.map_append, List.mem_append, hmem, hmem']
      constructor
      · rintro (⟨j, hj, rfl⟩ | ⟨i, hi, rfl⟩)
        · exact ⟨data.length + j, by omega, by rw [Addr.add_ofNat_add_ofNat]⟩
        · exact ⟨i, by omega, rfl⟩
      · rintro ⟨i, hi, rfl⟩
        rcases Nat.lt_or_ge i data.length with hlt | hge
        · exact .inr ⟨i, hlt, rfl⟩
        · obtain ⟨j, rfl⟩ := Nat.exists_eq_add_of_le hge
          exact .inl ⟨j, by omega, by rw [Addr.add_ofNat_add_ofNat]⟩
    · rw [hlog', hlog, hpid, List.flatMap_append, List.nil_append, List.append_assoc,
        List.append_assoc, List.append_assoc]

/-- What comes of a write that goes on where another one ended. -/
theorem WordsOutcome.behind {rest : List UInt8} {r : Except DebugError Unit × TracedChild (Logged ω)}
    (h' : WordsOutcome b (addr + UInt64.ofNat data.length) rest r)
    (h : Wrote c b addr data data.length [])
    (hfits : addr.toNat + (data.length + rest.length) ≤ 2 ^ 64)
    (hboundary : rest = [] ∨ (addr.toNat + data.length) % wordBytes = 0) :
    WordsOutcome c addr (data ++ rest) r := by
  have hpid : b.pid = c.pid := by rw [h.child]
  rcases h' with hwrote | @⟨d, e, count, last, hlt, hplace, hrefused, hwrote⟩
  · have hall := h.behind hwrote le_rfl hfits (hboundary.imp_left List.length_eq_zero_iff.2)
    rw [← List.length_append] at hall
    exact .done hall
  -- the part that failed ends at a boundary, and it is counted from the start of the whole
  · have hword := hboundary.resolve_left (List.length_pos_iff.1 (by omega))
    rw [Addr.toNat_add_ofNat (by omega)] at hplace
    rw [Addr.add_ofNat_add_ofNat, hpid] at hrefused
    refine .failed ?_ (.inr ?_) hrefused (h.behind hwrote hlt.le hfits (.inr hword))
    · rw [List.length_append]
      omega
    · rw [← Nat.add_assoc]
      rcases hplace with rfl | hplace
      · exact hword
      · exact hplace

theorem WordsOutcome.of_ok {r : Except DebugError Unit × TracedChild (Logged ω)}
    (h : WordsOutcome c addr data r) (hok : r.1 = .ok ()) :
    Wrote c r.2 addr data data.length [] := by
  cases h with
  | done hwrote => exact hwrote
  | failed => cases hok

theorem WordsOutcome.of_error {r : Except DebugError Unit × TracedChild (Logged ω)} {e : Errno}
    (h : WordsOutcome c addr data r) (herror : r.1 = .error (.ofErrno e)) :
    ∃ count last, count < data.length ∧ (count = 0 ∨ (addr.toNat + count) % wordBytes = 0) ∧
      WordRefused c.pid (wordStart (addr + UInt64.ofNat count)) e last ∧
      Wrote c r.2 addr data count last := by
  cases h with
  | done => cases herror
  | failed hlt hplace hrefused hwrote =>
    cases DebugError.ofErrno_injective (Except.error.inj herror)
    exact ⟨_, _, hlt, hplace, hrefused, hwrote⟩

/-- The whole write, word by word. -/
theorem writeWords_outcome (c : TracedChild (Logged ω)) (addr : Addr) (data : List UInt8)
    (hfits : addr.toNat + data.length ≤ 2 ^ 64) :
    WordsOutcome c addr data (writeWords addr data c) := by
  induction addr, data using writeWords.induct generalizing c with
  | case1 addr =>
    rw [writeWords]
    exact .done (.nothing rfl addr [] [])
  | case2 addr byte rest data ih =>
    have hdata : data ≠ [] := List.cons_ne_nil byte rest
    change WordsOutcome c addr data (writeWords addr data c)
    change addr.toNat + data.length ≤ 2 ^ 64 at hfits
    clear_value data
    have hplace := placeInWord_lt addr
    have hpos := List.length_pos_iff.2 hdata
    have hstep := writeWords_step c addr hdata hfits
    dsimp only at ih hstep
    generalize hcount : min (wordBytes - placeInWord addr) data.length = count at hstep ih
    rcases hstep with ⟨b, e, last, hrefused, hwrote, hrun⟩ | ⟨b, hwrote, hrun⟩
    · rw [hrun]
      refine .failed hpos (.inl rfl) ?_ hwrote
      rwa [Addr.add_zero]
    -- the first word is written, and the rest starts at the next one
    have hboundary : data.drop count = [] ∨ (addr.toNat + count) % wordBytes = 0 := by
      rw [List.drop_eq_nil_iff]
      simp only [placeInWord, wordBytes] at hplace hcount ⊢
      omega
    have hsum : count + (data.drop count).length = data.length := by
      rw [List.length_drop]
      omega
    have hrest : (addr + UInt64.ofNat count).toNat + (data.drop count).length ≤ 2 ^ 64 := by
      have hend : (addr + UInt64.ofNat count).toNat < 2 ^ 64 := UInt64.toNat_lt _
      rcases Nat.eq_zero_or_pos (data.drop count).length with hnil | hcons
      · omega
      · rw [Addr.toNat_add_ofNat (by omega)]
        omega
    have hlater := ih b hrest
    have htake : (data.take count).length = count := by
      rw [List.length_take]
      omega
    rw [← hrun] at hlater
    have hall := WordsOutcome.behind (by rwa [htake]) (by rwa [htake]) (by omega) (by rwa [htake])
    rwa [List.take_append_drop] at hall

theorem memory_identified (c : TracedChild (Logged ω)) : c.identified.memory = c.memory :=
  congrFun (WordMemory.memory_currentThread c.system.system) c.pid

/-- A write changes exactly the bytes that it is given, by reading and writing each of their words
once, or it changes those in front of a word that the system fails to read or to write. Before that
it is asked which thread writes, and if this thread may not, or the child is gone, nothing else
happens. -/
theorem writeMemory_exact (c : TracedChild (Logged ω)) (addr : Addr) (data : List UInt8)
    (hfits : addr.toNat + data.length ≤ 2 ^ 64) :
    c.identified.memory = c.memory ∧ c.identified.log = ⟨.currentThread, c.thread⟩ :: c.log ∧
    if c.thread = c.tracer ∧ c.alive = true then
      WordsOutcome c.identified addr data (writeMemory addr data c)
    else writeMemory addr data c = (.error c.refusal, c.identified) := by
  refine ⟨memory_identified c, rfl, ?_⟩
  unfold writeMemory
  rw [Action.bind_apply, checkAccess_apply]
  split
  · exact writeWords_outcome c.identified addr data hfits
  · rfl

/-- A child of a kernel that stands still, with some bytes of memory from an address on. -/
def standing (start : Nat) (bytes : List UInt8) : TracedChild (Logged Kernel) :=
  let process : Kernel.Process :=
    { Kernel.Process.ofEnd Kernel.firstPid (.exited 0) with
      state := .stopped
      report := none
      processor := ⟨default, ⟨[⟨start, bytes.length, ⟨bytes.toArray⟩, true, true, none⟩]⟩⟩ }
  { system := ⟨{ Kernel.ofFiles default with children := [process] }, []⟩
    executable := "a.out"
    arguments := ["a.out"]
    pid := Kernel.firstPid
    alive := true
    tracer := 0 }

/-- Bytes in two words are written if both words are there. If the second one is there in part only,
the write ends behind the first one. -/
theorem writeMemory_exact_twoWords :
    let addr := Addr.ofNat 0x1005
    let data := [1, 2, 3, 4, 5]
    let whole := standing 0x1000 (List.replicate 16 0x90)
    let short := standing 0x1000 (List.replicate 12 0x90)
    (writeMemory addr data whole).1 = .ok () ∧
    Wrote whole.identified (writeMemory addr data whole).2 addr data 5 [] ∧
    (writeMemory addr data short).1 = .error (.ofErrno .eio) ∧
    ∃ last, WordRefused short.pid (.ofNat 0x1008) .eio last ∧
      Wrote short.identified (writeMemory addr data short).2 addr data 3 last := by
  -- the bytes cross a boundary after three of them, and the second word is not whole in `short`
  intro addr data whole short
  have hdone : (writeMemory addr data whole).1 = .ok () := by
    subst addr data whole
    decide +kernel
  have hrefused : (writeMemory addr data short).1 = .error (.ofErrno .eio) := by
    subst addr data short
    decide +kernel
  have hold : short.identified.memory addr = some 0x90 := by
    subst addr short
    decide +kernel
  have hnew : (writeMemory addr data short).2.memory addr = some 1 := by
    subst addr data short
    decide +kernel
  have hwhole : WordsOutcome whole.identified addr data _ :=
    (writeMemory_exact whole addr data (by decide)).2.2
  have hshort : WordsOutcome short.identified addr data _ :=
    (writeMemory_exact short addr data (by decide)).2.2
  refine ⟨hdone, hwhole.of_ok hdone, hrefused, ?_⟩
  obtain ⟨count, last, hlt, hplace, hword, hwrote⟩ := hshort.of_error hrefused
  have hcount : count = 0 ∨ count = 3 := by
    have hstart : addr.toNat = 0x1005 := rfl
    simp only [data, List.length_cons, List.length_nil, wordBytes] at hlt hplace
    omega
  rcases hcount with rfl | rfl
  · -- the first byte has changed
    have hkept := hwrote.stored.outside addr nofun
    rw [hold, hnew] at hkept
    cases hkept
  · have hstart : wordStart (addr + UInt64.ofNat 3) = .ofNat 0x1008 := by decide
    rw [hstart] at hword
    exact ⟨last, hword, hwrote⟩

end Writes

end TracedChild

end SourceDebugger
