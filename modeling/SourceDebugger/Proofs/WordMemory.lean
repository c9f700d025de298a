import Mathlib
import SourceDebugger.Kernel.Basic
import SourceDebugger.Proofs.Memory
import SourceDebugger.Proofs.Reading
import SourceDebugger.TracedChild

/-!
# Memory that is accessed by words

A system lets a tracer read and write whole words of the memory of its processes, `WordMemory`. A
word that was read, in which some bytes were replaced and which was written back, changes just these
bytes: `AddressSpace.Stored.patch`.

The processes of a kernel have such a memory, whatever is mapped there.
-/

namespace SourceDebugger

/-! ### Addresses behind an address -/

namespace Addr

variable {addr : Addr} {i j : Nat}

/-- Without overflow, a distance is added as a number. -/
theorem toNat_add_ofNat (h : addr.toNat + i < 2 ^ 64) :
    (addr + UInt64.ofNat i).toNat = addr.toNat + i := by
  have hi : (UInt64.ofNat i).toNat = i := UInt64.toNat_ofNat_of_lt' (by rw [UInt64.size]; omega)
  have hsum : addr.add? (UInt64.ofNat i) = some (addr + UInt64.ofNat i) := if_pos (by rwa [hi])
  rw [toNat_add?_of_eq_some hsum, hi]

/-- A word does not go over the end of the address space. -/
theorem toNat_add_of_aligned (h : addr.toNat % wordBytes = 0) (hi : i < wordBytes) :
    (addr + UInt64.ofNat i).toNat = addr.toNat + i := by
  have hlt : addr.toNat < 2 ^ 64 := addr.val.toNat_lt
  rw [wordBytes] at h hi
  exact toNat_add_ofNat (by omega)

/-- Distances add up. -/
theorem add_ofNat_add_ofNat (addr : Addr) (i j : Nat) :
    addr + UInt64.ofNat i + UInt64.ofNat j = addr + UInt64.ofNat (i + j) := by
  rw [ext_iff_val, val_add, val_add, val_add, UInt64.ofNat_add, UInt64.add_assoc]

theorem add_zero (addr : Addr) : addr + UInt64.ofNat 0 = addr := by
  rw [ext_iff_val, val_add]
  exact UInt64.add_zero _

/-- Different distances lead to different addresses. -/
theorem add_ofNat_inj (hi : i < 2 ^ 64) (hj : j < 2 ^ 64)
    (h : addr + UInt64.ofNat i = addr + UInt64.ofNat j) : i = j := by
  have hval := (UInt64.add_right_inj _).1 (ext_iff_val.1 h)
  have hnat := congrArg UInt64.toNat hval
  rwa [UInt64.toNat_ofNat_of_lt' hi, UInt64.toNat_ofNat_of_lt' hj] at hnat

end Addr

/-! ### Bytes that are stored -/

/-- A memory has changed from `before` to `after` by bytes that were stored from an address on:
they are there, and all else is as it was. -/
structure AddressSpace.Stored (before after : AddressSpace) (addr : Addr) (data : List UInt8) :
    Prop where
  inside : ∀ i (h : i < data.length), after (addr + UInt64.ofNat i) = some data[i]
  outside : ∀ a, (∀ i < data.length, a ≠ addr + UInt64.ofNat i) → after a = before a

namespace AddressSpace.Stored

variable {m m' m'' : AddressSpace} {addr : Addr} {data rest : List UInt8}

/-- No bytes are stored anywhere. -/
theorem nil (m : AddressSpace) (addr : Addr) : m.Stored m addr [] := ⟨nofun, fun _ _ => rfl⟩

/-- Bytes that are stored in two parts, one behind the other. -/
theorem append (h : m.Stored m' addr data)
    (h' : m'.Stored m'' (addr + UInt64.ofNat data.length) rest)
    (hlength : data.length + rest.length ≤ 2 ^ 64) : m.Stored m'' addr (data ++ rest) where
  inside i hi := by
    rw [List.length_append] at hi
    -- an address in the first part is not written by the second, since together they do not wrap
    -- around
    rcases Nat.lt_or_ge i data.length with hlt | hge
    · rw [h'.outside, h.inside i hlt, List.getElem_append_left hlt]
      intro j hj heq
      rw [Addr.add_ofNat_add_ofNat] at heq
      have hij := Addr.add_ofNat_inj (by omega) (by omega) heq
      omega
    · obtain ⟨j, rfl⟩ := Nat.exists_eq_add_of_le hge
      rw [← Addr.add_ofNat_add_ofNat, h'.inside j (by omega),
        List.getElem_append_right (by omega)]
      simp
  outside a ha := by
    rw [List.length_append] at ha
    rw [h'.outside, h.outside]
    · exact fun i hi => ha i (by omega)
    · intro j hj
      rw [Addr.add_ofNat_add_ofNat]
      exact ha (data.length + j) (by omega)

end AddressSpace.Stored

/-! ### Words of memory -/

/-- The bytes of a word in memory. -/
def wordBytesOf (word : UInt64) : List UInt8 := toLittleEndian wordBytes word.toNat

/-- A word has eight bytes. -/
theorem length_wordBytesOf (word : UInt64) : (wordBytesOf word).length = wordBytes :=
  length_toLittleEndian _ _

/-- Eight bytes are those of the word that they stand for. -/
theorem wordBytesOf_littleEndian {bs : List UInt8} (h : bs.length = wordBytes) :
    wordBytesOf (UInt64.ofNat (littleEndian bs)) = bs := by
  have hlt := ByteReader.littleEndian_lt bs
  rw [h] at hlt
  rw [wordBytesOf, UInt64.toNat_ofNat_of_lt' hlt, ← h, ByteReader.toLittleEndian_littleEndian]

namespace TracedChild

/-- The word of an address starts at the multiple of eight below it. -/
theorem toNat_wordStart (addr : Addr) :
    (wordStart addr).toNat = addr.toNat / wordBytes * wordBytes := by
  have hlt : addr.toNat < 2 ^ 64 := addr.val.toNat_lt
  exact UInt64.toNat_ofNat_of_lt' (Nat.lt_of_le_of_lt (Nat.div_mul_le_self _ _) hlt)

/-- A word starts at a multiple of eight. -/
theorem wordStart_mod (addr : Addr) : (wordStart addr).toNat % wordBytes = 0 := by
  rw [toNat_wordStart]
  exact Nat.mul_mod_left _ _

/-- A byte is in its word at its place. -/
theorem wordStart_add_placeInWord (addr : Addr) :
    wordStart addr + UInt64.ofNat (placeInWord addr) = addr := by
  have hlt : addr.toNat < 2 ^ 64 := addr.val.toNat_lt
  have hsum : (wordStart addr).toNat + placeInWord addr = addr.toNat := by
    rw [toNat_wordStart, placeInWord, Nat.div_add_mod']
  rw [← Addr.toNat_inj, Addr.toNat_add_ofNat (by omega), hsum]

/-- The bytes of a word in which some are replaced. -/
theorem wordBytesOf_patchWord (word : UInt64) {place : Nat} {data : List UInt8}
    (h : place + data.length ≤ wordBytes) :
    wordBytesOf (patchWord word place data) =
      (wordBytesOf word).take place ++ data ++ (wordBytesOf word).drop (place + data.length) := by
  refine wordBytesOf_littleEndian ?_
  simp only [List.length_append, List.length_take, List.length_drop, length_toLittleEndian]
  omega

end TracedChild

open TracedChild in
/-- A word that was read and is stored again with some bytes replaced changes just these. -/
theorem AddressSpace.Stored.patch {m m' : AddressSpace} {addr : Addr} {word : UInt64}
    {data : List UInt8} (hlength : placeInWord addr + data.length ≤ wordBytes)
    (hword : ∀ i < wordBytes, m (wordStart addr + UInt64.ofNat i) = (wordBytesOf word)[i]?)
    (h : m.Stored m' (wordStart addr) (wordBytesOf (patchWord word (placeInWord addr) data))) :
    m.Stored m' addr data := by
  -- the data starts at its place in the word
  have haddr (i : Nat) :
      addr + UInt64.ofNat i = wordStart addr + UInt64.ofNat (placeInWord addr + i) := by
    rw [← Addr.add_ofNat_add_ofNat, wordStart_add_placeInWord]
  have hbytes := wordBytesOf_patchWord word hlength
  have hold := length_wordBytesOf word
  have hnew := length_wordBytesOf (patchWord word (placeInWord addr) data)
  have htake : ((wordBytesOf word).take (placeInWord addr)).length = placeInWord addr := by
    rw [List.length_take]
    omega
  constructor
  · intro i hi
    rw [haddr, h.inside _ (by omega), ← List.getElem?_eq_getElem, hbytes, List.append_assoc,
      List.getElem?_append_right (by omega), htake, Nat.add_sub_cancel_left,
      List.getElem?_append_left hi, List.getElem?_eq_getElem hi]
  · intro a ha
    by_cases hin : ∃ j < wordBytes, a = wordStart addr + UInt64.ofNat j
    · -- another byte of the word is stored as it was read
      obtain ⟨j, hj, rfl⟩ := hin
      have hplace : j < placeInWord addr ∨ placeInWord addr + data.length ≤ j := by
        by_contra hinside
        refine ha (j - placeInWord addr) (by omega) ?_
        rw [haddr]
        congr
        omega
      rw [h.inside j (by omega), ← List.getElem?_eq_getElem, hbytes, hword j hj]
      rcases hplace with hlt | hge
      · rw [List.append_assoc, List.getElem?_append_left (by omega), List.getElem?_take_of_lt hlt]
      · rw [List.getElem?_append_right (by rw [List.length_append]; omega), List.length_append,
          htake, List.getElem?_drop]
        congr 1
        omega
    · refine h.outside a fun j hj heq => hin ⟨j, ?_, heq⟩
      rwa [hnew] at hj

/-! ### Systems that give access to words -/

/-- A system that gives access to the memory of its processes by whole words. An access either does
what it says or fails and changes nothing. -/
class WordMemory (ω : Type) [System ω] where
  /-- The memory of a process. -/
  memory : ω → Nat → AddressSpace
  memory_currentThread (s : ω) : memory (System.perform .currentThread s).2 = memory s
  /-- Reading changes nothing. -/
  memory_readWord (s : ω) (pid : Nat) {word : Addr} : word.toNat % wordBytes = 0 →
    memory (System.perform (.readWord pid word) s).2 pid = memory s pid
  /-- What was read is what is there. -/
  readWord_ok {s : ω} {pid : Nat} {word : Addr} {value : UInt64} : word.toNat % wordBytes = 0 →
    (System.perform (.readWord pid word) s).1 = .ok value →
    ∀ i < wordBytes, memory s pid (word + UInt64.ofNat i) = (wordBytesOf value)[i]?
  /-- What was written is there, and nothing else has changed. -/
  writeWord_ok {s : ω} {pid : Nat} {word : Addr} {value : UInt64} : word.toNat % wordBytes = 0 →
    (System.perform (.writeWord pid word value) s).1 = .ok () →
    (memory s pid).Stored (memory (System.perform (.writeWord pid word value) s).2 pid) word
      (wordBytesOf value)
  /-- A word that was not written has not changed. -/
  writeWord_error {s : ω} {pid : Nat} {word : Addr} {value : UInt64} {e : Errno} :
    word.toNat % wordBytes = 0 → (System.perform (.writeWord pid word value) s).1 = .error e →
    memory (System.perform (.writeWord pid word value) s).2 pid = memory s pid

namespace Kernel

namespace Memory

variable {mem : Memory}

/-- The bytes that are read are those that are there. -/
theorem getElem?_peek {addr count i : Nat} (h : i < (mem.peek addr count).length) :
    (mem.peek addr count)[i]? = mem.byte? (addr + i) := by
  induction count generalizing addr i with
  | zero => cases h
  | succ count ih =>
    rw [peek] at h ⊢
    rcases hbyte : mem.byte? addr with _ | b <;> rw [hbyte] at h
    · cases h
    cases i with
    | zero => exact hbyte.symm
    | succ i =>
      rw [List.getElem?_cons_succ, ih (Nat.lt_of_succ_lt_succ h), Nat.add_assoc, Nat.add_comm 1]

/-- There are no more bytes than asked for. -/
theorem length_peek_le (addr count : Nat) : (mem.peek addr count).length ≤ count := by
  induction count generalizing addr with
  | zero => exact le_rfl
  | succ count ih =>
    rw [peek]
    split
    · exact Nat.succ_le_succ (ih _)
    · exact Nat.zero_le _

/-- The byte of an address is that of the first mapping that contains it. -/
theorem byte?_eq (mem : Memory) (a : Nat) :
    mem.byte? a = (mem.mappings.find? (·.contains a)).bind (·.byte? a) := rfl

/-- A byte that is there is replaced, and no other one. -/
theorem byte?_pokeByte (mem : Memory) (addr a : Nat) (b : UInt8) :
    (mem.pokeByte addr b).byte? a =
      if a = addr then (mem.byte? a).map fun _ => b else mem.byte? a := by
  -- the mappings stay where they are
  have hplaces : (fun m : Mapping => m.contains a) ∘ (fun m : Mapping =>
      if m.contains addr then { m with bytes := m.bytes.set! (addr - m.start) b } else m) =
      fun m => m.contains a := by
    funext m
    simp only [Function.comp]
    split <;> rfl
  rw [byte?_eq, byte?_eq, pokeByte, List.find?_map, hplaces]
  rcases hfound : mem.mappings.find? (fun m => m.contains a) with _ | m
  · rw [hfound]
    simp only [Option.map_none, Option.bind_none, ite_self]
  rw [hfound]
  have hin := List.find?_some hfound
  have hset (place : Nat) : (m.bytes.set! (addr - m.start) b)[place]? =
      if addr - m.start = place then
        if addr - m.start < m.bytes.size then some b else none
      else m.bytes[place]? := Array.getElem?_setIfInBounds
  simp only [Option.map_some, Option.bind_some, Mapping.byte?]
  by_cases ha : a = addr
  · subst ha
    rw [if_pos hin, if_pos rfl, hset, if_pos rfl]
    split
    · rename_i hlt
      rw [getElem?_pos m.bytes _ hlt]
      rfl
    · rename_i hge
      rw [getElem?_neg m.bytes _ hge]
      rfl
  · simp only [Mapping.contains, Bool.and_eq_true, decide_eq_true_eq] at hin
    rw [if_neg ha]
    split
    · rename_i haddr
      simp only [Mapping.contains, Bool.and_eq_true, decide_eq_true_eq] at haddr
      dsimp only
      rw [hset, if_neg (by omega)]
    · rfl

/-- Bytes elsewhere are not replaced. -/
theorem byte?_poke_outside (data : List UInt8) {addr a : Nat}
    (h : a < addr ∨ addr + data.length ≤ a) : (mem.poke addr data).byte? a = mem.byte? a := by
  induction data generalizing mem addr with
  | nil => rfl
  | cons b rest ih =>
    rw [List.length_cons] at h
    rw [poke, ih (by omega), byte?_pokeByte, if_neg (by omega)]

/-- Bytes that are there are replaced. -/
theorem byte?_poke_inside {data : List UInt8} {addr : Nat}
    (hthere : ∀ i < data.length, mem.byte? (addr + i) ≠ none) (i : Nat) (h : i < data.length) :
    (mem.poke addr data).byte? (addr + i) = some data[i] := by
  induction data generalizing mem addr i with
  | nil => cases h
  | cons b rest ih =>
    rw [poke]
    cases i with
    -- the byte itself is written first, and none of the others comes back to it
    | zero =>
      obtain ⟨old, hold⟩ := Option.ne_none_iff_exists'.1 (hthere 0 h)
      rw [byte?_poke_outside rest (by omega), byte?_pokeByte, Nat.add_zero, if_pos rfl]
      rw [Nat.add_zero] at hold
      rw [hold]
      rfl
    | succ i =>
      -- the other addresses are still there
      have hrest : ∀ j < rest.length, (mem.pokeByte addr b).byte? (addr + 1 + j) ≠ none := by
        intro j hj
        rw [byte?_pokeByte, if_neg (by omega), Nat.add_right_comm]
        exact hthere (j + 1) (Nat.succ_lt_succ hj)
      have hbehind := ih hrest i (Nat.lt_of_succ_lt_succ h)
      rwa [Nat.add_right_comm] at hbehind

end Memory

section Children

variable {k : Kernel} {pid : Nat} {p : Process}

/-- A child that is stopped is one of the children. -/
theorem child?_of_stopped (h : k.stopped pid = .ok p) : k.child? pid = some p := by
  unfold stopped at h
  split at h
  · rename_i hchild
    split at h
    · cases h
      exact hchild
    · cases h
  · cases h

/-- A child is found in its new state. -/
theorem child?_put (h : k.child? pid = some p) (p' : Process) (hpid : p'.pid = p.pid) :
    (k.put p').child? pid = some { p' with output := .empty, errorOutput := .empty } := by
  -- the children keep their numbers
  have hnumbers : (fun q : Process => decide (q.pid = pid)) ∘ (fun q : Process =>
      if q.pid = p'.pid then { p' with output := .empty, errorOutput := .empty } else q) =
      fun q => decide (q.pid = pid) := by
    funext q
    simp only [Function.comp]
    split
    · rename_i hq
      rw [hq]
    · rfl
  rw [child?] at h
  rw [child?, put, List.find?_map, hnumbers, h, Option.map_some, if_pos hpid.symm]

/-- The memory of a child. -/
def memory (k : Kernel) (pid : Nat) : AddressSpace := fun a =>
  (k.child? pid).bind fun p => p.processor.memory.byte? a.toNat

/-- The memory of a process is that of its processor. -/
theorem memory_of_child? (h : k.child? pid = some p) (a : Addr) :
    k.memory pid a = p.processor.memory.byte? a.toNat := by
  rw [memory, h, Option.bind_some]

end Children

section Words

variable {k : Kernel} {pid : Nat} {word : Addr} {value : UInt64}

/-- A word is read only if all of it is there. -/
theorem exists_of_readWord_ok
    (h : (System.perform (.readWord pid word) k).1 = (.ok value : Except Errno UInt64)) :
    ∃ p, k.child? pid = some p ∧ (p.processor.memory.peek word.toNat wordBytes).length = wordBytes ∧
      wordBytesOf value = p.processor.memory.peek word.toNat wordBytes := by
  change (k.stopped pid).bind (fun p =>
    let bytes := p.processor.memory.peek word.toNat wordBytes
    if bytes.length < wordBytes then Except.error Errno.eio
    else .ok (UInt64.ofNat (littleEndian bytes))) = .ok value at h
  rcases hstopped : k.stopped pid with e | p <;> rw [hstopped] at h
  · cases h
  dsimp only [Except.bind] at h
  split at h
  · cases h
  -- only a whole word has a value
  · rename_i hlong
    have hle := p.processor.memory.length_peek_le word.toNat wordBytes
    have hlength : (p.processor.memory.peek word.toNat wordBytes).length = wordBytes := by omega
    refine ⟨p, child?_of_stopped hstopped, hlength, ?_⟩
    cases h
    exact wordBytesOf_littleEndian hlength

/-- A word is written only if all of it is there. -/
theorem exists_of_writeWord_ok (h : (k.writeWord pid word value).1 = .ok ()) :
    ∃ p, k.child? pid = some p ∧ (p.processor.memory.peek word.toNat wordBytes).length = wordBytes ∧
      (k.writeWord pid word value).2 = k.put { p with processor := { p.processor with
        memory := p.processor.memory.poke word.toNat (wordBytesOf value) } } := by
  rw [writeWord] at h ⊢
  rcases hstopped : k.stopped pid with e | p <;> rw [hstopped] at h
  · cases h
  dsimp only at h ⊢
  split at h
  · cases h
  · rename_i hlong
    have hle := p.processor.memory.length_peek_le word.toNat wordBytes
    rw [if_neg hlong]
    refine ⟨p, child?_of_stopped hstopped, ?_, rfl⟩
    rw [wordBytes] at hle ⊢
    omega

/-- A word that could not be written changes nothing. -/
theorem writeWord_error_eq {e : Errno} (h : (k.writeWord pid word value).1 = .error e) :
    (k.writeWord pid word value).2 = k := by
  rw [writeWord] at h ⊢
  rcases hstopped : k.stopped pid with _ | p
  · rfl
  rw [hstopped] at h
  dsimp only at h ⊢
  split at h
  · rename_i hshort
    rw [if_pos hshort]
  · cases h

end Words

/-- A child that stands still gives access to its words. A word that is not there as a whole is
refused. -/
instance : WordMemory Kernel where
  memory := memory
  memory_currentThread _ := rfl
  memory_readWord _ _ _ _ := rfl
  readWord_ok haligned hread i hi := by
    obtain ⟨p, hchild, hlength, hbytes⟩ := exists_of_readWord_ok hread
    rw [memory_of_child? hchild, hbytes, Memory.getElem?_peek (by omega),
      Addr.toNat_add_of_aligned haligned hi]
  writeWord_ok {k pid word value} haligned hwrite := by
    obtain ⟨p, hchild, hlength, hafter⟩ := exists_of_writeWord_ok hwrite
    have hnew := length_wordBytesOf value
    have hmemory : memory (k.writeWord pid word value).2 pid = fun a =>
        (p.processor.memory.poke word.toNat (wordBytesOf value)).byte? a.toNat := by
      funext a
      have hput := child?_put hchild { p with processor := { p.processor with
        memory := p.processor.memory.poke word.toNat (wordBytesOf value) } } rfl
      rw [hafter]
      exact memory_of_child? hput a
    have hthere : ∀ i < (wordBytesOf value).length,
        p.processor.memory.byte? (word.toNat + i) ≠ none := by
      intro i hi
      have hread : i < (p.processor.memory.peek word.toNat wordBytes).length := by omega
      rw [← Memory.getElem?_peek hread, List.getElem?_eq_getElem hread]
      exact Option.some_ne_none _
    change (memory k pid).Stored (memory (k.writeWord pid word value).2 pid) _ _
    rw [hmemory]
    constructor
    · intro i hi
      rw [Addr.toNat_add_of_aligned haligned (by omega)]
      exact Memory.byte?_poke_inside hthere i hi
    · intro a ha
      rw [memory_of_child? hchild]
      refine Memory.byte?_poke_outside _ ?_
      by_contra hinside
      refine ha (a.toNat - word.toNat) (by omega) ?_
      rw [← Addr.toNat_inj, Addr.toNat_add_of_aligned haligned (by omega)]
      omega
  writeWord_error {k pid word value e} _ hwrite := by
    change memory (k.writeWord pid word value).2 pid = memory k pid
    rw [writeWord_error_eq hwrite]

end Kernel

end SourceDebugger
