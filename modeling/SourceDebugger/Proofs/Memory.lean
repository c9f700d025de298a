import SourceDebugger.Debuggee

/-!
# The memory of a process and the table of its breakpoints

A breakpoint is in two places: its trap is in the memory of the process, and the byte that the trap
replaced is in the table. `Coherent` says that the two agree: what is in memory is what the program
itself has there, except for one trap under each entry of the table.

Each of the ways in which the debugger touches a breakpoint keeps them so: `Coherent.arm`,
`Coherent.clear`, and `Coherent.rearm` for a breakpoint that was lifted for a while. So does the
program, as long as it does not write over a trap: `Coherent.follow`.
-/

namespace SourceDebugger

/-- The last address there is. -/
def Addr.last : Addr := ⟨UInt64.ofNat (UInt64.size - 1)⟩

/-- Only behind the last address the address space starts again. -/
theorem Addr.toNat_add_one {a : Addr} (h : a ≠ Addr.last) :
    (a + (1 : UInt64)).val.toNat = a.val.toNat + 1 := by
  have hval : a.val.toNat ≠ 2 ^ 64 - 1 := by
    intro hlast
    refine h (Addr.ext_iff_val.2 (UInt64.toNat_inj.1 ?_))
    rw [hlast]
    rfl
  have hlt := a.val.toNat_lt
  rw [Addr.val_add, UInt64.toNat_add]
  simp only [UInt64.toNat_one]
  omega

/-- The bytes at the addresses of a process; an address without memory has none. -/
abbrev AddressSpace := Addr → Option UInt8

namespace AddressSpace

/-- A memory with another byte at an address. -/
def store (m : AddressSpace) (addr : Addr) (byte : UInt8) : AddressSpace :=
  fun a => if a = addr then some byte else m a

/-- A byte that was stored is there. -/
@[simp]
theorem store_self (m : AddressSpace) (addr : Addr) (byte : UInt8) :
    m.store addr byte addr = some byte := by
  simp [store]

/-- All other bytes stay. -/
theorem store_of_ne (m : AddressSpace) {addr a : Addr} (byte : UInt8) (h : a ≠ addr) :
    m.store addr byte a = m a := by
  simp [store, h]

/-- The bytes from an address on, as far as there are any. -/
def bytesFrom (m : AddressSpace) (addr : Addr) : Nat → List UInt8
  | 0 => []
  | n + 1 =>
    match m addr with
    | some byte => byte :: bytesFrom m (addr + (1 : UInt64)) n
    | none => []

/-- What becomes of a memory when another one changes from `before` to `after`: it changes at the
same addresses in the same way. -/
def follow (before after own : AddressSpace) : AddressSpace :=
  fun a => if after a = before a then own a else after a

/-- Where the other memory stays, so does this one. -/
theorem follow_of_eq {before after own : AddressSpace} {a : Addr} (h : after a = before a) :
    follow before after own a = own a := if_pos h

/-- Where both agreed before, they agree afterwards. -/
theorem follow_of_agree {before after own : AddressSpace} {a : Addr} (h : before a = own a) :
    follow before after own a = after a := by
  unfold follow
  split
  · rename_i hkept
    rw [hkept, h]
  · rfl

end AddressSpace

/-- The memory of a process, as it can be read byte by byte. -/
def Tracee.memory {σ : Type} [Tracee σ] (p : σ) : AddressSpace := fun a =>
  match Tracee.readMemory p a 1 with
  | .ok [byte] => some byte
  | _ => none

/-- A byte that was read is the one in memory. -/
theorem Tracee.memory_of_readExact {σ : Type} [Tracee σ] {p : σ} {addr : Addr}
    {bytes : List UInt8} (h : Tracee.readExact p addr 1 = .ok bytes) :
    Tracee.memory p addr = some (bytes.headD 0) := by
  unfold Tracee.memory
  unfold Tracee.readExact at h
  rcases hread : Tracee.readMemory p addr 1 with e | data
  · simp [hread, bind, Except.bind] at h
  simp only [hread, bind, Except.bind] at h
  -- fewer bytes than asked for are a failure
  split at h
  · cases h
    rename_i hlength
    obtain ⟨byte, rfl⟩ := List.length_eq_one_iff.1 hlength
    rfl
  · cases h

namespace BreakpointTable

variable {table : BreakpointTable} {a addr : Addr} {b : Breakpoint}

/-- No two breakpoints of a table have the same address. -/
def Distinct (table : BreakpointTable) : Prop := (table.map (·.addr)).Nodup

/-- An address is armed if and only if there is a breakpoint at it. -/
theorem isArmed_iff : table.isArmed a = true ↔ ∃ b ∈ table, b.addr = a := by
  simp [isArmed, locate?]

/-- An address is free if and only if every breakpoint is elsewhere. -/
theorem isArmed_eq_false_iff : table.isArmed a = false ↔ ∀ b ∈ table, b.addr ≠ a := by
  rw [← Bool.not_eq_true, isArmed_iff]
  simp

/-- The address of a breakpoint in the table is armed. -/
theorem isArmed_of_mem (h : b ∈ table) : table.isArmed b.addr = true := isArmed_iff.2 ⟨b, h, rfl⟩

/-- What is found at an address is in the table, and at that address. -/
theorem mem_of_locate? (h : table.locate? a = some b) : b ∈ table ∧ b.addr = a := by
  have hfound := List.find?_some h
  exact ⟨List.mem_of_find?_eq_some h, by simpa using hfound⟩

/-- An address at which a breakpoint is found is armed. -/
theorem isArmed_of_locate? (h : table.locate? a = some b) : table.isArmed a = true := by
  simp [isArmed, h]

/-- An address at which none is found is free. -/
theorem isArmed_of_locate?_none (h : table.locate? a = none) : table.isArmed a = false := by
  simp [isArmed, h]

/-- What is armed without a breakpoint is armed with it. -/
theorem isArmed_of_without (h : (table.without addr).isArmed a = true) :
    table.isArmed a = true := by
  obtain ⟨b, hb, rfl⟩ := isArmed_iff.1 h
  exact isArmed_of_mem (List.eraseP_subset hb)

/-- Taking away the breakpoint at one address leaves the others armed. -/
theorem isArmed_without_of_ne (h : table.isArmed a = true) (hne : a ≠ addr) :
    (table.without addr).isArmed a = true := by
  obtain ⟨b, hb, rfl⟩ := isArmed_iff.1 h
  exact isArmed_of_mem ((List.mem_eraseP_of_neg (by simpa using hne)).2 hb)

/-- One more breakpoint arms its own address and no other. -/
theorem isArmed_append : isArmed (table ++ [b]) a = (table.isArmed a || decide (b.addr = a)) := by
  rw [Bool.eq_iff_iff]
  simp only [isArmed_iff, List.mem_append, List.mem_singleton, Bool.or_eq_true, decide_eq_true_eq]
  -- the old entries and the new one, in both directions
  constructor
  · rintro ⟨c, hc | rfl, rfl⟩
    · exact .inl ⟨c, hc, rfl⟩
    · exact .inr rfl
  · rintro (⟨c, hc, rfl⟩ | rfl)
    · exact ⟨c, .inl hc, rfl⟩
    · exact ⟨b, .inr rfl, rfl⟩

/-- A breakpoint at a free address can be added. -/
theorem Distinct.append (h : table.Distinct) (hfree : table.isArmed b.addr = false) :
    Distinct (table ++ [b]) := by
  unfold Distinct
  rw [List.map_append, List.nodup_append]
  refine ⟨h, by simp, ?_⟩
  intro x hx y hy
  obtain ⟨c, hc, rfl⟩ := List.mem_map.1 hx
  obtain rfl : y = b.addr := by simpa using hy
  exact isArmed_eq_false_iff.1 hfree c hc

/-- The first breakpoint is at another address than the others. -/
theorem distinct_cons :
    Distinct (b :: table) ↔ (∀ c ∈ table, c.addr ≠ b.addr) ∧ table.Distinct := by
  unfold Distinct
  rw [List.map_cons, List.nodup_cons, List.mem_map]
  simp

/-- In a table of distinct addresses, to take away the breakpoint at an address is to keep those at
the others. -/
theorem Distinct.without_eq (h : table.Distinct) :
    table.without a = table.filter (·.addr ≠ a) := by
  unfold BreakpointTable.without
  induction table with
  | nil => rfl
  | cons c rest ih =>
    obtain ⟨hothers, hrest⟩ := distinct_cons.1 h
    -- the first entry that matches is taken out, and no other one can match
    by_cases hc : c.addr = a
    · rw [List.eraseP_cons_of_pos (by simpa using hc), List.filter_cons_of_neg (by simpa using hc)]
      refine (List.filter_eq_self.2 ?_).symm
      intro x hx
      simpa [hc] using hothers x hx
    · rw [List.eraseP_cons_of_neg (by simpa using hc), List.filter_cons_of_pos (by simpa using hc),
        ih hrest]

/-- Taking away the breakpoint at an address leaves all others, and only them. -/
theorem Distinct.mem_without (h : table.Distinct) :
    b ∈ table.without a ↔ b ∈ table ∧ b.addr ≠ a := by
  rw [h.without_eq]
  simp

/-- The addresses stay distinct when a breakpoint is taken away. -/
theorem Distinct.without (h : table.Distinct) : (table.without a).Distinct :=
  h.sublist (List.Sublist.map _ List.eraseP_sublist)

/-- Taking away the breakpoint at an address frees that address and no other. -/
theorem Distinct.isArmed_without (h : table.Distinct) :
    (table.without addr).isArmed a = (table.isArmed a && decide (a ≠ addr)) := by
  rw [Bool.eq_iff_iff]
  simp only [isArmed_iff, h.mem_without, Bool.and_eq_true, decide_eq_true_eq]
  constructor
  · rintro ⟨b, ⟨hb, hne⟩, rfl⟩
    exact ⟨⟨b, hb, rfl⟩, hne⟩
  · rintro ⟨⟨b, hb, rfl⟩, hne⟩
    exact ⟨b, ⟨hb, hne⟩, rfl⟩

/-- Two breakpoints at one address are the same. -/
theorem Distinct.eq_of_addr (h : table.Distinct) {c : Breakpoint} (hb : b ∈ table) (hc : c ∈ table)
    (haddr : b.addr = c.addr) : b = c := by
  induction table with
  | nil => cases hb
  | cons d rest ih =>
    obtain ⟨hothers, hrest⟩ := distinct_cons.1 h
    -- both are the first entry, or neither, as the others have other addresses
    rcases List.mem_cons.1 hb with rfl | hb' <;> rcases List.mem_cons.1 hc with rfl | hc'
    · rfl
    · exact absurd haddr.symm (hothers c hc')
    · exact absurd haddr (hothers b hb')
    · exact ih hrest hb' hc'

/-- The breakpoints of the operator are those that are not where one of the step engine is. -/
theorem Distinct.user_eq (h : table.Distinct) :
    table.filter (·.addr ∉ (table.filter (·.kind = .internal)).map (·.addr)) = table.user := by
  refine List.filter_congr fun b hb => ?_
  have hiff : b.addr ∈ (table.filter (·.kind = .internal)).map (·.addr) ↔ b.kind = .internal := by
    rw [List.mem_map]
    constructor
    · rintro ⟨c, hc, haddr⟩
      obtain ⟨hc, hkind⟩ := List.mem_filter.1 hc
      rw [h.eq_of_addr hb hc haddr.symm]
      simpa using hkind
    · exact fun hkind => ⟨b, List.mem_filter.2 ⟨hb, by simpa using hkind⟩, rfl⟩
  rw [decide_eq_decide, hiff]
  cases b.kind <;> simp

/-- Among the breakpoints of the operator all are the operator's. -/
theorem user_user (table : BreakpointTable) : table.user.user = table.user :=
  List.filter_eq_self.2 fun _ hb => (List.mem_filter.1 hb).2

/-- A breakpoint of the step engine is none of the operator. -/
theorem user_append_internal (hkind : b.kind = .internal) : user (table ++ [b]) = table.user := by
  rw [user, List.filter_append, List.filter_cons_of_neg (by simp [hkind])]
  exact List.append_nil _

/-- A breakpoint is found at its address, since there is no other one. -/
theorem Distinct.locate?_of_mem (h : table.Distinct) (hb : b ∈ table) :
    table.locate? b.addr = some b := by
  rcases hfound : table.locate? b.addr with _ | c
  · have hfree := isArmed_of_locate?_none hfound
    rw [isArmed_of_mem hb] at hfree
    cases hfree
  · obtain ⟨hc, haddr⟩ := mem_of_locate? hfound
    rw [h.eq_of_addr hc hb haddr]

/-- A single byte is restored if and only if the breakpoint is at its address. -/
theorem restoreByte_singleton (base : Addr) (byte : UInt8) (b : Breakpoint) :
    restoreByte base [byte] b = if b.addr = base then [b.saved] else [byte] := by
  by_cases haddr : b.addr = base
  · simp [restoreByte, Addr.distanceFrom?, haddr]
  -- at another address the place is behind the only byte, or before it
  rw [if_neg haddr]
  unfold restoreByte Addr.distanceFrom?
  split
  · rename_i n hn
    split at hn
    · rename_i hle
      cases hn
      have hne : (b.addr.val - base.val).toNat ≠ 0 := by
        intro hzero
        rw [UInt64.toNat_sub_of_le _ _ hle] at hzero
        refine haddr (Addr.ext_iff_val.2 (UInt64.le_antisymm ?_ hle))
        rw [UInt64.le_iff_toNat_le]
        omega
      exact List.set_eq_of_length_le (Nat.one_le_iff_ne_zero.2 hne)
    · cases hn
  · rfl

/-- A byte under which there is no breakpoint stays as it is. -/
theorem unpatch_of_free {byte : UInt8} (h : table.isArmed a = false) :
    table.unpatch a [byte] = [byte] := by
  unfold unpatch
  induction table with
  | nil => rfl
  | cons c rest ih =>
    -- every entry leaves the byte alone
    rw [isArmed_eq_false_iff] at h
    rw [List.foldl_cons, restoreByte_singleton, if_neg (h c List.mem_cons_self)]
    exact ih (isArmed_eq_false_iff.2 fun b hb => h b (List.mem_cons_of_mem c hb))

/-- A trap is replaced by the byte that its breakpoint saves. -/
theorem Distinct.unpatch_of_mem (h : table.Distinct) (hb : b ∈ table) {byte : UInt8} :
    table.unpatch b.addr [byte] = [b.saved] := by
  -- the byte varies: the entries before the one in question leave it as it is
  induction table generalizing byte with
  | nil => cases hb
  | cons c rest ih =>
    obtain ⟨hothers, hrest⟩ := distinct_cons.1 h
    unfold BreakpointTable.unpatch
    rw [List.foldl_cons, restoreByte_singleton]
    rcases List.mem_cons.1 hb with rfl | hb'
    · rw [if_pos rfl]
      exact unpatch_of_free (isArmed_eq_false_iff.2 hothers)
    · rw [if_neg (Ne.symm (hothers b hb'))]
      exact ih hrest hb'

variable {base : Addr} {byte : UInt8} {bytes : List UInt8}

/-- The place of a breakpoint in bytes from an address on. -/
theorem restoreByte_eq (base : Addr) (bytes : List UInt8) (b : Breakpoint) :
    restoreByte base bytes b =
      if base.val.toNat ≤ b.addr.val.toNat then
        bytes.set (b.addr.val.toNat - base.val.toNat) b.saved
      else bytes := by
  unfold restoreByte Addr.distanceFrom?
  by_cases hle : base.val ≤ b.addr.val
  · rw [if_pos hle, if_pos (UInt64.le_iff_toNat_le.1 hle), ← UInt64.toNat_sub_of_le _ _ hle]
  · rw [if_neg hle, if_neg fun h => hle (UInt64.le_iff_toNat_le.2 h)]

/-- A breakpoint lies before some bytes, at the first of them, or behind it. -/
theorem restoreByte_cons (hlast : base ≠ Addr.last) (b : Breakpoint) :
    restoreByte base (byte :: bytes) b =
      restoreByte base [byte] b ++ restoreByte (base + (1 : UInt64)) bytes b := by
  simp only [restoreByte_eq, Addr.toNat_add_one hlast]
  rcases Nat.lt_trichotomy b.addr.val.toNat base.val.toNat with hlt | heq | hgt
  · rw [if_neg (by omega), if_neg (by omega), if_neg (by omega)]
    rfl
  · rw [if_pos (by omega), if_pos (by omega), if_neg (by omega), heq, Nat.sub_self]
    rfl
  · rw [if_pos (by omega), if_pos (by omega), if_pos (by omega)]
    obtain ⟨n, hn⟩ : ∃ n, b.addr.val.toNat = base.val.toNat + (n + 1) :=
      ⟨b.addr.val.toNat - base.val.toNat - 1, by omega⟩
    rw [hn, Nat.add_sub_cancel_left,
      show base.val.toNat + (n + 1) - (base.val.toNat + 1) = n by omega]
    rfl

/-- Where nothing was read there is nothing to restore. -/
theorem unpatch_nil (table : BreakpointTable) (base : Addr) : table.unpatch base [] = [] := by
  unfold unpatch
  induction table with
  | nil => rfl
  | cons c rest ih =>
    rw [List.foldl_cons, restoreByte_eq, List.set_nil, ite_self]
    exact ih

/-- One byte stays one byte. -/
theorem unpatch_singleton (table : BreakpointTable) (base : Addr) (byte : UInt8) :
    ∃ byte', table.unpatch base [byte] = [byte'] := by
  unfold unpatch
  induction table generalizing byte with
  | nil => exact ⟨byte, rfl⟩
  | cons c rest ih =>
    rw [List.foldl_cons, restoreByte_singleton]
    split
    · exact ih _
    · exact ih _

/-- The traps in a row of bytes are taken away byte by byte. -/
theorem unpatch_cons (hlast : base ≠ Addr.last) (table : BreakpointTable) :
    table.unpatch base (byte :: bytes) =
      table.unpatch base [byte] ++ table.unpatch (base + (1 : UInt64)) bytes := by
  unfold unpatch
  induction table generalizing byte bytes with
  | nil => rfl
  | cons c rest ih =>
    rw [List.foldl_cons, List.foldl_cons, List.foldl_cons, restoreByte_cons hlast]
    obtain ⟨byte', hbyte⟩ := unpatch_singleton [c] base byte
    rw [show restoreByte base [byte] c = [byte'] from hbyte]
    exact ih

/-- A memory with the bytes that the traps replaced put back. -/
def unpatched (table : BreakpointTable) (memory : AddressSpace) : AddressSpace := fun a =>
  (memory a).bind fun byte => (table.unpatch a [byte]).head?

end BreakpointTable

/-- A table of breakpoints and a memory agree, for a program that has `own` as its memory. -/
structure Coherent (table : BreakpointTable) (memory own : AddressSpace) : Prop where
  /-- No two breakpoints have the same address. -/
  distinct : table.Distinct
  /-- There is a trap at every breakpoint. -/
  trapped : ∀ b ∈ table, memory b.addr = some trapByte
  /-- Every breakpoint saves the byte of the program. -/
  saved : ∀ b ∈ table, own b.addr = some b.saved
  /-- Everything else is as the program has it. -/
  elsewhere : ∀ a, table.isArmed a = false → memory a = own a

namespace Coherent

open BreakpointTable

variable {table : BreakpointTable} {memory own : AddressSpace} {addr : Addr} {b : Breakpoint}

/-- Without breakpoints the memory is that of the program. -/
theorem nil (memory : AddressSpace) : Coherent [] memory memory where
  distinct := List.nodup_nil
  trapped := by simp
  saved := by simp
  elsewhere _ _ := rfl

/-- What the program has in memory is what is there once the traps are taken away. -/
theorem unpatched_eq (h : Coherent table memory own) : table.unpatched memory = own := by
  funext a
  unfold unpatched
  -- an address with a breakpoint and one without
  rcases harmed : table.isArmed a
  · rw [← h.elsewhere a harmed]
    rcases memory a with _ | byte
    · rfl
    · rw [Option.bind_some, unpatch_of_free harmed]
      rfl
  · obtain ⟨b, hb, rfl⟩ := isArmed_iff.1 harmed
    rw [h.trapped b hb, h.saved b hb, Option.bind_some, h.distinct.unpatch_of_mem hb]
    rfl

/-- The bytes of the program are those in memory once the traps are taken away. -/
theorem unpatch_bytesFrom (h : Coherent table memory own) (hlast : memory Addr.last = none)
    (addr : Addr) (count : Nat) :
    table.unpatch addr (memory.bytesFrom addr count) = own.bytesFrom addr count := by
  induction count generalizing addr with
  | zero => exact table.unpatch_nil addr
  | succ n ih =>
    have hown : own addr = (memory addr).bind fun byte => (table.unpatch addr [byte]).head? := by
      rw [← h.unpatched_eq]
      rfl
    rcases hbyte : memory addr with _ | byte <;> rw [hbyte] at hown
    · simp only [AddressSpace.bytesFrom, hbyte, hown, Option.bind_none]
      exact table.unpatch_nil addr
    -- there is a byte, so the address is not the last one
    have hne : addr ≠ Addr.last := by
      rintro rfl
      cases hlast.symm.trans hbyte
    obtain ⟨byte', hbyte'⟩ := table.unpatch_singleton addr byte
    rw [Option.bind_some, hbyte', List.head?_cons] at hown
    simp only [AddressSpace.bytesFrom, hbyte, hown]
    rw [unpatch_cons hne, hbyte', ih]
    rfl

/-- The byte that a breakpoint keeps is the one of the program. -/
theorem saved_of_locate? (h : Coherent table memory own) (hb : table.locate? addr = some b) :
    own addr = some b.saved := by
  obtain ⟨hmem, rfl⟩ := mem_of_locate? hb
  exact h.saved b hmem

/-- A breakpoint is set where there was none. -/
theorem arm (h : Coherent table memory own) (hfree : table.isArmed b.addr = false)
    (hsaved : memory b.addr = some b.saved) :
    Coherent (table ++ [b]) (memory.store b.addr trapByte) own where
  distinct := h.distinct.append hfree
  trapped c hc := by
    rcases List.mem_append.1 hc with hc | hc
    · rw [memory.store_of_ne _ (isArmed_eq_false_iff.1 hfree c hc)]
      exact h.trapped c hc
    · rw [List.mem_singleton.1 hc, AddressSpace.store_self]
  saved c hc := by
    rcases List.mem_append.1 hc with hc | hc
    · exact h.saved c hc
    · rw [List.mem_singleton.1 hc, ← h.elsewhere b.addr hfree, hsaved]
  elsewhere a ha := by
    simp only [isArmed_append, Bool.or_eq_false_iff, decide_eq_false_iff_not] at ha
    rw [memory.store_of_ne _ (Ne.symm ha.2)]
    exact h.elsewhere a ha.1

/-- A breakpoint is cleared, or lifted for a while. -/
theorem clear (h : Coherent table memory own) (hb : table.locate? addr = some b) :
    Coherent (table.without addr) (memory.store addr b.saved) own where
  distinct := h.distinct.without
  trapped c hc := by
    obtain ⟨hc, hne⟩ := h.distinct.mem_without.1 hc
    rw [memory.store_of_ne _ hne]
    exact h.trapped c hc
  saved c hc := h.saved c (h.distinct.mem_without.1 hc).1
  elsewhere a ha := by
    by_cases haddr : a = addr
    · rw [haddr, AddressSpace.store_self, h.saved_of_locate? hb]
    · rw [memory.store_of_ne _ haddr]
      apply h.elsewhere a
      rw [h.distinct.isArmed_without] at ha
      simpa [haddr] using ha

/-- A breakpoint that was lifted is put back, provided that the program still has the same byte
there. -/
theorem rearm (h : Coherent (table.without addr) memory own) (hdistinct : table.Distinct)
    (hb : table.locate? addr = some b) (hown : own addr = some b.saved) :
    Coherent table (memory.store addr trapByte) own where
  distinct := hdistinct
  trapped c hc := by
    -- the trap comes back at its own address, everything else was coherent without it
    by_cases hne : c.addr = addr
    · rw [hne, AddressSpace.store_self]
    · rw [memory.store_of_ne _ hne]
      exact h.trapped c (hdistinct.mem_without.2 ⟨hc, hne⟩)
  saved c hc := by
    by_cases hne : c.addr = addr
    · have hloc := hdistinct.locate?_of_mem hc
      rw [hne, hb] at hloc
      cases hloc
      rw [hne, hown]
    · exact h.saved c (hdistinct.mem_without.2 ⟨hc, hne⟩)
  elsewhere a ha := by
    have hne : a ≠ addr := by
      rintro rfl
      rw [isArmed_of_locate? hb] at ha
      cases ha
    rw [memory.store_of_ne _ hne]
    apply h.elsewhere a
    rw [hdistinct.isArmed_without, ha, Bool.false_and]

/-- The program changes its memory but no trap. -/
theorem follow {after : AddressSpace} (h : Coherent table memory own)
    (hkept : ∀ a, table.isArmed a = true → after a = memory a) :
    Coherent table after (AddressSpace.follow memory after own) where
  distinct := h.distinct
  trapped c hc := by
    rw [hkept c.addr (isArmed_of_mem hc)]
    exact h.trapped c hc
  saved c hc := by
    rw [AddressSpace.follow_of_eq (hkept c.addr (isArmed_of_mem hc))]
    exact h.saved c hc
  elsewhere a ha := (AddressSpace.follow_of_agree (h.elsewhere a ha)).symm

end Coherent

end SourceDebugger
