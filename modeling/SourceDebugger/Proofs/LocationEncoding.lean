import SourceDebugger.Location
import SourceDebugger.Proofs.Leb128Encoding

/-!
# Which location expressions are accepted

`LocationOp.Encodes` says how an operation is written: a code, and behind it all operands of the
code. A register number stands in the code or behind it, and LEB128 numbers can have more bytes than
they need, so an operation has many encodings. `takes_operands_iff` compares them with what is read,
one code after the other.

* `LocationOp.decode_encodes`: decoding accepts the encodings and nothing else, every operation has
  one, and whatever stands behind an encoding is refused with its first byte.
-/

namespace SourceDebugger

open Leb128 Read ByteReader

/-! ### LEB128 numbers -/

/-- The bytes of an unsigned number, with none left. -/
def Leb128.IsRead (bs : List UInt8) (n : UInt64) : Prop := decodeUnsigned bs = .ok (n, bs.length)

/-- The bytes of a signed number, with none left. -/
def Leb128.IsReadSigned (bs : List UInt8) (n : Int64) : Prop := decodeSigned bs = .ok (n, bs.length)

/-- The bytes are taken if the reader stops behind the last of them. -/
theorem Read.Local.takes_iff {α : Type} {x : Read α} (hx : Local x) {bs : List UInt8} {a : α} :
    Takes x bs a ↔
      (x (ofList bs)).1.map ((·, (x (ofList bs)).2.position)) = .ok (a, bs.length) := by
  constructor
  · intro h
    have hread := h 0 []
    rw [List.append_nil, Nat.zero_add] at hread
    simp [ofList, hread, Except.map]
  -- a reader that ends at the end of its bytes has taken all of them
  · intro h
    rcases hread : x (ofList bs) with ⟨e | a', r⟩ <;>
      simp only [hread, Except.map, reduceCtorEq, Except.ok.injEq, Prod.mk.injEq] at h
    obtain ⟨rfl, hposition⟩ := h
    obtain ⟨cs, hcs, htakes⟩ := hx _ _ r hread
    have hsame := htakes 0 r.rest
    rw [← hcs] at hsame
    have hr : r.position = 0 + cs.length :=
      congrArg (·.2.position) (hread.symm.trans hsame)
    have hcs : bs = cs ++ r.rest := hcs
    have hlength := congrArg List.length hcs
    rw [List.length_append] at hlength
    have hrest : r.rest = [] := List.length_eq_zero_iff.1 (by omega)
    rwa [hcs, hrest, List.append_nil]

/-- What is taken for an unsigned number is what can be read as one. -/
theorem takes_uleb128_iff {bs : List UInt8} {n : UInt64} : Takes uleb128 bs n ↔ IsRead bs n :=
  local_uleb128.takes_iff

/-- What is taken for a signed number is what can be read as one. -/
theorem takes_sleb128_iff {bs : List UInt8} {n : Int64} :
    Takes sleb128 bs n ↔ IsReadSigned bs n :=
  local_sleb128.takes_iff

/-- The shortest encoding is one that can be read. -/
theorem isRead_encodeUnsigned (n : UInt64) : IsRead (encodeUnsigned n) n := by
  have h := shortest_unsigned.decode_encode n []
  rwa [List.append_nil] at h

/-- The same for signed numbers. -/
theorem isReadSigned_encodeSigned (n : Int64) : IsReadSigned (encodeSigned n) n := by
  have h := shortest_signed.decode_encode n []
  rwa [List.append_nil] at h

namespace LocationOp

/-- The bytes of an operation: its code and all of its operands. -/
inductive Encodes : LocationOp → List UInt8 → Prop
  /-- A fixed address in eight bytes. -/
  | address (a : UInt64) : Encodes (.address a) (0x03 :: toLittleEndian 8 a.toNat)
  /-- One of the first 32 registers has a code of its own. -/
  | register {n : Nat} : n < 32 → Encodes (.register n) [UInt8.ofNat (0x50 + n)]
  /-- The value of one of the first 32 registers, and an offset. -/
  | registerOffset {n : Nat} {offset : Int64} {bs : List UInt8} : n < 32 →
    IsReadSigned bs offset → Encodes (.registerOffset n offset) (UInt8.ofNat (0x70 + n) :: bs)
  /-- Any register. -/
  | anyRegister {n : UInt64} {bs : List UInt8} : IsRead bs n → n.toNat < 2 ^ 16 →
    Encodes (.register n.toNat) (0x90 :: bs)
  /-- The frame base and an offset. -/
  | frameBaseOffset {offset : Int64} {bs : List UInt8} : IsReadSigned bs offset →
    Encodes (.frameBaseOffset offset) (0x91 :: bs)
  /-- The value of any register, and an offset. -/
  | anyRegisterOffset {n : UInt64} {offset : Int64} {bs cs : List UInt8} : IsRead bs n →
    n.toNat < 2 ^ 16 → IsReadSigned cs offset →
    Encodes (.registerOffset n.toNat offset) (0x92 :: (bs ++ cs))
  /-- The canonical frame address. -/
  | callFrameCfa : Encodes .callFrameCfa [0x9c]

/-- The register number has at most 16 bits. -/
def Numbered : LocationOp → Prop
  | register n | registerOffset n _ => n < 2 ^ 16
  | _ => True

/-! ### Operands -/

theorem local_registerNumber : Local registerNumber :=
  local_uleb128.bind fun _ => .ite (.pure _) (.throw _)

/-- A register has a number below the limit, and numbers that are too large are refused. -/
theorem takes_registerNumber_iff {bs : List UInt8} {n : Nat} :
    Takes registerNumber bs n ↔ ∃ w, IsRead bs w ∧ w.toNat < 2 ^ 16 ∧ w.toNat = n := by
  rw [registerNumber, local_uleb128.takes_bind_iff fun _ => .ite (.pure _) (.throw _)]
  constructor
  · rintro ⟨w, cs, ds, rfl, hw, hn⟩
    split at hn
    · rename_i hlt
      obtain ⟨rfl, rfl⟩ := Takes.pure_iff.1 hn
      rw [List.append_nil]
      exact ⟨w, takes_uleb128_iff.1 hw, hlt, rfl⟩
    · exact (Takes.throw_iff.1 hn).elim
  · rintro ⟨w, hw, hlt, rfl⟩
    refine ⟨w, bs, [], (List.append_nil bs).symm, takes_uleb128_iff.2 hw, ?_⟩
    have hlt : w.toNat < UInt16.size := hlt
    rw [if_pos hlt]
    exact .pure _

/-- The operations from 0x50 on name a register in their code. -/
theorem operands_register {n : Nat} (h : n < 32) :
    operands (UInt8.ofNat (0x50 + n)) = pure (.register n) := by
  have hall : ∀ m : Fin 32, UInt8.ofNat (0x50 + m) ≠ 0x03 ∧
      (0x50 ≤ UInt8.ofNat (0x50 + m) ∧ UInt8.ofNat (0x50 + m) ≤ 0x6f) ∧
      (UInt8.ofNat (0x50 + m)).toNat - 0x50 = m := by decide
  obtain ⟨haddress, hrange, hn⟩ := hall ⟨n, h⟩
  rw [operands, if_neg haddress, if_pos hrange, hn]

/-- The operations from 0x70 on name a register in their code, with an offset behind it. -/
theorem operands_registerOffset {n : Nat} (h : n < 32) :
    operands (UInt8.ofNat (0x70 + n)) = do return .registerOffset n (← sleb128) := by
  have hall : ∀ m : Fin 32, UInt8.ofNat (0x70 + m) ≠ 0x03 ∧
      ¬ (0x50 ≤ UInt8.ofNat (0x70 + m) ∧ UInt8.ofNat (0x70 + m) ≤ 0x6f) ∧
      (0x70 ≤ UInt8.ofNat (0x70 + m) ∧ UInt8.ofNat (0x70 + m) ≤ 0x8f) ∧
      (UInt8.ofNat (0x70 + m)).toNat - 0x70 = m := by decide
  obtain ⟨haddress, hregister, hrange, hn⟩ := hall ⟨n, h⟩
  rw [operands, if_neg haddress, if_neg hregister, if_pos hrange, hn]

/-- A code in a range of 32 codes is that of a register. -/
theorem exists_code_eq {code first last : UInt8} (h : first ≤ code ∧ code ≤ last) (base : Nat)
    (hbase : first.toNat = base) (hwidth : last.toNat < base + 32) :
    ∃ n < 32, code.toNat - base = n ∧ code = UInt8.ofNat (base + n) := by
  have hfirst := UInt8.le_iff_toNat_le.1 h.1
  have hlast := UInt8.le_iff_toNat_le.1 h.2
  refine ⟨code.toNat - base, by omega, rfl, ?_⟩
  rw [Nat.add_sub_cancel' (hbase ▸ hfirst), UInt8.ofNat_toNat]

/-- The encodings are what is taken behind their codes. -/
theorem takes_operands_iff {code : UInt8} {bs : List UInt8} {op : LocationOp} :
    Takes (operands code) bs op ↔ Encodes op (code :: bs) := by
  constructor
  -- one branch for each range of codes, in the order of the program
  · intro h
    unfold operands at h
    split at h
    · subst code
      obtain ⟨a, ha, rfl⟩ := local_uint64.takes_map_iff.1 h
      rw [takes_uint64_iff.1 ha]
      exact .address a
    split at h
    · obtain ⟨n, hn, heq, hcode⟩ := exists_code_eq ‹_› 0x50 rfl (by decide)
      obtain ⟨rfl, rfl⟩ := Takes.pure_iff.1 h
      rw [heq, hcode]
      exact .register hn
    split at h
    · obtain ⟨n, hn, heq, hcode⟩ := exists_code_eq ‹_› 0x70 rfl (by decide)
      obtain ⟨offset, hoffset, rfl⟩ := local_sleb128.takes_map_iff.1 h
      rw [heq, hcode]
      exact .registerOffset hn (takes_sleb128_iff.1 hoffset)
    split at h
    · subst code
      obtain ⟨n, hn, rfl⟩ := local_registerNumber.takes_map_iff.1 h
      obtain ⟨w, hw, hlt, rfl⟩ := takes_registerNumber_iff.1 hn
      exact .anyRegister hw hlt
    split at h
    · subst code
      obtain ⟨offset, hoffset, rfl⟩ := local_sleb128.takes_map_iff.1 h
      exact .frameBaseOffset (takes_sleb128_iff.1 hoffset)
    split at h
    · subst code
      obtain ⟨n, cs, ds, rfl, hn, h⟩ :=
        (local_registerNumber.takes_bind_iff fun _ => local_sleb128.map).1 h
      obtain ⟨w, hw, hlt, rfl⟩ := takes_registerNumber_iff.1 hn
      obtain ⟨offset, hoffset, rfl⟩ := local_sleb128.takes_map_iff.1 h
      exact .anyRegisterOffset hw hlt (takes_sleb128_iff.1 hoffset)
    split at h
    · subst code
      obtain ⟨rfl, rfl⟩ := Takes.pure_iff.1 h
      exact .callFrameCfa
    · exact (Takes.throw_iff.1 h).elim
  · intro h
    cases h with
    | address a => exact (takes_uint64_iff.2 rfl).map rfl
    | register hn =>
      rw [operands_register hn]
      exact .pure _
    | registerOffset hn hoffset =>
      rw [operands_registerOffset hn]
      exact (takes_sleb128_iff.2 hoffset).map rfl
    | anyRegister hw hlt => exact (takes_registerNumber_iff.2 ⟨_, hw, hlt, rfl⟩).map rfl
    | frameBaseOffset hoffset => exact (takes_sleb128_iff.2 hoffset).map rfl
    | anyRegisterOffset hw hlt hoffset =>
      exact (takes_registerNumber_iff.2 ⟨_, hw, hlt, rfl⟩).bind
        ((takes_sleb128_iff.2 hoffset).map rfl)
    | callFrameCfa => exact .pure _

/-- Behind each code stand its operands, or it is refused. -/
theorem local_operands (code : UInt8) : Local (operands code) := by
  unfold operands
  refine .ite local_uint64.map (.ite (.pure _) (.ite local_sleb128.map ?_))
  refine .ite local_registerNumber.map (.ite local_sleb128.map (.ite ?_ ?_))
  · exact local_registerNumber.bind fun _ => local_sleb128.map
  · exact .ite (.pure _) (.throw _)

/-! ### Expressions -/

/-- An expression is decoded if and only if it encodes an operation. -/
theorem decode_eq_ok_iff {e : List UInt8} {op : LocationOp} :
    decode e = .ok op ↔ Encodes op e := by
  rcases e with _ | ⟨code, data⟩
  -- nothing may be left behind the operands
  · exact iff_of_false nofun nofun
  rw [← takes_operands_iff]
  constructor
  · intro h
    rw [decode] at h
    rcases hread : operands code (ofList data) with ⟨err | decoded, r⟩ <;> rw [hread] at h
    · cases h
    rcases r with ⟨position, _ | ⟨next, rest⟩⟩
    · cases h
      exact (local_operands code).takes hread
    · cases h
  · intro h
    have hread := h 0 []
    rw [List.append_nil] at hread
    rw [decode, ofList, hread]

/-- Bytes behind an operation are refused with the first of them. -/
theorem decode_append_cons {e : List UInt8} {op : LocationOp} (h : Encodes op e) (b : UInt8)
    (rest : List UInt8) : decode (e ++ b :: rest) = .error (.unsupportedLocation b) := by
  rcases e with _ | ⟨code, data⟩
  · cases h
  rw [List.cons_append, decode, ofList, takes_operands_iff.2 h]

/-- An operation has an encoding if its register has a number. -/
theorem exists_encodes_iff {op : LocationOp} : (∃ e, Encodes op e) ↔ op.Numbered := by
  constructor
  · rintro ⟨e, h⟩
    cases h with
    | register hn | registerOffset hn _ => exact Nat.lt_trans hn (by decide)
    | anyRegister _ hlt | anyRegisterOffset _ hlt _ => exact hlt
    | address | frameBaseOffset | callFrameCfa => trivial
  -- numbers up to 16 bits have an encoding with a number of their own
  · intro h
    have hword {n : Nat} (hn : n < 2 ^ 16) : (UInt64.ofNat n).toNat = n :=
      UInt64.toNat_ofNat_of_lt' (Nat.lt_trans hn (by decide))
    cases op with
    | address a => exact ⟨_, .address a⟩
    | register n =>
      have hencodes := Encodes.anyRegister (isRead_encodeUnsigned (.ofNat n)) (by rwa [hword h])
      rw [hword h] at hencodes
      exact ⟨_, hencodes⟩
    | registerOffset n offset =>
      have hencodes := Encodes.anyRegisterOffset (isRead_encodeUnsigned (.ofNat n))
        (by rwa [hword h]) (isReadSigned_encodeSigned offset)
      rw [hword h] at hencodes
      exact ⟨_, hencodes⟩
    | frameBaseOffset offset => exact ⟨_, .frameBaseOffset (isReadSigned_encodeSigned offset)⟩
    | callFrameCfa => exact ⟨_, .callFrameCfa⟩

/-- An expression is decoded to an operation exactly if it is one of its encodings. Each operation
has an encoding, from which it is decoded, and bytes behind an encoding are refused with the first
of them. -/
theorem decode_encodes :
    (∀ e op, decode e = .ok op ↔ Encodes op e) ∧
      (∀ op, op.Numbered ↔ ∃ e, Encodes op e ∧ decode e = .ok op) ∧
      ∀ e op b rest, Encodes op e → decode (e ++ b :: rest) = .error (.unsupportedLocation b) := by
  refine ⟨fun e op => decode_eq_ok_iff, fun op => ?_,
    fun e op b rest h => decode_append_cons h b rest⟩
  simp only [decode_eq_ok_iff, and_self, exists_encodes_iff]

/-- A number with more bytes than it needs is read as well, and a second operation is refused. -/
theorem decode_encodes_padded :
    Encodes (.registerOffset 7 (-24)) [0x92, 0x87, 0x00, 0xe8, 0x7f] ∧
      decode [0x92, 0x87, 0x00, 0xe8, 0x7f] = .ok (.registerOffset 7 (-24)) ∧
      decode [0x92, 0x87, 0x00, 0xe8, 0x7f, 0x06] = .error (.unsupportedLocation 0x06) := by
  have hencodes : Encodes (.registerOffset 7 (-24)) [0x92, 0x87, 0x00, 0xe8, 0x7f] :=
    @Encodes.anyRegisterOffset 7 (-24) [0x87, 0x00] [0xe8, 0x7f] rfl (by decide) rfl
  exact ⟨hencodes, (decode_encodes.1 _ _).2 hencodes, decode_encodes.2.2 _ _ _ [] hencodes⟩

end LocationOp

end SourceDebugger
