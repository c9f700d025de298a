import SourceDebugger.Proofs.EntryOffsets
import SourceDebugger.Proofs.LocationEncoding

/-!
# Sequences of reads

A cursor is read with operations of different kinds in any order, and some of them fail. `ReadOp`
names them, and `ReadOp.Means` says what the bytes stand for that a read moves over. Every read
moves over bytes that were left, `Read.Moves`, so that the cursor stays `Within` its data, and one
that fails does not move unless it is a LEB128 number. `rest` is the one operation that looks at
bytes without moving over them.

* `ReadOp.run_between`: after any reads, the next one moves forward within the data and gives the
  value of the bytes between, or fails where it is. Reading on comes to the end of the data unless a
  read takes nothing.
* `ReadOp.run_sleb128_modulo`: a number with a sign is given modulo 2^64, so that one that does not
  fit into a word is not refused.
-/

namespace SourceDebugger

open Leb128 Read ByteReader

/-! ### Reads and what they mean -/

/-- A read of the cursor. -/
inductive ReadOp where
  /-- One byte. -/
  | uint8
  /-- A word of two bytes. -/
  | uint16
  /-- A word of four bytes. -/
  | uint32
  /-- A word of eight bytes. -/
  | uint64
  /-- A block of known length. -/
  | bytes (count : Nat)
  /-- A text up to its NUL. -/
  | string
  /-- An unsigned LEB128 number. -/
  | uleb128
  /-- A signed LEB128 number. -/
  | sleb128
  /-- A look at all that was not read yet. -/
  | rest
deriving DecidableEq

/-- What a read gives. -/
inductive ReadValue where
  /-- A number. -/
  | number (n : Nat)
  /-- A number with a sign. -/
  | signed (n : Int)
  /-- Some bytes. -/
  | block (bs : List UInt8)
deriving DecidableEq

namespace ReadOp

/-- Does the read. -/
def run : ReadOp → Read ReadValue
  | uint8 => do return .number (← ByteReader.uint8).toNat
  | uint16 => do return .number (← ByteReader.uint16).toNat
  | uint32 => do return .number (← ByteReader.uint32).toNat
  | uint64 => do return .number (← ByteReader.uint64).toNat
  | bytes count => do return .block (← ByteReader.bytes count)
  | string => do return .block (← ByteReader.string)
  | uleb128 => do return .number (← ByteReader.uleb128).toNat
  | sleb128 => do return .signed (← ByteReader.sleb128).toInt
  | rest => do return .block (← get).rest

/-- Whether the read is one of a LEB128 number. -/
def isLeb128 : ReadOp → Bool
  | uleb128 | sleb128 => true
  | _ => false

/-- The cursor after some reads of `data`, whatever they gave. -/
def after (data : List UInt8) (ops : List ReadOp) : ByteReader :=
  ops.foldl (fun r op => (op.run r).2) (ofList data)

/-- The bytes weighted by the powers of 256. -/
def byteSum (bs : List UInt8) : Nat := (bs.mapIdx fun i b => b.toNat * 256 ^ i).sum

/-- What the bytes that a read moves over stand for. A number with a sign has to fit into a word;
what is given for others says `run_sleb128_modulo`. -/
def Means : ReadOp → List UInt8 → ReadValue → Prop
  | uint8, bs, v => bs.length = 1 ∧ v = .number (byteSum bs)
  | uint16, bs, v => bs.length = 2 ∧ v = .number (byteSum bs)
  | uint32, bs, v => bs.length = 4 ∧ v = .number (byteSum bs)
  | uint64, bs, v => bs.length = 8 ∧ v = .number (byteSum bs)
  | bytes count, bs, v => bs.length = count ∧ v = .block bs
  | string, bs, v => ∃ text, bs = text ++ [0] ∧ 0 ∉ text ∧ v = .block text
  | uleb128, bs, v => Ended bs ∧ v = .number (groupSum bs)
  | sleb128, bs, v => Ended bs ∧
      (-2 ^ 63 ≤ signedSum bs ∧ signedSum bs < 2 ^ 63 → v = .signed (signedSum bs))
  | rest, bs, v => v = .block bs

/-- The read leaves the cursor where it is: it asks for no bytes or fails. -/
def TakesNothing (op : ReadOp) (r : ByteReader) : Prop :=
  op = rest ∨ op = bytes 0 ∨ (op.isLeb128 = false ∧ ∃ e, (op.run r).1 = .error e)

end ReadOp

/-- The bytes of `data` from one position to another. -/
def ByteReader.between (data : List UInt8) (first behind : Nat) : List UInt8 :=
  (data.drop first).take (behind - first)

/-- The cursor stands in `data`. -/
structure ByteReader.Within (data : List UInt8) (r : ByteReader) : Prop where
  /-- It is not behind the last byte. -/
  position_le : r.position ≤ data.length
  /-- What it has not read yet is what stands behind it. -/
  rest_eq : r.rest = data.drop r.position

/-! ### Moving forward -/

/-- Whether the reader succeeds or not, it moves over bytes that were left. -/
def Read.Moves {α : Type} (x : Read α) : Prop :=
  ∀ r, ∃ bs, r.rest = bs ++ (x r).2.rest ∧ (x r).2.position = r.position + bs.length

/-- Where the reader fails it does not move. -/
def Read.Stays {α : Type} (x : Read α) : Prop := ∀ r e r', x r = (.error e, r') → r' = r

section

variable {α β : Type} {x : Read α}

/-- A change of the result leaves the cursor alone. -/
theorem Read.map_snd (f : α → β) (r : ByteReader) :
    ((do return f (← x) : Read β) r).2 = (x r).2 := by
  rw [Action.bind_apply]
  rcases x r with ⟨e | a, r'⟩ <;> rfl

/-- A changed result does not change where a failing reader stays. -/
theorem Read.Stays.map {f : α → β} (hx : Stays x) : Stays (do return f (← x)) := by
  intro r e r' h
  rw [Action.bind_apply] at h
  rcases hr : x r with ⟨e' | a, r₁⟩ <;> rw [hr] at h
  · cases h
    exact hx r _ _ hr
  · cases h

/-- A reader that fails where it is moves over what it takes. -/
theorem Read.Local.moves (hx : Local x) (hstays : Stays x) : Moves x := by
  intro r
  rcases hr : x r with ⟨e | a, r'⟩
  · obtain rfl := hstays r e r' hr
    exact ⟨[], rfl, rfl⟩
  · exact hx.advances r a r' hr

end

namespace ByteReader

variable {α : Type} {x : Read α} {data : List UInt8} {r : ByteReader}

/-- A block that is too long leaves the cursor where it was. -/
theorem stays_bytes (count : Nat) : Stays (bytes count) := by
  intro r e r' h
  unfold bytes at h
  split at h <;> cases h
  rfl

/-- A text without a NUL leaves the cursor where it was. -/
theorem stays_string : Stays string := by
  intro r e r' h
  unfold string at h
  split at h <;> cases h
  rfl

/-- A text goes up to the first NUL. -/
theorem rest_of_string {r r' : ByteReader} {text : List UInt8} (h : string r = (.ok text, r')) :
    r.rest = text ++ [0] ++ r'.rest ∧ 0 ∉ text := by
  unfold string at h
  split at h
  · rename_i len hfind
    obtain ⟨hlt, hnul, hbefore⟩ := List.findIdx?_eq_some_iff_getElem.1 hfind
    cases h
    have hzero : r.rest[len] = 0 := by simpa using hnul
    refine ⟨?_, fun hmem => ?_⟩
    · rw [← hzero, List.take_append_getElem]
      exact (List.take_append_drop _ _).symm
    · obtain ⟨j, hj, hzero⟩ := List.mem_take_iff_getElem.1 hmem
      exact hbefore j (by omega) (by simpa using hzero)
  · cases h

/-- A text looks at its bytes and the NUL behind them only. -/
theorem local_string : Local string := by
  intro r text r' h
  obtain ⟨hrest, hnot⟩ := rest_of_string h
  exact ⟨text ++ [0], hrest, takes_string hnot⟩

/-- What is taken for a text is its bytes and a NUL, and the text has none. -/
theorem eq_of_takes_string {bs text : List UInt8} (h : Takes string bs text) :
    bs = text ++ [0] ∧ 0 ∉ text := by
  simpa using rest_of_string (h 0 [])

/-- The cursor has read bytes from the start of data, and at least one if there is any. -/
def Consumes (position : Nat) (data : List UInt8) (r : ByteReader) : Prop :=
  ∃ bs, data = bs ++ r.rest ∧ r.position = position + bs.length ∧ (data ≠ [] → bs ≠ [])

/-- At the end of the data nothing can be read. -/
theorem consumes_nil (position : Nat) : Consumes position [] ⟨position, []⟩ := ⟨[], rfl, rfl, id⟩

/-- One byte is read. -/
theorem consumes_one (position : Nat) (b : UInt8) (data : List UInt8) :
    Consumes position (b :: data) ⟨position + 1, data⟩ :=
  ⟨[b], rfl, rfl, fun _ => List.cons_ne_nil b []⟩

/-- What is read behind a byte is read together with it. -/
theorem Consumes.cons {position : Nat} (h : Consumes (position + 1) data r) (b : UInt8) :
    Consumes position (b :: data) r := by
  obtain ⟨bs, hbs, hposition, -⟩ := h
  refine ⟨b :: bs, by rw [List.cons_append, ← hbs], ?_, fun _ => List.cons_ne_nil b bs⟩
  rw [hposition, List.length_cons, Nat.add_assoc, Nat.add_comm 1]

/-- An unsigned number reads at least a byte, if there is one, also when it fails. -/
theorem consumes_unsignedFrom (acc : UInt64) (shift position : Nat) (data : List UInt8) :
    Consumes position data (unsignedFrom acc shift position data).2 := by
  induction data generalizing acc shift position with
  | nil => exact consumes_nil position
  | cons b data ih =>
    rw [unsignedFrom]
    split
    · exact consumes_one position b data
    split
    · exact consumes_one position b data
    · exact (ih _ _ _).cons b

/-- A signed number reads at least a byte, if there is one, also when it fails. -/
theorem consumes_signedFrom (acc : UInt64) (shift position : Nat) (data : List UInt8) :
    Consumes position data (signedFrom acc shift position data).2 := by
  induction data generalizing acc shift position with
  | nil => exact consumes_nil position
  | cons b data ih =>
    rw [signedFrom]
    split
    · exact consumes_one position b data
    split
    · exact consumes_one position b data
    · exact (ih _ _ _).cons b

/-- A fresh cursor is at the start of its data. -/
theorem within_ofList (data : List UInt8) : Within data (ofList data) :=
  ⟨Nat.zero_le _, rfl⟩

namespace Within

/-- What is left and what was read make up the data. -/
theorem remaining_add (h : Within data r) : r.remaining + r.position = data.length := by
  have hle := h.position_le
  rw [remaining, h.rest_eq, List.length_drop]
  omega

/-- A reader that moves stays within the data. -/
theorem move (h : Within data r) (hx : Moves x) :
    Within data (x r).2 ∧ r.position ≤ (x r).2.position := by
  obtain ⟨bs, hbs, hposition⟩ := hx r
  have hlength := h.remaining_add
  rw [remaining, hbs, List.length_append] at hlength
  have hrest : (x r).2.rest = data.drop (x r).2.position := by
    rw [hposition, ← List.drop_drop, ← h.rest_eq, hbs, List.drop_left]
  exact ⟨⟨by omega, hrest⟩, by omega⟩

/-- What was moved over stands between the positions. -/
theorem between_eq (h : Within data r) {r' : ByteReader} {bs : List UInt8}
    (hbs : r.rest = bs ++ r'.rest) (hposition : r'.position = r.position + bs.length) :
    between data r.position r'.position = bs := by
  rw [between, hposition, Nat.add_sub_cancel_left, ← h.rest_eq, hbs, List.take_left]

end Within

end ByteReader

/-! ### What each read does -/

namespace ReadOp

variable {data : List UInt8} {r : ByteReader} {op : ReadOp}

/-- Reads of a known width leave the cursor where it was if they fail. -/
theorem stays_run (hop : op.isLeb128 = false) : Stays op.run := by
  cases op with
  | uint8 | uint16 | uint32 | uint64 => exact (stays_bytes _).map.map.map
  | bytes count => exact (stays_bytes count).map
  | string => exact stays_string.map
  | uleb128 | sleb128 => cases hop
  | rest => exact nofun

/-- All reads but that of the rest look at no more than they take. -/
theorem local_run (hop : op ≠ .rest) : Local op.run := by
  cases op with
  | uint8 => exact local_uint8.map
  | uint16 => exact local_uint16.map
  | uint32 => exact local_uint32.map
  | uint64 => exact local_uint64.map
  | bytes count => exact (local_bytes count).map
  | string => exact local_string.map
  | uleb128 => exact local_uleb128.map
  | sleb128 => exact local_sleb128.map
  | rest => exact absurd rfl hop

/-- Also a number that is refused takes a byte. -/
theorem consumes_run (hop : op.isLeb128 = true) (r : ByteReader) :
    Consumes r.position r.rest (op.run r).2 := by
  cases op with
  | uleb128 =>
    rw [run, Read.map_snd]
    exact consumes_unsignedFrom 0 0 r.position r.rest
  | sleb128 =>
    rw [run, Read.map_snd]
    exact consumes_signedFrom 0 0 r.position r.rest
  | _ => cases hop

/-- Every read moves the cursor forward or leaves it. -/
theorem moves_run (op : ReadOp) : Moves op.run := by
  by_cases hleb : op.isLeb128
  · intro r
    obtain ⟨bs, hbs, hposition, -⟩ := consumes_run hleb r
    exact ⟨bs, hbs, hposition⟩
  by_cases hrest : op = .rest
  · subst hrest
    exact fun r => ⟨[], rfl, rfl⟩
  · exact (local_run hrest).moves (stays_run (by simpa using hleb))

/-- The cursor stays within the data. -/
theorem within_after (data : List UInt8) (ops : List ReadOp) : (after data ops).Within data := by
  induction ops using List.reverseRecOn with
  | nil => exact within_ofList data
  | append_singleton ops op ih =>
    rw [after, List.foldl_append]
    exact (ih.move op.moves_run).1

/-- The bytes behind others count for more, by what the others can stand for. -/
theorem littleEndian_append (bs cs : List UInt8) :
    littleEndian (bs ++ cs) = littleEndian bs + 256 ^ bs.length * littleEndian cs := by
  induction bs with
  | nil => simp [littleEndian]
  | cons b bs ih =>
    rw [List.cons_append, littleEndian, littleEndian, ih, List.length_cons, Nat.pow_succ',
      Nat.mul_add, Nat.mul_assoc, Nat.add_assoc]

/-- A number is the sum of its bytes by their places. -/
theorem littleEndian_eq_byteSum (bs : List UInt8) : littleEndian bs = byteSum bs := by
  induction bs using List.reverseRecOn with
  | nil => rfl
  | append_singleton bs b ih =>
    rw [littleEndian_append, ih, byteSum, byteSum, List.mapIdx_concat, List.sum_append,
      List.sum_singleton, littleEndian, littleEndian, Nat.mul_zero, Nat.add_zero, Nat.mul_comm]

/-- A number that is read as a word is the value of all bytes of the word. -/
theorem number_of_takes {α : Type} {count : Nat} (ofNat : Nat → α) (toNat : α → Nat)
    (hround : ∀ w < 256 ^ count, toNat (ofNat w) = w) {bs : List UInt8} {v : ReadValue}
    (h : Takes (do
      let n ← (do return ofNat (← word count) : Read α)
      return ReadValue.number (toNat n)) bs v) :
    bs.length = count ∧ v = .number (byteSum bs) := by
  obtain ⟨n, hn, rfl⟩ := (local_word count).map.takes_map_iff.1 h
  obtain ⟨w, hw, rfl⟩ := (local_word count).takes_map_iff.1 hn
  obtain ⟨cs, hcs, rfl⟩ := (local_bytes count).takes_map_iff.1 hw
  obtain ⟨rfl, rfl⟩ := takes_bytes_iff.1 hcs
  exact ⟨rfl, by rw [hround _ (littleEndian_lt bs), littleEndian_eq_byteSum]⟩

/-- Bytes of which the last one is the first without a mark are an ended number. -/
theorem ended_of_lastPlace? {bs : List UInt8} {k : Nat} (hplace : lastPlace? bs = some k)
    (hlength : bs.length = k + 1) : Ended bs := by
  have h := ended_take_of_lastPlace? hplace
  rwa [← hlength, List.take_length] at h

/-- A number with a sign is given modulo 2^64. -/
theorem signed_of_takes {bs : List UInt8} {v : ReadValue} (h : Takes sleb128.run bs v) :
    Ended bs ∧ v = .signed ((signedSum bs).bmod (2 ^ 64)) := by
  obtain ⟨n, hn, rfl⟩ := local_sleb128.takes_map_iff.1 h
  obtain ⟨k, hplace, hlength, -, hsum⟩ :=
    (decodeSigned_eq_ok_iff bs n bs.length).1 (takes_sleb128_iff.1 hn)
  rw [List.take_length] at hsum
  have hvalue : n.toInt = (signedSum bs).bmod (2 ^ 64) := hsum ▸ Int64.toInt_ofInt
  exact ⟨ended_of_lastPlace? hplace hlength, congrArg ReadValue.signed hvalue⟩

/-- What a read takes has the meaning of what it gives. -/
theorem means_of_takes (hop : op ≠ .rest) {bs : List UInt8} {v : ReadValue}
    (h : Takes op.run bs v) : op.Means bs v := by
  -- the four sizes of words are one argument, the other readers have one each
  cases op with
  | uint8 => exact number_of_takes UInt8.ofNat UInt8.toNat (fun _ => UInt8.toNat_ofNat_of_lt') h
  | uint16 =>
    exact number_of_takes UInt16.ofNat UInt16.toNat (fun _ => UInt16.toNat_ofNat_of_lt') h
  | uint32 =>
    exact number_of_takes UInt32.ofNat UInt32.toNat (fun _ => UInt32.toNat_ofNat_of_lt') h
  | uint64 =>
    exact number_of_takes UInt64.ofNat UInt64.toNat (fun _ => UInt64.toNat_ofNat_of_lt') h
  | bytes count =>
    obtain ⟨cs, hcs, rfl⟩ := (local_bytes count).takes_map_iff.1 h
    obtain ⟨hlength, rfl⟩ := takes_bytes_iff.1 hcs
    exact ⟨hlength, rfl⟩
  | string =>
    obtain ⟨text, htext, rfl⟩ := local_string.takes_map_iff.1 h
    obtain ⟨hbs, hnot⟩ := eq_of_takes_string htext
    exact ⟨text, hbs, hnot, rfl⟩
  | uleb128 =>
    obtain ⟨n, hn, rfl⟩ := local_uleb128.takes_map_iff.1 h
    obtain ⟨k, hplace, hlength, -, -, hsum⟩ :=
      (decodeUnsigned_eq_ok_iff bs n bs.length).1 (takes_uleb128_iff.1 hn)
    rw [List.take_length] at hsum
    exact ⟨ended_of_lastPlace? hplace hlength, by rw [hsum]⟩
  | sleb128 =>
    obtain ⟨hended, rfl⟩ := signed_of_takes h
    refine ⟨hended, fun hfits => ?_⟩
    -- within the range of a word the value modulo its size is the value
    have hvalue : (signedSum bs).bmod (2 ^ 64) = signedSum bs :=
      Int64.toInt_ofInt.symm.trans ((toInt_ofInt_eq_iff _).2 hfits)
    rw [hvalue]
  | rest => exact absurd rfl hop

/-- What a read gives comes from at least a byte, unless it asks for none or for the rest. -/
theorem Means.ne_nil (hrest : op ≠ .rest) (hbytes : op ≠ .bytes 0) {bs : List UInt8}
    {v : ReadValue} (h : op.Means bs v) : bs ≠ [] := by
  rintro rfl
  cases op with
  | uint8 | uint16 | uint32 | uint64 => exact nomatch h.1
  | bytes count => exact hbytes (congrArg bytes h.1.symm)
  | string =>
    obtain ⟨text, htext, -⟩ := h
    simp at htext
  | uleb128 | sleb128 => exact h.1.ne_nil rfl
  | rest => exact hrest rfl

/-- A read takes the bytes between the positions. -/
theorem takes_between (hr : r.Within data) (hop : op ≠ .rest) {v : ReadValue}
    (hv : (op.run r).1 = .ok v) :
    Takes op.run (between data r.position (op.run r).2.position) v := by
  obtain ⟨bs, hbs, htakes⟩ := local_run hop r v _ (Prod.ext hv rfl)
  have hread : op.run r = (.ok v, ⟨r.position + bs.length, (op.run r).2.rest⟩) := by
    rw [← htakes r.position, ← hbs]
  rwa [hr.between_eq hbs (congrArg (·.2.position) hread)]

/-- The value of a read is that of the bytes between the positions. -/
theorem means_between (hr : r.Within data) (hop : op ≠ .rest) {v : ReadValue}
    (hv : (op.run r).1 = .ok v) :
    op.Means (between data r.position (op.run r).2.position) v :=
  means_of_takes hop (takes_between hr hop hv)

/-- If there are bytes left, a read moves unless it takes nothing. -/
theorem position_lt (hr : r.Within data) (hrest : r.rest ≠ []) (hop : ¬ op.TakesNothing r) :
    r.position < (op.run r).2.position := by
  by_cases hleb : op.isLeb128
  · obtain ⟨bs, -, hposition, hbs⟩ := consumes_run hleb r
    have hpos := List.length_pos_iff.2 (hbs hrest)
    omega
  · simp only [TakesNothing, not_or, not_and, not_exists] at hop
    obtain ⟨hop, hbytes, hfails⟩ := hop
    rcases hv : (op.run r).1 with e | v
    · exact absurd hv (hfails (by simpa using hleb) e)
    -- the bytes between the positions are not none
    have hne := (means_between hr hop hv).ne_nil hop hbytes
    by_contra hle
    rw [between, Nat.sub_eq_zero_of_le (Nat.le_of_not_lt hle), List.take_zero] at hne
    exact hne rfl

/-- The cursor after one more read. -/
theorem after_concat (data : List UInt8) (ops : List ReadOp) (op : ReadOp) :
    after data (ops ++ [op]) = (op.run (after data ops)).2 := by
  rw [after, List.foldl_append]
  rfl

/-- After any reads, a number with a sign that is read is the value of the bytes between the
positions modulo 2^64, whether it fits into a word or not. -/
theorem run_sleb128_modulo (data : List UInt8) (ops : List ReadOp) {v : ReadValue}
    (hv : (sleb128.run (after data ops)).1 = .ok v) :
    let bs := between data (after data ops).position (after data (ops ++ [.sleb128])).position
    Ended bs ∧ v = .signed ((signedSum bs).bmod (2 ^ 64)) := by
  have hne : sleb128 ≠ rest := by decide
  rw [after_concat]
  exact signed_of_takes (takes_between (within_after data ops) hne hv)

/-- Reading on comes to an end, at the latest when there were as many reads as bytes. -/
theorem exists_end (data : List UInt8) (ops : Nat → ReadOp) :
    ∃ k ≤ data.length, let r := after data ((List.range k).map ops)
      r.isEmpty ∨ (ops k).TakesNothing r := by
  by_contra hall
  have hnext : ∀ k ≤ data.length, ¬ (after data ((List.range k).map ops)).isEmpty ∧
      ¬ (ops k).TakesNothing (after data ((List.range k).map ops)) :=
    fun k hk => not_or.1 fun h => hall ⟨k, hk, h⟩
  -- each read moves the cursor
  have hposition : ∀ k ≤ data.length, k ≤ (after data ((List.range k).map ops)).position := by
    intro k
    induction k with
    | zero => exact fun _ => Nat.zero_le _
    | succ k ih =>
      intro hk
      obtain ⟨hne, hop⟩ := hnext k (by omega)
      have hlt := position_lt (within_after data _) (by simpa [isEmpty] using hne) hop
      have hle := ih (by omega)
      rw [List.range_succ, List.map_append, List.map_singleton, after_concat]
      omega
  obtain ⟨hne, -⟩ := hnext data.length (Nat.le_refl _)
  have hle := hposition data.length (Nat.le_refl _)
  have hsum := (within_after data ((List.range data.length).map ops)).remaining_add
  refine hne (List.isEmpty_iff_length_eq_zero.2 ?_)
  rw [remaining] at hsum
  omega

/-- After any reads of the data, successful or not, the next one moves forward within the data. If
it gives a value, this is that of the bytes between the positions; `rest` shows all that was not
read and moves over none of it. If it fails it stays where it is, LEB128 numbers apart. And reading
on ends with the data, unless a read takes nothing. -/
theorem run_between (data : List UInt8) :
    (∀ (ops : List ReadOp) (op : ReadOp),
      let r := after data ops
      let r' := after data (ops ++ [op])
      let result := (op.run r).1
      (r.position ≤ r'.position ∧ r'.position ≤ data.length ∧
        r'.remaining + r'.position = data.length) ∧
      (∀ v, result = .ok v →
        if op = .rest then v = .block (data.drop r.position) ∧ r' = r
        else op.Means (between data r.position r'.position) v) ∧
      (∀ e, result = .error e → op.isLeb128 = false → r' = r)) ∧
    ∀ ops : Nat → ReadOp, ∃ k ≤ data.length, let r := after data ((List.range k).map ops)
      r.isEmpty ∨ (ops k).TakesNothing r := by
  refine ⟨fun ops op => ?_, exists_end data⟩
  intro r r' result
  have hwithin : r.Within data := within_after data ops
  have hr' : r' = (op.run r).2 := after_concat data ops op
  obtain ⟨hwithin', hle⟩ := hwithin.move op.moves_run
  rw [hr']
  refine ⟨⟨hle, hwithin'.position_le, hwithin'.remaining_add⟩, fun v hv => ?_, fun e he hop => ?_⟩
  -- only `rest` gives bytes without taking them
  · split
    · rename_i hop
      subst hop
      obtain rfl : ReadValue.block r.rest = v := Except.ok.inj hv
      exact ⟨by rw [hwithin.rest_eq], rfl⟩
    · rename_i hop
      exact means_between hwithin hop hv
  · exact stays_run hop r e _ (Prod.ext he rfl)

/-- A text behind a word, and a word of which one byte is missing. -/
theorem run_between_textBehindWord :
    let data : List UInt8 := [0x34, 0x12, 0x7a, 0x52, 0, 0xaa]
    let r := after data [.uint16]
    (string.run r).1 = .ok (.block [0x7a, 0x52]) ∧
      string.Means (between data 2 5) (.block [0x7a, 0x52]) ∧
      after data [.uint16, .string, .uint16] = after data [.uint16, .string] := by
  intro data r
  have hstring : (string.run r).1 = .ok (.block [0x7a, 0x52]) := rfl
  have hword : (uint16.run (after data [.uint16, .string])).1 =
      .error (.unexpectedEnd "byte block") := rfl
  have h := (run_between data).1
  exact ⟨hstring, (h [.uint16] .string).2.1 _ hstring,
    (h [.uint16, .string] .uint16).2.2 _ hword rfl⟩

/-- Not every value is that of the bytes between the positions, as `rest` looks at bytes without
moving over them; and not all that is read again and again comes to an end. -/
theorem not_run_between :
    ¬ (∀ data ops (op : ReadOp) v, (op.run (after data ops)).1 = .ok v →
      op.Means (between data (after data ops).position (after data (ops ++ [op])).position) v) ∧
    ¬ ∀ data (ops : Nat → ReadOp), ∃ k, (after data ((List.range k).map ops)).isEmpty := by
  -- `rest` gives what it has not moved over, and no bytes at all can be asked for again and again
  constructor
  · intro h
    have hvalue := h [0xaa] [] .rest (.block [0xaa]) rfl
    exact absurd hvalue (show ReadValue.block [0xaa] ≠ .block [] by decide)
  · intro h
    obtain ⟨k, hk⟩ := h [0xaa] fun _ => .bytes 0
    have hstays : ∀ k, after [0xaa] ((List.range k).map fun _ => .bytes 0) = ofList [0xaa] := by
      intro k
      induction k with
      | zero => rfl
      | succ k ih =>
        rw [List.range_succ, List.map_append, List.map_singleton, after_concat, ih]
        rfl
    rw [hstays] at hk
    cases hk

end ReadOp

end SourceDebugger
