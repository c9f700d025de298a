import Mathlib
import SourceDebugger.Proofs.Leb128

/-!
# Which bytes LEB128 decoding accepts

Decoding looks for the first byte without the highest bit, `Leb128.lastPlace?`, and accepts what
fits into ten bytes and a word. The value of the bytes is written as a sum of their groups,
`Leb128.groupSum` and `Leb128.signedSum`, without regard to the order in which they are read.

* `Leb128.decodeUnsigned_exact`: unsigned decoding accepts exactly the numbers that end within ten
  bytes and fit into a word, and gives their value; everything else fails, and no shift reaches the
  width of the word.
* `Leb128.decodeSigned_modulo`: signed decoding accepts all that ends within ten bytes and gives its
  value modulo 2^64. So the tenth byte alone can make it wrong, and it does unless its groups
  repeat the sign.
-/

namespace SourceDebugger.Leb128

open ByteReader

/-! ### Where a number ends, and what its bytes amount to -/

/-- The place of the last byte of the number at the start of `data`: that of the first byte without
the highest bit. -/
def lastPlace? (data : List UInt8) : Option Nat := data.findIdx? (· &&& 0x80 = 0)

/-- The groups weighted by the powers of 128. -/
def groupSum (bs : List UInt8) : Nat := (bs.mapIdx fun i b => group b * 128 ^ i).sum

/-- The weighted groups in two's complement: the second highest bit of the last byte is the sign. -/
def signedSum (bs : List UInt8) : Int :=
  groupSum bs - if bs.getLastD 0 &&& 0x40 = 0 then 0 else 128 ^ bs.length

/-- So many groups stand for a number below the power. -/
theorem value_lt (bs : List UInt8) : value bs < 128 ^ bs.length := by
  induction bs with
  | nil => decide
  | cons b bs ih =>
    have hgroup := group_lt b
    rw [value, List.length_cons, Nat.pow_succ]
    omega

/-- The groups behind others count for more, by what the others can stand for. -/
theorem value_append (bs cs : List UInt8) :
    value (bs ++ cs) = value bs + 128 ^ bs.length * value cs := by
  induction bs with
  | nil => simp [value]
  | cons b bs ih =>
    rw [List.cons_append, value, value, ih, List.length_cons, Nat.pow_succ', Nat.mul_add,
      Nat.mul_assoc, Nat.add_assoc]

/-- A number is the sum of its groups by their places. -/
theorem value_eq_groupSum (bs : List UInt8) : value bs = groupSum bs := by
  induction bs using List.reverseRecOn with
  | nil => rfl
  | append_singleton bs b ih =>
    rw [value_append, ih, groupSum, groupSum, List.mapIdx_concat, List.sum_append,
      List.sum_singleton, value, value, Nat.mul_zero, Nat.add_zero, Nat.mul_comm]

/-- Only the last byte has a sign. -/
theorem signedValue_concat (bs : List UInt8) (b : UInt8) :
    signedValue (bs ++ [b]) = value bs + 128 ^ bs.length * signedValue [b] := by
  induction bs with
  | nil => simp [value]
  | cons c bs ih =>
    have hcons : signedValue (c :: (bs ++ [b])) = group c + 128 * signedValue (bs ++ [b]) := by
      cases bs <;> rfl
    rw [List.cons_append, hcons, ih, value, List.length_cons, Int.pow_succ']
    push_cast
    ring

/-- A signed number is the sum of its groups, of which the last one carries the sign. -/
theorem signedValue_eq_signedSum {bs : List UInt8} (h : bs ≠ []) :
    signedValue bs = signedSum bs := by
  obtain ⟨front, b, rfl⟩ := (List.eq_nil_or_concat' bs).resolve_left h
  rw [signedSum, ← value_eq_groupSum, signedValue_concat, value_append, List.getLastD_concat,
    signedValue, value, value, List.length_append, List.length_singleton, Int.pow_succ]
  push_cast
  split <;> ring

/-- The number at the start of some bytes, taken apart. -/
theorem exists_split_of_lastPlace? {data : List UInt8} {k : Nat} (h : lastPlace? data = some k) :
    ∃ front b rest, data = front ++ [b] ++ rest ∧ front.length = k ∧ b &&& 0x80 = 0 ∧
      ∀ c ∈ front, c &&& 0x80 ≠ 0 := by
  obtain ⟨hlt, hlast, hmore⟩ := List.findIdx?_eq_some_iff_getElem.1 h
  refine ⟨data.take k, data[k], data.drop (k + 1), ?_, List.length_take_of_le hlt.le,
    by simpa using hlast, fun c hc => ?_⟩
  · rw [List.take_append_getElem, List.take_append_drop]
  · obtain ⟨j, hj, rfl⟩ := List.mem_take_iff_getElem.1 hc
    simpa using hmore j (by omega)

/-- If no byte is the last one, all are marked. -/
theorem more_of_lastPlace?_none {data : List UInt8} (h : lastPlace? data = none) :
    ∀ b ∈ data, b &&& 0x80 ≠ 0 := by
  intro b hb
  simpa using List.findIdx?_eq_none_iff.1 h b hb

/-- Marked bytes and one without a mark are an ended number. -/
theorem ended_concat {front : List UInt8} {b : UInt8} (hb : b &&& 0x80 = 0)
    (hmore : ∀ c ∈ front, c &&& 0x80 ≠ 0) : Ended (front ++ [b]) := by
  induction front with
  | nil => exact .last hb
  | cons c front ih =>
    exact .more (hmore c List.mem_cons_self) (ih fun d hd => hmore d (List.mem_cons_of_mem c hd))

/-- The last byte of a number is one of the data. -/
theorem lt_length_of_lastPlace? {data : List UInt8} {k : Nat} (h : lastPlace? data = some k) :
    k < data.length := (List.findIdx?_eq_some_iff_getElem.1 h).1

/-- The bytes up to the first one without a mark are an ended number. -/
theorem ended_take_of_lastPlace? {data : List UInt8} {k : Nat} (h : lastPlace? data = some k) :
    Ended (data.take (k + 1)) := by
  obtain ⟨front, b, rest, rfl, rfl, hb, hmore⟩ := exists_split_of_lastPlace? h
  rw [List.take_left' (by simp)]
  exact ended_concat hb hmore

/-! ### Unsigned numbers -/

/-- A group that is not refused fits into the word. -/
theorem fits_of_not_overflows {b : UInt8} {i : Nat}
    (h : ¬ (7 * i ≥ 64 ∨ 7 * i = 63 ∧ (b &&& 0x7f).toUInt64 > 1)) :
    7 * i < 64 ∧ group b * 2 ^ (7 * i) < 2 ^ 64 := by
  obtain ⟨hshift, hlast⟩ := not_or.1 h
  have hgroup := group_lt b
  have hi : i ≤ 9 := by omega
  refine ⟨Nat.lt_of_not_ge hshift, ?_⟩
  rcases Nat.lt_or_eq_of_le hi with hi | rfl
  · have hpow : 2 ^ (7 * i) ≤ 2 ^ 56 := Nat.pow_le_pow_right (by omega) (by omega)
    have hmul := Nat.mul_le_mul hgroup.le hpow
    omega
  · -- the tenth group has room for one bit
    have hle : group b ≤ 1 := by
      have hle := UInt64.le_iff_toNat_le.1 (UInt64.not_lt.1 fun hgt => hlast ⟨rfl, hgt⟩)
      rwa [UInt8.toNat_toUInt64] at hle
    omega

/-- Groups that do not fit into the word, or are too many, are refused. -/
theorem unsignedFrom_overflow {bs : List UInt8} (hmore : ∀ b ∈ bs.dropLast, b &&& 0x80 ≠ 0)
    {acc : UInt64} {i : Nat} (hacc : acc.toNat < 2 ^ (7 * i)) (hi : i ≤ maxLength)
    (hwide : maxLength < i + bs.length ∨ 2 ^ 64 ≤ acc.toNat + value bs * 2 ^ (7 * i))
    (position : Nat) (rest : List UInt8) :
    (unsignedFrom acc (7 * i) position (bs ++ rest)).1 = .error .leb128Overflow := by
  induction bs generalizing acc i position with
  | nil =>
    have hlt := acc.toNat_lt
    simp only [List.length_nil, value] at hwide
    omega
  | cons b bs ih =>
    by_cases hrefused : 7 * i ≥ 64 ∨ 7 * i = 63 ∧ (b &&& 0x7f).toUInt64 > 1
    · simp only [List.cons_append, unsignedFrom]
      rw [if_pos hrefused]
    -- this group fits, so that there are more of them
    obtain ⟨hshift, hgroup⟩ := fits_of_not_overflows hrefused
    have hi : i < maxLength := by
      simp only [maxLength]
      omega
    rw [value_cons_mul, List.length_cons] at hwide
    have hsum : acc.toNat + group b * 2 ^ (7 * i) < 2 ^ 64 := by
      rw [← Nat.mod_eq_of_lt hgroup, ← toNat_or_group hacc hshift]
      exact UInt64.toNat_lt _
    have hne : bs ≠ [] := by
      rintro rfl
      simp only [List.length_nil, value] at hwide
      omega
    rw [List.dropLast_cons_of_ne_nil hne] at hmore
    obtain ⟨acc', hacc', hlt', hnext⟩ :=
      unsignedFrom_more hacc hshift hgroup (hmore b List.mem_cons_self)
    rw [List.cons_append, hnext]
    refine ih (fun c hc => hmore c (List.mem_cons_of_mem b hc)) hlt' hi ?_ (position + 1)
    rw [hacc', Nat.mul_succ]
    omega

/-- Bytes that end within a number are reported as such, as long as their groups fit. -/
theorem unsignedFrom_unended {bs : List UInt8} (hmore : ∀ b ∈ bs, b &&& 0x80 ≠ 0)
    {acc : UInt64} {i : Nat} (hacc : acc.toNat < 2 ^ (7 * i)) (hlength : i + bs.length ≤ maxLength)
    (hfits : acc.toNat + value bs * 2 ^ (7 * i) < 2 ^ 64) (position : Nat) :
    (unsignedFrom acc (7 * i) position bs).1 = .error (.unexpectedEnd "ULEB128") := by
  -- the accumulator stays below its own place, so no group is refused before the bytes end
  induction bs generalizing acc i position with
  | nil => rfl
  | cons b bs ih =>
    simp only [List.length_cons, maxLength] at hlength
    rw [value_cons_mul] at hfits
    obtain ⟨acc', hacc', hlt', hnext⟩ :=
      unsignedFrom_more hacc (by omega) (by omega) (hmore b List.mem_cons_self)
    have hrest : i + 1 + bs.length ≤ maxLength := by
      simp only [maxLength]
      omega
    rw [hnext]
    refine ih (fun c hc => hmore c (List.mem_cons_of_mem b hc)) hlt' hrest ?_ (position + 1)
    rw [hacc', Nat.mul_succ]
    omega

/-- Decoding starts with no groups and at the first byte. -/
theorem decodeUnsigned_eq (data : List UInt8) :
    decodeUnsigned data = (unsignedFrom 0 (7 * 0) 0 data).1.map
      ((·, (unsignedFrom 0 (7 * 0) 0 data).2.position)) := rfl

/-- What decoding makes of bytes in which a number ends. -/
theorem decodeUnsigned_of_lastPlace? {data : List UInt8} {k : Nat} (h : lastPlace? data = some k) :
    decodeUnsigned data =
      if k < maxLength ∧ groupSum (data.take (k + 1)) < 2 ^ 64 then
        .ok (UInt64.ofNat (groupSum (data.take (k + 1))), k + 1)
      else .error .leb128Overflow := by
  obtain ⟨front, b, rest, rfl, rfl, hb, hmore⟩ := exists_split_of_lastPlace? h
  have hlength : (front ++ [b]).length = front.length + 1 := List.length_append
  rw [List.take_left' hlength, ← value_eq_groupSum, decodeUnsigned_eq]
  -- either the reader comes to the last byte, or it overflows on the way or at it
  split
  · rename_i hfits
    have hzero : (0 : UInt64).toNat < 2 ^ (7 * 0) := by decide
    have hread := unsignedFrom_append (ended_concat hb hmore) hzero (by omega)
      (by simpa using hfits.2) 0 rest
    rw [hread]
    simp [Except.map]
  · rename_i hwide
    rw [unsignedFrom_overflow (by simpa using hmore) (by decide) (Nat.zero_le _) ?_]
    · rfl
    · simp only [hlength, UInt64.toNat_zero, Nat.mul_zero, Nat.pow_zero]
      omega

/-- What decoding makes of bytes in which no number ends. -/
theorem decodeUnsigned_of_lastPlace?_none {data : List UInt8} (h : lastPlace? data = none) :
    decodeUnsigned data =
      if data.length ≤ maxLength ∧ groupSum data < 2 ^ 64 then .error (.unexpectedEnd "ULEB128")
      else .error .leb128Overflow := by
  have hmore := more_of_lastPlace?_none h
  rw [← value_eq_groupSum, decodeUnsigned_eq]
  split
  · rename_i hfits
    rw [unsignedFrom_unended hmore (by decide) (by omega) (by simpa using hfits.2)]
    rfl
  · rename_i hwide
    have hfront : ∀ b ∈ data.dropLast, b &&& 0x80 ≠ 0 := fun b hb =>
      hmore b (List.dropLast_subset data hb)
    rw [← List.append_nil data, unsignedFrom_overflow hfront (by decide) (Nat.zero_le _) ?_]
    · rfl
    · simp only [UInt64.toNat_zero, Nat.mul_zero, Nat.pow_zero]
      omega

/-- An unsigned number is decoded if it ends in ten bytes and fits, and then its value is the sum of
its groups. -/
theorem decodeUnsigned_eq_ok_iff (data : List UInt8) (v : UInt64) (n : Nat) :
    decodeUnsigned data = .ok (v, n) ↔ ∃ k, lastPlace? data = some k ∧ n = k + 1 ∧ n ≤ maxLength ∧
      groupSum (data.take n) < 2 ^ 64 ∧ v.toNat = groupSum (data.take n) := by
  rcases hplace : lastPlace? data with _ | k
  · rw [decodeUnsigned_of_lastPlace?_none hplace]
    split <;> simp
  rw [decodeUnsigned_of_lastPlace? hplace]
  constructor
  · intro h
    split at h
    · rename_i hfits
      cases h
      exact ⟨k, rfl, rfl, hfits.1, hfits.2, UInt64.toNat_ofNat_of_lt' hfits.2⟩
    · cases h
  · rintro ⟨_, ⟨⟩, rfl, hlength, hfits, hv⟩
    rw [if_pos ⟨hlength, hfits⟩, ← hv, UInt64.ofNat_toNat]

/-- Decoding an unsigned number succeeds, or fails in one of two ways. -/
theorem decodeUnsigned_cases (data : List UInt8) :
    (∃ v n, decodeUnsigned data = .ok (v, n)) ∨
      decodeUnsigned data = .error (.unexpectedEnd "ULEB128") ∨
      decodeUnsigned data = .error .leb128Overflow := by
  rcases hplace : lastPlace? data with _ | k
  · rw [decodeUnsigned_of_lastPlace?_none hplace]
    split
    · exact .inr (.inl rfl)
    · exact .inr (.inr rfl)
  · rw [decodeUnsigned_of_lastPlace? hplace]
    split
    · exact .inl ⟨_, _, rfl⟩
    · exact .inr (.inr rfl)

/-- A word moved to the left, with no result if it is moved by its width or more. -/
def shiftLeft? (word : UInt64) (count : Nat) : Option UInt64 :=
  if count < 64 then some (word <<< UInt64.ofNat count) else none

/-- The reading of groups where every shift is checked. -/
def checkedUnsignedFrom (acc : UInt64) (shift position : Nat) :
    List UInt8 → Option (Except DebugError UInt64 × ByteReader)
  | [] => some (.error (.unexpectedEnd "ULEB128"), ⟨position, []⟩)
  | b :: rest =>
    let low := (b &&& 0x7f).toUInt64
    if shift ≥ 64 ∨ (shift = 63 ∧ low > 1) then
      some (.error .leb128Overflow, ⟨position + 1, rest⟩)
    else do
      let acc := acc ||| (← shiftLeft? low shift)
      if b &&& 0x80 = 0 then return (.ok acc, ⟨position + 1, rest⟩)
      else checkedUnsignedFrom acc (shift + 7) (position + 1) rest

/-- No check fails. -/
theorem checkedUnsignedFrom_eq (acc : UInt64) (shift position : Nat) (data : List UInt8) :
    checkedUnsignedFrom acc shift position data = some (unsignedFrom acc shift position data) := by
  induction data generalizing acc shift position with
  | nil => rfl
  | cons b rest ih =>
    simp only [checkedUnsignedFrom, unsignedFrom]
    by_cases hrefused : shift ≥ 64 ∨ shift = 63 ∧ (b &&& 0x7f).toUInt64 > 1
    · rw [if_pos hrefused, if_pos hrefused]
    · have hshift : shift < 64 := Nat.lt_of_not_ge fun hge => hrefused (.inl hge)
      rw [if_neg hrefused, if_neg hrefused, shiftLeft?, if_pos hshift, Option.bind_eq_bind,
        Option.bind_some, ih]
      split
      · rfl
      · rfl

/-- Unsigned decoding gives a value exactly if the first byte without the highest bit is among the
first ten and the weighted groups up to it fit into a word, and then their sum. Everything else is
an end of the bytes within a number or an overflow. No shift reaches the width of the word. -/
theorem decodeUnsigned_exact (data : List UInt8) :
    (∀ v n, decodeUnsigned data = .ok (v, n) ↔
      ∃ k, lastPlace? data = some k ∧ n = k + 1 ∧ n ≤ 10 ∧
        groupSum (data.take n) < 2 ^ 64 ∧ v.toNat = groupSum (data.take n)) ∧
    ((∃ v n, decodeUnsigned data = .ok (v, n)) ∨
      decodeUnsigned data = .error (.unexpectedEnd "ULEB128") ∨
      decodeUnsigned data = .error .leb128Overflow) ∧
    checkedUnsignedFrom 0 0 0 data = some (uleb128 (ofList data)) :=
  ⟨decodeUnsigned_eq_ok_iff data, decodeUnsigned_cases data, checkedUnsignedFrom_eq 0 0 0 data⟩

/-! ### Signed numbers -/

/-- Too many groups are refused. -/
theorem signedFrom_overflow {bs : List UInt8} (hmore : ∀ b ∈ bs.dropLast, b &&& 0x80 ≠ 0)
    {i : Nat} (hi : i ≤ maxLength) (hlong : maxLength < i + bs.length) (acc : UInt64)
    (position : Nat) (rest : List UInt8) :
    (signedFrom acc (7 * i) position (bs ++ rest)).1 = .error .leb128Overflow := by
  -- the place of the group is what grows; it is refused once it is past the word
  induction bs generalizing acc i position with
  | nil => exact absurd hlong (Nat.not_lt.2 hi)
  | cons b bs ih =>
    simp only [List.cons_append, signedFrom]
    by_cases hrefused : 7 * i ≥ 64
    · rw [if_pos hrefused]
    rw [List.length_cons] at hlong
    -- the byte that ends the number is not among the first ten
    have hne : bs ≠ [] := by
      rintro rfl
      simp only [maxLength, List.length_nil] at hlong
      omega
    rw [List.dropLast_cons_of_ne_nil hne] at hmore
    rw [if_neg hrefused, if_neg (hmore b List.mem_cons_self)]
    exact ih (i := i + 1) (fun c hc => hmore c (List.mem_cons_of_mem b hc))
      (by simp only [maxLength]; omega) (by omega) _ _

/-- Bytes that end within a number are reported as such, as long as they are not too many. -/
theorem signedFrom_unended {bs : List UInt8} (hmore : ∀ b ∈ bs, b &&& 0x80 ≠ 0) {i : Nat}
    (hlength : i + bs.length ≤ maxLength) (acc : UInt64) (position : Nat) :
    (signedFrom acc (7 * i) position bs).1 = .error (.unexpectedEnd "SLEB128") := by
  induction bs generalizing acc i position with
  | nil => rfl
  | cons b bs ih =>
    simp only [List.length_cons, maxLength] at hlength
    simp only [signedFrom]
    rw [if_neg (by omega), if_neg (hmore b List.mem_cons_self)]
    exact ih (i := i + 1) (fun c hc => hmore c (List.mem_cons_of_mem b hc))
      (by simp only [maxLength]; omega) _ _

/-- Decoding is reading from a fresh cursor. -/
theorem decodeSigned_eq (data : List UInt8) :
    decodeSigned data = (signedFrom 0 (7 * 0) 0 data).1.map
      ((·, (signedFrom 0 (7 * 0) 0 data).2.position)) := rfl

/-- A signed number that ends is decoded if it has at most ten bytes. Its value is what is left of
the sum in 64 bits. -/
theorem decodeSigned_of_lastPlace? {data : List UInt8} {k : Nat} (h : lastPlace? data = some k) :
    decodeSigned data =
      if k < maxLength then .ok (Int64.ofInt (signedSum (data.take (k + 1))), k + 1)
      else .error .leb128Overflow := by
  obtain ⟨front, b, rest, rfl, rfl, hb, hmore⟩ := exists_split_of_lastPlace? h
  have hlength : (front ++ [b]).length = front.length + 1 := List.length_append
  rw [List.take_left' hlength, ← signedValue_eq_signedSum (by simp), decodeSigned_eq]
  split
  · have hzero : (0 : UInt64).toNat < 2 ^ (7 * 0) := by decide
    have hread := signedFrom_append (ended_concat hb hmore) hzero (by omega) 0 rest
    rw [hread]
    simp [Except.map]
  · rw [signedFrom_overflow (by simpa using hmore) (Nat.zero_le _) (by omega)]
    rfl

/-- A signed number without an end is too long if it has more than ten bytes, and otherwise the data
ends too early. -/
theorem decodeSigned_of_lastPlace?_none {data : List UInt8} (h : lastPlace? data = none) :
    decodeSigned data =
      if data.length ≤ maxLength then .error (.unexpectedEnd "SLEB128")
      else .error .leb128Overflow := by
  have hmore := more_of_lastPlace?_none h
  rw [decodeSigned_eq]
  split
  · rw [signedFrom_unended hmore (by omega)]
    rfl
  · have hfront : ∀ b ∈ data.dropLast, b &&& 0x80 ≠ 0 := fun b hb =>
      hmore b (List.dropLast_subset data hb)
    rw [← List.append_nil data, signedFrom_overflow hfront (Nat.zero_le _) (by omega)]
    rfl

/-- The sign is the highest bit of a group. -/
theorem sign_eq_zero_iff (b : UInt8) : b &&& 0x40 = 0 ↔ group b < 64 := by
  have hgroup : group b = b.toNat % 2 ^ 7 := Nat.and_two_pow_sub_one_eq_mod b.toNat 7
  have hsign : (b &&& 0x40).toNat = (b.toNat.testBit 6).toNat * 2 ^ 6 := Nat.and_two_pow b.toNat 6
  rw [← UInt8.toNat_inj, hsign, hgroup, Nat.testBit_eq_decide_div_mod_eq]
  by_cases hbit : b.toNat / 2 ^ 6 % 2 = 1
  · rw [decide_eq_true hbit]
    exact iff_of_false (by decide) (by omega)
  · rw [decide_eq_false hbit]
    exact iff_of_true rfl (by omega)

/-- One byte stands for a number from -64 to 63. -/
theorem signedValue_singleton (b : UInt8) :
    signedValue [b] = group b - if group b < 64 then 0 else 128 := by
  rw [signedValue]
  simp only [sign_eq_zero_iff]

/-- Up to nine groups fit into a word with a sign. A tenth one does if it is nothing but the sign. -/
theorem signedSum_concat_fits_iff {front : List UInt8} (b : UInt8) (h : front.length < maxLength) :
    (-2 ^ 63 ≤ signedSum (front ++ [b]) ∧ signedSum (front ++ [b]) < 2 ^ 63) ↔
      front.length + 1 < maxLength ∨ group b = 0 ∨ group b = 127 := by
  have hgroup := group_lt b
  have hvalue := value_lt front
  rw [← signedValue_eq_signedSum (by simp), signedValue_concat]
  simp only [maxLength] at h ⊢
  rcases Nat.lt_or_eq_of_le (Nat.le_of_lt_succ h) with hlt | heq
  · -- the last group has the place of the ninth at most
    have hpow : 128 ^ front.length ≤ 128 ^ 8 := Nat.pow_le_pow_right (by omega) (by omega)
    have hbounds : -64 ≤ signedValue [b] ∧ signedValue [b] ≤ 63 := by
      rw [signedValue_singleton]
      split <;> omega
    have hlow := Int.mul_le_mul_of_nonneg_left hbounds.1 (Int.natCast_nonneg (128 ^ front.length))
    have hhigh := Int.mul_le_mul_of_nonneg_left hbounds.2 (Int.natCast_nonneg (128 ^ front.length))
    push_cast at hlow hhigh hpow
    zify at hvalue hpow
    omega
  -- the tenth group is at bit 63, where only all zeros and all ones are in range
  · rw [heq] at hvalue ⊢
    rw [signedValue_singleton]
    split <;> omega

/-- A word with a sign has the value that it was made from if this lies in its range. -/
theorem toInt_ofInt_eq_iff (n : Int) : (Int64.ofInt n).toInt = n ↔ -2 ^ 63 ≤ n ∧ n < 2 ^ 63 := by
  constructor
  · intro h
    exact h ▸ ⟨Int64.le_toInt _, Int64.toInt_lt _⟩
  · intro h
    exact Int64.toInt_ofInt_of_le h.1 h.2

/-- All of the first bytes belong to a number in front of its last byte. -/
theorem more_take_iff {data : List UInt8} {k : Nat} (h : lastPlace? data = some k) (count : Nat) :
    (∀ b ∈ data.take count, b &&& 0x80 ≠ 0) ↔ count ≤ k := by
  obtain ⟨front, b, rest, rfl, rfl, hb, hmore⟩ := exists_split_of_lastPlace? h
  constructor
  · intro hall
    by_contra hlt
    refine hall b ?_ hb
    rw [List.append_assoc, List.take_append, List.singleton_append,
      List.take_cons (by omega)]
    exact List.mem_append_right _ List.mem_cons_self
  · intro hle c hc
    rw [List.append_assoc, List.take_append_of_le_length hle] at hc
    exact hmore c (List.mem_of_mem_take hc)

/-- A signed number is decoded if it ends in ten bytes. -/
theorem decodeSigned_eq_ok_iff (data : List UInt8) (v : Int64) (n : Nat) :
    decodeSigned data = .ok (v, n) ↔ ∃ k, lastPlace? data = some k ∧ n = k + 1 ∧ n ≤ maxLength ∧
      v = Int64.ofInt (signedSum (data.take n)) := by
  rcases hplace : lastPlace? data with _ | k
  · rw [decodeSigned_of_lastPlace?_none hplace]
    split <;> simp
  rw [decodeSigned_of_lastPlace? hplace]
  constructor
  · intro h
    split at h
    · rename_i hlength
      cases h
      exact ⟨k, rfl, rfl, hlength, rfl⟩
    · cases h
  · rintro ⟨_, ⟨⟩, rfl, hlength, rfl⟩
    exact if_pos hlength

/-- It is too long if ten bytes are marked and there are more. -/
theorem decodeSigned_eq_overflow_iff (data : List UInt8) :
    decodeSigned data = .error .leb128Overflow ↔
      maxLength < data.length ∧ ∀ b ∈ data.take maxLength, b &&& 0x80 ≠ 0 := by
  -- either no byte ends a number, and the length decides, or the place of the last one does
  rcases hplace : lastPlace? data with _ | k
  · have hmore := more_of_lastPlace?_none hplace
    rw [decodeSigned_of_lastPlace?_none hplace]
    split
    · rename_i hshort
      exact iff_of_false nofun fun h => Nat.not_lt.2 hshort h.1
    · rename_i hlong
      exact iff_of_true rfl ⟨Nat.lt_of_not_le hlong, fun b hb => hmore b (List.mem_of_mem_take hb)⟩
  · have hlt := lt_length_of_lastPlace? hplace
    rw [decodeSigned_of_lastPlace? hplace, more_take_iff hplace]
    split
    · rename_i hshort
      exact iff_of_false nofun fun h => Nat.not_le.2 hshort h.2
    · rename_i hlong
      have hle := Nat.le_of_not_lt hlong
      exact iff_of_true rfl ⟨Nat.lt_of_le_of_lt hle hlt, hle⟩

/-- The data ends too early if all of at most ten bytes are marked. -/
theorem decodeSigned_eq_unexpectedEnd_iff (data : List UInt8) :
    decodeSigned data = .error (.unexpectedEnd "SLEB128") ↔
      data.length ≤ maxLength ∧ ∀ b ∈ data, b &&& 0x80 ≠ 0 := by
  rcases hplace : lastPlace? data with _ | k
  · have hmore := more_of_lastPlace?_none hplace
    rw [decodeSigned_of_lastPlace?_none hplace]
    split
    · rename_i hshort
      exact iff_of_true rfl ⟨hshort, hmore⟩
    · rename_i hlong
      exact iff_of_false nofun fun h => hlong h.1
  · -- the last byte of the number is among the bytes
    have hlast : ¬ ∀ b ∈ data, b &&& 0x80 ≠ 0 := by
      have hall := more_take_iff hplace data.length
      rw [List.take_length] at hall
      exact hall.not.2 (Nat.not_le.2 (lt_length_of_lastPlace? hplace))
    rw [decodeSigned_of_lastPlace? hplace]
    split
    · exact iff_of_false nofun fun h => hlast h.2
    · exact iff_of_false nofun fun h => hlast h.2

/-- The value is right unless the tenth group has more than the sign. -/
theorem toInt_eq_signedSum_iff {data : List UInt8} {v : Int64} {n : Nat}
    (h : decodeSigned data = .ok (v, n)) :
    v.toInt = signedSum (data.take n) ↔
      n < maxLength ∨ data[9]?.map group = some 0 ∨ data[9]?.map group = some 127 := by
  obtain ⟨k, hplace, rfl, hlength, rfl⟩ := (decodeSigned_eq_ok_iff data v n).1 h
  obtain ⟨front, b, rest, rfl, rfl, hb, hmore⟩ := exists_split_of_lastPlace? hplace
  rw [toInt_ofInt_eq_iff, List.take_left' (by simp), signedSum_concat_fits_iff b hlength]
  -- with ten bytes, the tenth one is the last
  refine or_congr_right' fun hlong => ?_
  have htenth : (front ++ [b] ++ rest)[9]? = some b := by
    have hnine : front.length = 9 := by
      simp only [maxLength] at hlength hlong
      omega
    rw [List.append_assoc, List.getElem?_append_right hnine.le, hnine]
    rfl
  rw [htenth, Option.map_some, Option.some_inj, Option.some_inj]

/-- Signed decoding gives a value exactly if the first byte without the highest bit is among the
first ten, and then the weighted groups up to it modulo 2^64. This is their value unless there are
ten bytes and the last one has more than the sign in its group. More bytes overflow, and fewer than
a number has are reported as such. -/
theorem decodeSigned_modulo (data : List UInt8) :
    (∀ v n, decodeSigned data = .ok (v, n) ↔
      ∃ k, lastPlace? data = some k ∧ n = k + 1 ∧ n ≤ 10 ∧
        v = Int64.ofInt (signedSum (data.take n))) ∧
    (∀ v n, decodeSigned data = .ok (v, n) →
      (v.toInt = signedSum (data.take n) ↔
        n < 10 ∨ data[9]?.map group = some 0 ∨ data[9]?.map group = some 127)) ∧
    (decodeSigned data = .error .leb128Overflow ↔
      10 < data.length ∧ ∀ b ∈ data.take 10, b &&& 0x80 ≠ 0) ∧
    (decodeSigned data = .error (.unexpectedEnd "SLEB128") ↔
      data.length ≤ 10 ∧ ∀ b ∈ data, b &&& 0x80 ≠ 0) :=
  ⟨decodeSigned_eq_ok_iff data, fun _ _ h => toInt_eq_signedSum_iff h,
    decodeSigned_eq_overflow_iff data, decodeSigned_eq_unexpectedEnd_iff data⟩

/-- The ten bytes of a number below zero that repeat its sign up to the last bit. -/
theorem decodeSigned_modulo_minusOne :
    let data := List.replicate 9 0xff ++ [0x7f]
    decodeSigned data = .ok (-1, 10) ∧ (-1 : Int64).toInt = signedSum (data.take 10) := by
  intro data
  have hread : decodeSigned data = .ok (-1, 10) := rfl
  exact ⟨hread, ((decodeSigned_modulo data).2.1 _ _ hread).2 (.inr (.inr rfl))⟩

/-- Not every value is right, and not everything that is out of range is refused: 2^64 is read as
zero. -/
theorem not_decodeSigned_exact :
    ¬ ((∀ data v n, decodeSigned data = .ok (v, n) →
          lastPlace? data = some (n - 1) ∧ v.toInt = signedSum (data.take n)) ∧
        ∀ data k, lastPlace? data = some k →
          ¬ (-2 ^ 63 ≤ signedSum (data.take (k + 1)) ∧ signedSum (data.take (k + 1)) < 2 ^ 63) →
          decodeSigned data = .error .leb128Overflow) := by
  rintro ⟨hvalue, -⟩
  have hsum := (hvalue (List.replicate 9 0x80 ++ [0x02]) 0 10 rfl).2
  exact absurd hsum (by decide)

end SourceDebugger.Leb128
