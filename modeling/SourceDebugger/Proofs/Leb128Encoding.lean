import Mathlib
import SourceDebugger.Proofs.Leb128Decoding

/-!
# LEB128 encoding is shortest

What is encoded is decoded again, whatever stands behind it, and nothing shorter is decoded to the
same number: `Leb128.encode_shortest`. The encodings are given by division; written as loops over
words, which shift the number until nothing is left but its sign, they come to an end within ten
rounds.
-/

namespace SourceDebugger.Leb128

open ByteReader

/-! ### The bytes of an encoding -/

/-- An encoding ends with its last byte, and not before. -/
theorem ended_encodeNat (n : Nat) : Ended (encodeNat n) := by
  induction n using encodeNat.induct with
  | case1 n h =>
    rw [encodeNat, if_pos h]
    exact .last (last_ofNat h).1
  | case2 n h ih =>
    rw [encodeNat, if_neg h]
    exact .more (more_ofNat (Nat.mod_lt n (by decide))).1 ih

/-- The groups of an encoding stand for the number. -/
theorem value_encodeNat (n : Nat) : value (encodeNat n) = n := by
  induction n using encodeNat.induct with
  | case1 n h => rw [encodeNat, if_pos h, value, value, (last_ofNat h).2, Nat.mul_zero, Nat.add_zero]
  | case2 n h ih =>
    rw [encodeNat, if_neg h, value, ih, (more_ofNat (Nat.mod_lt n (by decide))).2, Nat.mod_add_div]

/-- A signed encoding ends with its last byte, and not before. -/
theorem ended_encodeInt (n : Int) : Ended (encodeInt n) := by
  induction n using encodeInt.induct with
  | case1 n h =>
    rw [encodeInt, if_pos h]
    exact .last (last_ofInt h).1
  | case2 n h ih =>
    rw [encodeInt, if_neg h]
    exact .more (more_ofNat (by omega)).1 ih

/-- The groups of a signed encoding stand for the number. -/
theorem signedValue_encodeInt (n : Int) : signedValue (encodeInt n) = n := by
  induction n using encodeInt.induct with
  | case1 n h => rw [encodeInt, if_pos h, (last_ofInt h).2]
  | case2 n h ih =>
    rw [encodeInt, if_neg h, signedValue_cons _ (ended_encodeInt _), ih, (more_ofNat (by omega)).2]
    omega

/-- No encoding of a natural number has fewer bytes. -/
theorem length_encodeNat_le {bs : List UInt8} (h : Ended bs) :
    (encodeNat (value bs)).length ≤ bs.length := by
  induction h with
  | @last b hb =>
    have hlt : value [b] < 128 := value_lt [b]
    rw [encodeNat, if_pos hlt]
    rfl
  | @more b bs hb hbs ih =>
    have hgroup := group_lt b
    rw [encodeNat]
    split
    · exact Nat.succ_le_succ (Nat.zero_le _)
    · rw [value, Nat.add_mul_div_left _ _ (by decide), Nat.div_eq_of_lt hgroup, Nat.zero_add]
      exact Nat.succ_le_succ ih

/-- No encoding of an integer has fewer bytes. -/
theorem length_encodeInt_le {bs : List UInt8} (h : Ended bs) :
    (encodeInt (signedValue bs)).length ≤ bs.length := by
  -- along the bytes: no encoding of a number has fewer groups than the shortest one
  induction h with
  | @last b hb =>
    have hgroup := group_lt b
    have hrange : -64 ≤ signedValue [b] ∧ signedValue [b] < 64 := by
      rw [signedValue_singleton]
      split <;> omega
    rw [encodeInt, if_pos hrange]
    rfl
  | @more b bs hb hbs ih =>
    have hgroup := group_lt b
    have hrest : signedValue (b :: bs) / 128 = signedValue bs := by
      rw [signedValue_cons b hbs]
      omega
    rw [encodeInt]
    split
    -- a number that fits into one group ends at once, however long the given encoding is
    · exact Nat.succ_le_succ (Nat.zero_le _)
    · rw [hrest]
      exact Nat.succ_le_succ ih

/-! ### Encoding as a loop over words -/

/-- A loop that writes one group in each round, with the highest bit set unless the group is the
last one. There is no result if it is not done after some number of rounds. -/
def rounds {α : Type} (low : α → UInt8) (next : α → α) (isLast : α → Bool) :
    Nat → α → Option (List UInt8)
  | 0, _ => none
  | count + 1, a =>
    if isLast a then some [low a]
    else (rounds low next isLast count (next a)).map ((low a ||| 0x80) :: ·)

/-- What satisfies the equation of the loop is its result, if there are as many rounds as bytes. -/
theorem rounds_eq_some {α : Type} {low : α → UInt8} {next : α → α} {isLast : α → Bool}
    {encode : α → List UInt8} (hencode : ∀ a, encode a =
      if isLast a then [low a] else (low a ||| 0x80) :: encode (next a))
    {count : Nat} {a : α} (hcount : (encode a).length ≤ count) :
    rounds low next isLast count a = some (encode a) := by
  induction count generalizing a with
  | zero =>
    rw [hencode] at hcount
    split at hcount <;> cases hcount
  | succ count ih =>
    rw [hencode] at hcount ⊢
    rw [rounds]
    split
    · rfl
    · rename_i hmore
      rw [if_neg hmore, List.length_cons] at hcount
      rw [ih (Nat.le_of_succ_le_succ hcount), Option.map_some]

/-- The lowest seven bits of a word. -/
def lowBits (n : UInt64) : UInt8 := (n &&& 0x7f).toUInt8

/-- The loop for unsigned numbers: the last group is the one behind which nothing is left. -/
def unsignedRounds : Nat → UInt64 → Option (List UInt8) :=
  rounds lowBits (· >>> 7) fun n => n >>> 7 = 0

/-- The loop for signed numbers: the last group is the one behind which nothing is left but the
sign, which it has as its highest bit. -/
def signedRounds : Nat → Int64 → Option (List UInt8) :=
  rounds (lowBits ·.toUInt64) (· >>> 7) fun n =>
    (n >>> 7 = 0 ∧ lowBits n.toUInt64 &&& 0x40 = 0) ∨
      (n >>> 7 = -1 ∧ lowBits n.toUInt64 &&& 0x40 ≠ 0)

/-- The lowest group is the rest modulo 128. -/
theorem lowBits_eq (n : UInt64) : lowBits n = UInt8.ofNat (n.toNat % 128) := by
  have hand : (n &&& 0x7f).toNat = n.toNat % 2 ^ 7 := Nat.and_two_pow_sub_one_eq_mod n.toNat 7
  rw [lowBits, ← UInt8.toNat_inj, UInt64.toNat_toUInt8, hand]
  simp

/-- Marking a group adds 128. -/
theorem ofNat_or_more {n : Nat} (h : n < 128) : UInt8.ofNat n ||| 0x80 = UInt8.ofNat (n + 128) := by
  have hall : ∀ i : Fin 128, UInt8.ofNat i ||| 0x80 = UInt8.ofNat (i + 128) := by decide
  exact hall ⟨n, h⟩

/-- Shifting by a group is dividing by 128. -/
theorem toNat_shiftRight_seven (n : UInt64) : (n >>> 7).toNat = n.toNat / 128 := by
  rw [UInt64.toNat_shiftRight]
  exact Nat.shiftRight_eq_div_pow _ _

/-- Shifting a signed number by a group is dividing by 128, rounding down. -/
theorem toInt_shiftRight_seven (n : Int64) : (n >>> 7).toInt = n.toInt / 128 := by
  have hshift : (n >>> 7).toInt = (n.toBitVec.sshiftRight 7).toInt := rfl
  rw [hshift, BitVec.toInt_sshiftRight, Int.shiftRight_eq_div_pow]
  rfl

/-- As an unsigned word, a signed number is taken modulo the word. -/
theorem toNat_toUInt64 (n : Int64) : (n.toUInt64.toNat : Int) = n.toInt % 2 ^ 64 := by
  have hlt := n.toBitVec.isLt
  have hword : n.toUInt64.toNat = n.toBitVec.toNat := rfl
  rw [hword, ← Int64.toInt_toBitVec, BitVec.toInt_eq_toNat_bmod, Int.bmod_def]
  omega

/-- One round of the loop for unsigned numbers. -/
theorem encodeUnsigned_eq (n : UInt64) : encodeUnsigned n =
    if decide (n >>> 7 = 0) then [lowBits n]
    else (lowBits n ||| 0x80) :: encodeUnsigned (n >>> 7) := by
  have hlast : n >>> 7 = 0 ↔ n.toNat < 128 := by
    rw [← UInt64.toNat_inj, toNat_shiftRight_seven, UInt64.toNat_zero]
    omega
  have hmod : n.toNat % 128 < 128 := Nat.mod_lt _ (by decide)
  simp only [decide_eq_true_eq, hlast, lowBits_eq, ofNat_or_more hmod, encodeUnsigned,
    toNat_shiftRight_seven]
  rw [encodeNat]
  split
  · rename_i hlt
    rw [Nat.mod_eq_of_lt hlt]
  · rfl

/-- One round of the loop for signed numbers. -/
theorem encodeSigned_eq (n : Int64) : encodeSigned n =
    if decide ((n >>> 7 = 0 ∧ lowBits n.toUInt64 &&& 0x40 = 0) ∨
        (n >>> 7 = -1 ∧ lowBits n.toUInt64 &&& 0x40 ≠ 0)) then [lowBits n.toUInt64]
    else (lowBits n.toUInt64 ||| 0x80) :: encodeSigned (n >>> 7) := by
  have hlow : n.toUInt64.toNat % 128 = (n.toInt % 128).toNat := by
    have hword := toNat_toUInt64 n
    omega
  have hmod : (n.toInt % 128).toNat < 128 := by omega
  -- nothing is left but the sign, and it is the highest bit of the group
  have hlast : ((n >>> 7 = 0 ∧ lowBits n.toUInt64 &&& 0x40 = 0) ∨
      (n >>> 7 = -1 ∧ lowBits n.toUInt64 &&& 0x40 ≠ 0)) ↔ -64 ≤ n.toInt ∧ n.toInt < 64 := by
    rw [lowBits_eq, hlow, Ne, sign_eq_zero_iff, (last_ofNat hmod).2, ← Int64.toInt_inj,
      ← Int64.toInt_inj, toInt_shiftRight_seven]
    have hzero : (0 : Int64).toInt = 0 := rfl
    have hminus : (-1 : Int64).toInt = -1 := rfl
    rw [hzero, hminus]
    omega
  simp only [decide_eq_true_eq, hlast]
  rw [lowBits_eq, hlow, ofNat_or_more hmod, encodeSigned, encodeSigned, toInt_shiftRight_seven,
    encodeInt]

/-! ### Round trips -/

/-- What is encoded is an encoding of the number. -/
theorem isUnsigned_encodeUnsigned (n : UInt64) : IsUnsigned n.toNat (encodeUnsigned n) where
  ended := ended_encodeNat _
  length_le := by
    -- there is an encoding of at most ten bytes, and this one is no longer
    obtain ⟨bs, hbs⟩ := exists_isUnsigned n.toNat_lt
    have hle := length_encodeNat_le hbs.ended
    rw [hbs.value_eq] at hle
    exact hle.trans hbs.length_le
  value_eq := value_encodeNat _

/-- What is encoded is a signed encoding of the number. -/
theorem isSigned_encodeSigned (n : Int64) : IsSigned n.toInt (encodeSigned n) where
  ended := ended_encodeInt _
  length_le := by
    obtain ⟨bs, hbs⟩ := exists_isSigned ⟨n.le_toInt, n.toInt_lt⟩
    have hle := length_encodeInt_le hbs.ended
    rw [hbs.value_eq] at hle
    exact hle.trans hbs.length_le
  value_eq := signedValue_encodeInt _

/-- What is known of an encoding of words, a loop that computes it and a decoding. -/
structure Shortest {α : Type} (encode : α → List UInt8) (rounds : Nat → α → Option (List UInt8))
    (decode : List UInt8 → Except DebugError (α × Nat)) : Prop where
  /-- What is encoded is decoded again, whatever stands behind it. -/
  decode_encode : ∀ n suffix, decode (encode n ++ suffix) = .ok (n, (encode n).length)
  /-- The loop is done within ten rounds. -/
  rounds_eq : ∀ n, rounds 10 n = some (encode n)
  /-- There are at most ten bytes. -/
  length_le : ∀ n, (encode n).length ≤ 10
  /-- Nothing shorter is decoded to the same number. -/
  length_le_of_decode : ∀ n bs k, decode bs = .ok (n, k) →
    (encode n).length ≤ k ∧ k ≤ bs.length

/-- The encoding of unsigned numbers is decoded again, and no other encoding is shorter. -/
theorem shortest_unsigned : Shortest encodeUnsigned unsignedRounds decodeUnsigned where
  decode_encode n suffix := by
    have hread := (isUnsigned_encodeUnsigned n).takes n.toNat_lt 0 suffix
    rw [UInt64.ofNat_toNat, Nat.zero_add] at hread
    rw [decodeUnsigned, ofList, hread]
    rfl
  rounds_eq n := rounds_eq_some encodeUnsigned_eq (isUnsigned_encodeUnsigned n).length_le
  length_le n := (isUnsigned_encodeUnsigned n).length_le
  length_le_of_decode n bs k h := by
    obtain ⟨j, hplace, rfl, -, -, hn⟩ := (decodeUnsigned_eq_ok_iff bs n k).1 h
    have hle := length_encodeNat_le (ended_take_of_lastPlace? hplace)
    rw [value_eq_groupSum, ← hn, List.length_take] at hle
    exact ⟨hle.trans (Nat.min_le_left _ _), lt_length_of_lastPlace? hplace⟩

/-- The encoding of signed numbers is decoded again, and no other encoding is shorter. -/
theorem shortest_signed : Shortest encodeSigned signedRounds decodeSigned where
  decode_encode n suffix := by
    have hread := (isSigned_encodeSigned n).takes 0 suffix
    rw [Int64.ofInt_toInt, Nat.zero_add] at hread
    rw [decodeSigned, ofList, hread]
    rfl
  rounds_eq n := rounds_eq_some encodeSigned_eq (isSigned_encodeSigned n).length_le
  length_le n := (isSigned_encodeSigned n).length_le
  length_le_of_decode n bs k h := by
    obtain ⟨j, hplace, rfl, hlength, -⟩ := (decodeSigned_eq_ok_iff bs n k).1 h
    refine ⟨?_, lt_length_of_lastPlace? hplace⟩
    -- only ten bytes can be decoded to a value that is not theirs, and there are no more in any case
    rcases Nat.lt_or_eq_of_le hlength with hlt | hten
    · have hended := ended_take_of_lastPlace? hplace
      have hle := length_encodeInt_le hended
      rw [signedValue_eq_signedSum hended.ne_nil, ← (toInt_eq_signedSum_iff h).2 (.inl hlt),
        List.length_take] at hle
      exact hle.trans (Nat.min_le_left _ _)
    · rw [hten]
      exact (isSigned_encodeSigned n).length_le

/-- Both encodings of words are decoded again, whatever stands behind them, are written by a loop
that ends, take at most ten bytes, and are as short as any bytes that are decoded to the same
number. -/
theorem encode_shortest :
    Shortest encodeUnsigned unsignedRounds decodeUnsigned ∧
      Shortest encodeSigned signedRounds decodeSigned :=
  ⟨shortest_unsigned, shortest_signed⟩

/-- Three bytes that are decoded to -1 are more than it needs. -/
theorem encode_shortest_padded :
    decodeSigned [0xff, 0xff, 0x7f] = .ok (-1, 3) ∧ (encodeSigned (-1)).length ≤ 3 := by
  have hread : decodeSigned [0xff, 0xff, 0x7f] = .ok (-1, 3) := rfl
  exact ⟨hread, (encode_shortest.2.length_le_of_decode _ _ _ hread).1⟩

end SourceDebugger.Leb128
