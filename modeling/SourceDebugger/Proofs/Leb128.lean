import SourceDebugger.Bytes.Leb128
import SourceDebugger.Proofs.Reading

/-!
# The value of LEB128 numbers

What the bytes of a LEB128 number mean, without regard to machine words: `Leb128.value` and
`Leb128.signedValue`. A reader takes the bytes of a number and gives its value, as long as there are
at most ten of them: `Leb128.IsUnsigned.takes` for numbers that fit into a word, and
`Leb128.IsSigned.takes` for all, whose value is taken modulo 2^64. Every word can be written so,
`Leb128.exists_isUnsigned` and `Leb128.exists_isSigned`.
-/

namespace SourceDebugger.Leb128

open Read ByteReader

/-- The seven bits of a byte that belong to the number. -/
def group (b : UInt8) : Nat := (b &&& 0x7f).toNat

/-- The bytes of one number: all but the last have the highest bit. -/
inductive Ended : List UInt8 → Prop
  | last {b : UInt8} : b &&& 0x80 = 0 → Ended [b]
  | more {b : UInt8} {rest : List UInt8} : b &&& 0x80 ≠ 0 → Ended rest → Ended (b :: rest)

/-- The value of the groups, the lowest one first. -/
def value : List UInt8 → Nat
  | [] => 0
  | b :: rest => group b + 128 * value rest

/-- The value in two's complement. -/
def signedValue : List UInt8 → Int
  | [] => 0
  | [b] => group b - if b &&& 0x40 = 0 then 0 else 128
  | b :: rest => group b + 128 * signedValue rest

/-- The most bytes that a number can take: a word has nine groups of seven bits and one bit more. -/
def maxLength : Nat := 10

/-- An ended number has a last byte. -/
theorem Ended.ne_nil {bs : List UInt8} (h : Ended bs) : bs ≠ [] := by
  cases h <;> simp

/-- A group has seven bits. -/
theorem group_lt (b : UInt8) : group b < 128 := by
  unfold group
  rw [UInt8.toNat_and]
  exact Nat.lt_of_le_of_lt Nat.and_le_right (by decide)

/-- A group in front of an ended number counts once, and the others 128 times. -/
theorem signedValue_cons (b : UInt8) {bs : List UInt8} (h : Ended bs) :
    signedValue (b :: bs) = group b + 128 * signedValue bs := by
  cases h <;> rfl

/-- A word with another one above its lowest bits. -/
theorem toNat_or_shiftLeft {acc word : UInt64} {shift : Nat} (hacc : acc.toNat < 2 ^ shift)
    (hshift : shift < 64) :
    (acc ||| (word <<< UInt64.ofNat shift)).toNat =
      acc.toNat + word.toNat * 2 ^ shift % 2 ^ 64 := by
  have hword : (UInt64.ofNat shift).toNat % 64 = shift := by
    rw [UInt64.toNat_ofNat']
    omega
  have hsplit : word.toNat * 2 ^ shift % 2 ^ 64 =
      2 ^ shift * (word.toNat % 2 ^ (64 - shift)) := by
    rw [← Nat.mul_mod_mul_left, ← Nat.pow_add, Nat.add_sub_cancel' (Nat.le_of_lt hshift),
      Nat.mul_comm]
  -- the two words have no bit in common, so their union is their sum
  rw [UInt64.toNat_or, UInt64.toNat_shiftLeft, hword, Nat.shiftLeft_eq, hsplit, Nat.or_comm,
    ← Nat.two_pow_add_eq_or_of_lt hacc, Nat.add_comm]

/-- The word with the groups that were read so far, after one more. -/
theorem toNat_or_group {acc : UInt64} {b : UInt8} {shift : Nat} (hacc : acc.toNat < 2 ^ shift)
    (hshift : shift < 64) :
    (acc ||| ((b &&& 0x7f).toUInt64 <<< UInt64.ofNat shift)).toNat =
      acc.toNat + group b * 2 ^ shift % 2 ^ 64 := by
  rw [toNat_or_shiftLeft hacc hshift, UInt8.toNat_toUInt64, group]

/-- One more group, unless it goes beyond the word. -/
theorem add_group_lt {acc : Nat} (b : UInt8) {shift : Nat} (hacc : acc < 2 ^ shift) :
    acc + group b * 2 ^ shift < 2 ^ (shift + 7) := by
  have := Nat.mul_le_mul_right (2 ^ shift) (Nat.le_of_lt_succ (group_lt b))
  rw [Nat.pow_add]
  omega

/-- A group that fits into the word is not refused. -/
theorem not_overflows {b : UInt8} {shift : Nat} (hshift : shift < 64)
    (hfits : group b * 2 ^ shift < 2 ^ 64) :
    ¬ (shift ≥ 64 ∨ shift = 63 ∧ (b &&& 0x7f).toUInt64 > 1) := by
  -- the place is behind the word, or the last place has more than one bit
  rintro (hge | ⟨rfl, hgt⟩)
  · omega
  · have hgt : 1 < group b := by
      have := UInt64.lt_iff_toNat_lt.1 hgt
      rwa [UInt8.toNat_toUInt64] at this
    omega

/-- The groups behind the first one are one group further up. -/
theorem value_cons_mul (b : UInt8) (bs : List UInt8) (shift : Nat) :
    value (b :: bs) * 2 ^ shift = group b * 2 ^ shift + value bs * 2 ^ (shift + 7) := by
  rw [value, Nat.pow_add, Nat.add_mul]
  congr 1
  rw [Nat.mul_comm 128, Nat.mul_assoc, Nat.mul_comm 128]

/-- A group with others behind it goes to its place above those that were read. -/
theorem unsignedFrom_more {acc : UInt64} {b : UInt8} {shift : Nat} (hacc : acc.toNat < 2 ^ shift)
    (hshift : shift < 64) (hgroup : group b * 2 ^ shift < 2 ^ 64) (hb : b &&& 0x80 ≠ 0) :
    ∃ acc' : UInt64, acc'.toNat = acc.toNat + group b * 2 ^ shift ∧
      acc'.toNat < 2 ^ (shift + 7) ∧ ∀ position rest,
        unsignedFrom acc shift position (b :: rest) =
          unsignedFrom acc' (shift + 7) (position + 1) rest := by
  have hor := toNat_or_group (b := b) hacc hshift
  rw [Nat.mod_eq_of_lt hgroup] at hor
  refine ⟨_, hor, hor ▸ add_group_lt b hacc, fun position rest => ?_⟩
  simp only [unsignedFrom]
  rw [if_neg (not_overflows hshift hgroup), if_neg hb]

/-- The groups of an unsigned number are read behind those with the value `acc`. -/
theorem unsignedFrom_append {bs : List UInt8} (h : Ended bs) {acc : UInt64} {shift : Nat}
    (hacc : acc.toNat < 2 ^ shift) (hlength : shift + 7 * bs.length ≤ 7 * maxLength)
    (hfits : acc.toNat + value bs * 2 ^ shift < 2 ^ 64) (position : Nat) (rest : List UInt8) :
    unsignedFrom acc shift position (bs ++ rest) =
      (.ok (UInt64.ofNat (acc.toNat + value bs * 2 ^ shift)), ⟨position + bs.length, rest⟩) := by
  -- the value so far and the place of the next group go along
  induction h generalizing acc shift position with
  | @last b hb =>
    simp only [value, Nat.mul_zero, Nat.add_zero, List.length_singleton, maxLength]
      at hfits hlength ⊢
    have hgroup : group b * 2 ^ shift < 2 ^ 64 := by omega
    have hor := toNat_or_group (b := b) hacc (by omega)
    rw [Nat.mod_eq_of_lt hgroup] at hor
    simp only [List.cons_append, List.nil_append, unsignedFrom]
    rw [if_neg (not_overflows (by omega) hgroup), if_pos hb, ← hor, UInt64.ofNat_toNat]
  | @more b bs hb _ ih =>
    simp only [List.length_cons, maxLength] at hlength ⊢
    rw [value_cons_mul] at hfits ⊢
    obtain ⟨acc', hacc', hlt', hnext⟩ := unsignedFrom_more hacc (by omega) (by omega) hb
    rw [List.cons_append, hnext, ih hlt' (by simp only [maxLength]; omega) (by omega), hacc',
      Nat.add_assoc acc.toNat, Nat.add_assoc position, Nat.add_comm 1]

/-- Signed words are the integers modulo 2^64. -/
theorem ofInt_congr {m n : Int} (h : m % 2 ^ 64 = n % 2 ^ 64) : Int64.ofInt m = Int64.ofInt n := by
  have hsize : (Int64.size : Int) = 2 ^ 64 := rfl
  rw [← Int64.toInt_inj, Int64.toInt_ofInt, Int64.toInt_ofInt, ← Int.emod_bmod, ← Int.emod_bmod n,
    hsize, h]

/-- A word read as a signed one, if its value is known up to multiples of 2^64. -/
theorem toInt64_of_emod {word : UInt64} {n : Int} (h : (word.toNat : Int) % 2 ^ 64 = n % 2 ^ 64) :
    word.toInt64 = Int64.ofInt n := by
  rw [← ofInt_congr h, Int64.ofInt_eq_ofNat]
  exact Int64.toBitVec.inj (by simp)

/-- The last group of a signed number, which has its sign. -/
theorem emod_signed {acc : UInt64} {b : UInt8} {shift : Nat} (hacc : acc.toNat < 2 ^ shift)
    (hshift : shift < 64) :
    let groups := acc ||| ((b &&& 0x7f).toUInt64 <<< UInt64.ofNat shift)
    let word := if shift + 7 < 64 ∧ b &&& 0x40 ≠ 0 then
      groups ||| (0xffffffffffffffff <<< UInt64.ofNat (shift + 7)) else groups
    (word.toNat : Int) % 2 ^ 64 = (acc.toNat + signedValue [b] * 2 ^ shift) % 2 ^ 64 := by
  have hgroup := toNat_or_group (b := b) hacc hshift
  have hpow : (2 : Nat) ^ (shift + 7) = 128 * 2 ^ shift := by
    rw [Nat.pow_add, Nat.mul_comm]
  have hcast : (group b : Int) * 2 ^ shift = ((group b * 2 ^ shift : Nat) : Int) := by
    push_cast
    rfl
  intro groups word
  by_cases hsign : b &&& 0x40 = 0
  · -- no sign: the groups are the number
    have hword : word = groups := if_neg (by simp [hsign])
    rw [hword, hgroup, signedValue, if_pos hsign, Int.sub_zero, hcast]
    omega
  have hvalue : (acc.toNat + signedValue [b] * 2 ^ shift : Int) =
      ((acc.toNat + group b * 2 ^ shift : Nat) : Int) - ((2 ^ (shift + 7) : Nat) : Int) := by
    rw [signedValue, if_neg hsign, hpow, Int.sub_mul, hcast]
    push_cast
    omega
  -- the sign is a multiple of the place behind the last group
  rw [hvalue]
  by_cases hroom : shift + 7 < 64
  · -- there is room for ones above the groups
    have hlt := add_group_lt b hacc
    have hle : (2 : Nat) ^ (shift + 7) ≤ 2 ^ 63 := Nat.pow_le_pow_right (by omega) (by omega)
    rw [Nat.mod_eq_of_lt (by omega)] at hgroup
    have hword : word = groups ||| (0xffffffffffffffff <<< UInt64.ofNat (shift + 7)) :=
      if_pos ⟨hroom, hsign⟩
    have hones : (0xffffffffffffffff : UInt64).toNat = 2 ^ 64 - 1 := rfl
    rw [hword, toNat_or_shiftLeft (by rwa [hgroup]) hroom, hgroup, hones]
    omega
  · -- the sign is the highest bit of the word
    have hword : word = groups := if_neg (by simp [hroom])
    have hzero : (2 : Nat) ^ (shift + 7) % 2 ^ 64 = 0 :=
      Nat.mod_eq_zero_of_dvd (Nat.pow_dvd_pow 2 (by omega))
    rw [hword, hgroup]
    omega

/-- The groups of a signed number are read behind those with the value `acc`. -/
theorem signedFrom_append {bs : List UInt8} (h : Ended bs) {acc : UInt64} {shift : Nat}
    (hacc : acc.toNat < 2 ^ shift) (hlength : shift + 7 * bs.length ≤ 7 * maxLength)
    (position : Nat) (rest : List UInt8) :
    signedFrom acc shift position (bs ++ rest) =
      (.ok (Int64.ofInt (acc.toNat + signedValue bs * 2 ^ shift)),
        ⟨position + bs.length, rest⟩) := by
  -- as for unsigned numbers, but the last group has the sign
  induction h generalizing acc shift position with
  | @last b hb =>
    simp only [List.length_singleton, maxLength] at hlength ⊢
    simp only [List.cons_append, List.nil_append, signedFrom]
    rw [if_neg (by omega), if_pos hb, toInt64_of_emod (emod_signed hacc (by omega))]
  | @more b bs hb hbs ih =>
    simp only [List.length_cons, maxLength] at hlength ⊢
    have hlt := add_group_lt b hacc
    have hpos : 0 < bs.length := List.length_pos_iff.2 hbs.ne_nil
    have hor := toNat_or_group (b := b) hacc (by omega)
    have hle : (2 : Nat) ^ (shift + 7) ≤ 2 ^ 63 := Nat.pow_le_pow_right (by omega) (by omega)
    rw [Nat.mod_eq_of_lt (by omega)] at hor
    -- the value of the rest is one group further up
    have hvalue : ((acc.toNat + group b * 2 ^ shift : Nat) : Int) +
        signedValue bs * 2 ^ (shift + 7) = acc.toNat + signedValue (b :: bs) * 2 ^ shift := by
      rw [signedValue_cons b hbs, Int.add_mul, Int.pow_add, Int.mul_comm 128 (signedValue bs),
        Int.mul_assoc, Int.mul_comm (2 ^ shift) (2 ^ 7)]
      push_cast
      omega
    simp only [List.cons_append, signedFrom]
    rw [if_neg (by omega), if_neg hb, ih (by rwa [hor]) (by simp only [maxLength]; omega), hor,
      hvalue, Nat.add_assoc position, Nat.add_comm 1]

/-- The bytes of an unsigned number, in any encoding that is not too long for a word. -/
structure IsUnsigned (n : Nat) (bs : List UInt8) : Prop where
  ended : Ended bs
  length_le : bs.length ≤ maxLength
  value_eq : value bs = n

/-- The bytes of a signed number. -/
structure IsSigned (n : Int) (bs : List UInt8) : Prop where
  ended : Ended bs
  length_le : bs.length ≤ maxLength
  value_eq : signedValue bs = n

/-- The bytes of a block behind its length, which is a word. -/
structure IsBlock (block bs : List UInt8) : Prop where
  length_lt : block.length < 2 ^ 64
  eq_append : ∃ ls, IsUnsigned block.length ls ∧ bs = ls ++ block

/-- A number that fits into a word is read as it is. -/
theorem IsUnsigned.takes {n : Nat} {bs : List UInt8} (h : IsUnsigned n bs) (hfits : n < 2 ^ 64) :
    Takes uleb128 bs (UInt64.ofNat n) := by
  intro position rest
  have hlength := h.length_le
  have hzero : (0 : UInt64).toNat < 2 ^ 0 := by decide
  have hread := unsignedFrom_append h.ended hzero (by omega) (by simpa [h.value_eq]) position rest
  simpa [uleb128, h.value_eq] using hread

/-- A signed number is read modulo 2^64. -/
theorem IsSigned.takes {n : Int} {bs : List UInt8} (h : IsSigned n bs) :
    Takes sleb128 bs (Int64.ofInt n) := by
  intro position rest
  have hlength := h.length_le
  have hzero : (0 : UInt64).toNat < 2 ^ 0 := by decide
  have hread := signedFrom_append h.ended hzero (by omega) position rest
  simpa [sleb128, h.value_eq] using hread

/-- The groups of a number are read up to its last one. -/
theorem local_unsignedFrom {acc : UInt64} {shift position : Nat} {data : List UInt8} {n : UInt64}
    {r : ByteReader} (h : unsignedFrom acc shift position data = (.ok n, r)) :
    ∃ bs, data = bs ++ r.rest ∧ ∀ position rest,
      unsignedFrom acc shift position (bs ++ rest) = (.ok n, ⟨position + bs.length, rest⟩) := by
  -- along the groups; accumulator and position change, the bytes that are taken do not depend on
  -- them
  induction data generalizing acc shift position with
  | nil => cases h
  | cons b data ih =>
    simp only [unsignedFrom] at h
    split at h
    · cases h
    rename_i hfits
    split at h
    · -- the last group
      rename_i hlast
      cases h
      refine ⟨[b], rfl, fun position rest => ?_⟩
      simp only [List.cons_append, List.nil_append, unsignedFrom, if_neg hfits, if_pos hlast,
        List.length_singleton]
    · rename_i hmore
      obtain ⟨bs, hbs, htakes⟩ := ih h
      refine ⟨b :: bs, by rw [hbs, List.cons_append], fun position rest => ?_⟩
      simp only [List.cons_append, unsignedFrom, if_neg hfits, if_neg hmore, htakes,
        List.length_cons, Nat.add_assoc, Nat.add_comm 1]

/-- A signed number is read from the same bytes, whatever comes behind them. -/
theorem local_signedFrom {acc : UInt64} {shift position : Nat} {data : List UInt8} {n : Int64}
    {r : ByteReader} (h : signedFrom acc shift position data = (.ok n, r)) :
    ∃ bs, data = bs ++ r.rest ∧ ∀ position rest,
      signedFrom acc shift position (bs ++ rest) = (.ok n, ⟨position + bs.length, rest⟩) := by
  -- along the groups, as for numbers without a sign
  induction data generalizing acc shift position with
  | nil => cases h
  | cons b data ih =>
    simp only [signedFrom] at h
    split at h
    · cases h
    rename_i hfits
    split at h
    · rename_i hlast
      cases h
      refine ⟨[b], rfl, fun position rest => ?_⟩
      simp only [List.cons_append, List.nil_append, signedFrom, if_neg hfits, if_pos hlast,
        List.length_singleton]
    · rename_i hmore
      obtain ⟨bs, hbs, htakes⟩ := ih h
      refine ⟨b :: bs, by rw [hbs, List.cons_append], fun position rest => ?_⟩
      simp only [List.cons_append, signedFrom, if_neg hfits, if_neg hmore, htakes,
        List.length_cons, Nat.add_assoc, Nat.add_comm 1]

/-- An unsigned number looks at no more than it takes. -/
theorem local_uleb128 : Local uleb128 := by
  intro r n r' h
  obtain ⟨bs, hbs, htakes⟩ := local_unsignedFrom h
  exact ⟨bs, hbs, htakes⟩

/-- A signed number looks at no more than it takes. -/
theorem local_sleb128 : Local sleb128 := by
  intro r n r' h
  obtain ⟨bs, hbs, htakes⟩ := local_signedFrom h
  exact ⟨bs, hbs, htakes⟩

/-- A last byte for a group. -/
theorem last_ofNat {n : Nat} (h : n < 128) :
    UInt8.ofNat n &&& 0x80 = 0 ∧ group (UInt8.ofNat n) = n := by
  have hall : ∀ i : Fin 128, UInt8.ofNat i &&& 0x80 = 0 ∧ group (UInt8.ofNat i) = i := by decide
  exact hall ⟨n, h⟩

/-- A byte for a group that is not the last. -/
theorem more_ofNat {n : Nat} (h : n < 128) :
    UInt8.ofNat (n + 128) &&& 0x80 ≠ 0 ∧ group (UInt8.ofNat (n + 128)) = n := by
  have hall : ∀ i : Fin 128,
      UInt8.ofNat (i + 128) &&& 0x80 ≠ 0 ∧ group (UInt8.ofNat (i + 128)) = i := by decide
  exact hall ⟨n, h⟩

/-- A last byte for a number with a sign. -/
theorem last_ofInt {n : Int} (h : -64 ≤ n ∧ n < 64) :
    UInt8.ofNat (n % 128).toNat &&& 0x80 = 0 ∧
      signedValue [UInt8.ofNat (n % 128).toNat] = n := by
  have hall : ∀ i : Fin 128, UInt8.ofNat i &&& 0x80 = 0 ∧
      signedValue [UInt8.ofNat i] = if (i : Nat) < 64 then (i : Int) else i - 128 := by decide
  obtain ⟨hlast, hvalue⟩ := hall ⟨(n % 128).toNat, by omega⟩
  refine ⟨hlast, hvalue.trans ?_⟩
  dsimp only
  split <;> omega

/-- Numbers with so many groups can be written. -/
theorem exists_ended (count n : Nat) (h : n < 128 ^ (count + 1)) :
    ∃ bs, Ended bs ∧ bs.length ≤ count + 1 ∧ value bs = n := by
  induction count generalizing n with
  | zero =>
    obtain ⟨hlast, hgroup⟩ := last_ofNat h
    exact ⟨_, .last hlast, by simp, by simp [value, hgroup]⟩
  | succ count ih =>
    obtain ⟨bs, hended, hlength, hvalue⟩ := ih (n / 128) (by rw [Nat.pow_succ] at h; omega)
    obtain ⟨hmore, hgroup⟩ := more_ofNat (Nat.mod_lt n (by decide : 128 > 0))
    refine ⟨_, .more hmore hended, by simpa using hlength, ?_⟩
    rw [value, hgroup, hvalue, Nat.mod_add_div]

/-- Every number that fits is one of so many bytes. -/
theorem exists_ended_signed (count : Nat) (n : Int)
    (h : -(64 * 128 ^ count) ≤ n ∧ n < 64 * 128 ^ count) :
    ∃ bs, Ended bs ∧ bs.length ≤ count + 1 ∧ signedValue bs = n := by
  induction count generalizing n with
  | zero =>
    obtain ⟨hlast, hvalue⟩ := last_ofInt (n := n) (by simpa using h)
    exact ⟨_, .last hlast, by simp, hvalue⟩
  | succ count ih =>
    obtain ⟨bs, hended, hlength, hvalue⟩ := ih (n / 128) (by rw [Int.pow_succ] at h; omega)
    obtain ⟨hmore, hgroup⟩ := more_ofNat (n := (n % 128).toNat) (by omega)
    refine ⟨_, .more hmore hended, by simpa using hlength, ?_⟩
    rw [signedValue_cons _ hended, hgroup, hvalue]
    omega

/-- A word can be written as an unsigned number. -/
theorem exists_isUnsigned {n : Nat} (h : n < 2 ^ 64) : ∃ bs, IsUnsigned n bs := by
  obtain ⟨bs, hended, hlength, hvalue⟩ := exists_ended 9 n (by omega)
  exact ⟨bs, hended, hlength, hvalue⟩

/-- A word can be written as a signed number. -/
theorem exists_isSigned {n : Int} (h : -2 ^ 63 ≤ n ∧ n < 2 ^ 63) : ∃ bs, IsSigned n bs := by
  obtain ⟨bs, hended, hlength, hvalue⟩ := exists_ended_signed 9 n (by omega)
  exact ⟨bs, hended, hlength, hvalue⟩

end SourceDebugger.Leb128
