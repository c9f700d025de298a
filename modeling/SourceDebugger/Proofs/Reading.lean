import Mathlib
import SourceDebugger.Bytes.Reader
import SourceDebugger.Proofs.Action

/-!
# What a reader takes

`Read.Takes x bs a` says that a reader `x` takes exactly the bytes `bs`, whatever comes behind them,
and gives `a`. Readers in a row take their bytes in a row, `Read.Takes.bind`.

A reader is `Read.Local` if it never looks at more than it takes: wherever it gives something, it
takes some bytes in this sense.
-/

namespace SourceDebugger

/-- The reader takes these bytes, wherever they are and whatever comes behind them. -/
def Read.Takes {α : Type} (x : Read α) (bs : List UInt8) (a : α) : Prop :=
  ∀ position rest, x ⟨position, bs ++ rest⟩ = (.ok a, ⟨position + bs.length, rest⟩)

namespace Read.Takes

variable {α β : Type} {x : Read α} {bs cs : List UInt8} {a : α}

theorem pure (a : α) : Takes (pure a) [] a := fun _ _ => rfl

/-- Readers in a row. -/
theorem bind {f : α → Read β} {b : β} (hx : Takes x bs a) (hf : Takes (f a) cs b) :
    Takes (x >>= f) (bs ++ cs) b := by
  intro position rest
  rw [Action.bind_apply, List.append_assoc, hx position]
  dsimp only
  rw [hf, List.length_append, Nat.add_assoc]

/-- A reader whose result is changed takes the same bytes. -/
theorem map {f : α → Read β} {b : β} (hx : Takes x bs a) (hf : f a = Pure.pure b) :
    Takes (x >>= f) bs b := by
  have hend : Takes (f a) [] b := hf ▸ pure b
  simpa using hx.bind hend

/-- A reader in front of others leaves them what stands behind its bytes. -/
theorem bind_apply (h : Takes x bs a) (f : α → Read β) (position : Nat)
    (rest : List UInt8) :
    (x >>= f) ⟨position, bs ++ rest⟩ = f a ⟨position + bs.length, rest⟩ := by
  rw [Action.bind_apply, h position rest]

/-- Nothing is all that a reader without bytes takes. -/
theorem pure_iff {b : α} : Takes (Pure.pure a : Read α) bs b ↔ bs = [] ∧ a = b := by
  constructor
  · intro h
    have hread := h 0 []
    rw [List.append_nil, Action.pure_apply, Prod.mk.injEq] at hread
    exact ⟨congrArg (·.rest) hread.2, Except.ok.inj hread.1⟩
  · rintro ⟨rfl, rfl⟩
    exact pure a

/-- A reader that fails takes nothing. -/
theorem throw_iff {e : DebugError} : Takes (throw e : Read α) bs a ↔ False :=
  iff_of_false (fun h => nomatch h 0 []) id

end Read.Takes

/-- What the reader takes it takes from the front, whatever comes behind. -/
def Read.Local {α : Type} (x : Read α) : Prop :=
  ∀ r a r', x r = (.ok a, r') → ∃ bs, r.rest = bs ++ r'.rest ∧ Read.Takes x bs a

namespace Read.Local

variable {α β : Type} {x : Read α}

theorem pure (a : α) : Local (pure a) := by
  rintro r _ _ ⟨⟩
  exact ⟨[], rfl, .pure a⟩

theorem throw (e : DebugError) : Local (throw e : Read α) := nofun

/-- A reader and those behind it look at no more than they take together. -/
theorem bind {f : α → Read β} (hx : Local x) (hf : ∀ a, Local (f a)) : Local (x >>= f) := by
  intro r b r' h
  rw [Action.bind_apply] at h
  rcases hr : x r with ⟨e | a, r₁⟩ <;> rw [hr] at h
  · cases h
  -- the second reader goes on behind what the first one takes
  obtain ⟨bs, hbs, htakes⟩ := hx r a r₁ hr
  obtain ⟨cs, hcs, htakes'⟩ := hf a r₁ b r' h
  exact ⟨bs ++ cs, by rw [hbs, hcs, List.append_assoc], htakes.bind htakes'⟩

theorem map {f : α → β} (hx : Local x) : Local (do return f (← x)) := hx.bind fun _ => pure _

theorem ite {p : Prop} [Decidable p] {y : Read α} (hx : Local x) (hy : Local y) :
    Local (if p then x else y) := by
  split
  · exact hx
  · exact hy

/-- All the bytes are taken if none is left, wherever they are and whatever comes behind them. -/
theorem takes (h : Local x) {bs : List UInt8} {a : α} {position : Nat}
    (hread : x (.ofList bs) = (.ok a, ⟨position, []⟩)) : Takes x bs a := by
  obtain ⟨cs, hcs, htakes⟩ := h _ _ _ hread
  obtain rfl : bs = cs := hcs.trans (List.append_nil cs)
  exact htakes

/-- Readers in a row take what each of them takes. -/
theorem takes_bind_iff {f : α → Read β} {bs : List UInt8} {b : β} (hx : Local x)
    (hf : ∀ a, Local (f a)) :
    Takes (x >>= f) bs b ↔
      ∃ a cs ds, bs = cs ++ ds ∧ Takes x cs a ∧ Takes (f a) ds b := by
  constructor
  · intro h
    have hread := h 0 []
    rw [List.append_nil, Action.bind_apply] at hread
    rcases hr : x ⟨0, bs⟩ with ⟨e | a, r⟩ <;> rw [hr] at hread
    · cases hread
    -- what the first one leaves is all taken by the second one
    obtain ⟨cs, hcs, htakes⟩ := hx _ a r hr
    obtain ⟨ds, hds, htakes'⟩ := hf a r b _ hread
    rw [List.append_nil] at hds
    exact ⟨a, cs, ds, hds ▸ hcs, htakes, htakes'⟩
  · rintro ⟨a, cs, ds, rfl, htakes, htakes'⟩
    exact htakes.bind htakes'

/-- What a changed result is made of was taken by the reader itself. -/
theorem takes_map_iff {f : α → β} {bs : List UInt8} {b : β} (hx : Local x) :
    Takes (do return f (← x)) bs b ↔ ∃ a, Takes x bs a ∧ f a = b := by
  rw [hx.takes_bind_iff fun _ => pure _]
  simp [Takes.pure_iff]

end Read.Local

namespace ByteReader

open Read

/-- A block of known length. -/
theorem takes_bytes (bs : List UInt8) : Takes (bytes bs.length) bs bs := by
  intro position rest
  have hlength : ¬ (bs ++ rest).length < bs.length := by
    rw [List.length_append]
    omega
  simp only [bytes, remaining, if_neg hlength, List.take_left, skip, List.drop_left]

/-- As many bytes as a word has are taken for the number they stand for. -/
theorem takes_word (bs : List UInt8) : Takes (word bs.length) bs (littleEndian bs) :=
  (takes_bytes bs).map rfl

/-- One byte is taken for itself. -/
theorem takes_uint8 (b : UInt8) : Takes uint8 [b] b := by
  refine (takes_word [b]).map (congrArg Pure.pure ?_)
  simp [littleEndian]

/-- Of a number that is too large the higher part is lost. -/
theorem littleEndian_toLittleEndian (count n : Nat) :
    littleEndian (toLittleEndian count n) = n % 256 ^ count := by
  induction count generalizing n with
  | zero => simp [toLittleEndian, littleEndian, Nat.mod_one]
  | succ count ih =>
    have byte : (UInt8.ofNat n).toNat = n % 256 := UInt8.toNat_ofNat'
    rw [toLittleEndian, littleEndian, ih, byte, Nat.pow_succ', Nat.mod_mul]

/-- So many bytes stand for a number below the power. -/
theorem littleEndian_lt (bs : List UInt8) : littleEndian bs < 256 ^ bs.length := by
  induction bs with
  | nil => decide
  | cons b bs ih =>
    have hb := b.toNat_lt
    rw [littleEndian, List.length_cons, Nat.pow_succ]
    omega

/-- Bytes are recovered from the number they stand for. -/
theorem toLittleEndian_littleEndian (bs : List UInt8) :
    toLittleEndian bs.length (littleEndian bs) = bs := by
  induction bs with
  | nil => rfl
  | cons b bs ih =>
    have hb := b.toNat_lt
    have hbyte : UInt8.ofNat (b.toNat + 256 * littleEndian bs) = b := by
      rw [← UInt8.toNat_inj, UInt8.toNat_ofNat']
      omega
    have hrest : (b.toNat + 256 * littleEndian bs) / 256 = littleEndian bs := by omega
    rw [littleEndian, List.length_cons, toLittleEndian, hbyte, hrest, ih]

/-- A number of known width. -/
theorem takes_toLittleEndian {count n : Nat} (h : n < 256 ^ count) :
    Takes (word count) (toLittleEndian count n) n := by
  have hword := takes_word (toLittleEndian count n)
  rwa [length_toLittleEndian, littleEndian_toLittleEndian, Nat.mod_eq_of_lt h] at hword

/-- A number of two bytes is taken from its bytes. -/
theorem takes_uint16 {n : Nat} (h : n < 2 ^ 16) :
    Takes uint16 (toLittleEndian 2 n) (UInt16.ofNat n) :=
  (takes_toLittleEndian h).map rfl

/-- A number of four bytes is taken from its bytes. -/
theorem takes_uint32 {n : Nat} (h : n < 2 ^ 32) :
    Takes uint32 (toLittleEndian 4 n) (UInt32.ofNat n) :=
  (takes_toLittleEndian h).map rfl

/-- A number of eight bytes is taken from its bytes. -/
theorem takes_uint64 {n : Nat} (h : n < 2 ^ 64) :
    Takes uint64 (toLittleEndian 8 n) (UInt64.ofNat n) :=
  (takes_toLittleEndian h).map rfl

/-- A text without NUL, up to the NUL behind it. -/
theorem takes_string {bs : List UInt8} (h : 0 ∉ bs) : Takes string (bs ++ [0]) bs := by
  intro position rest
  have hfind : (bs ++ 0 :: rest).findIdx? (· == 0) = some bs.length := by
    rw [List.findIdx?_eq_some_iff_getElem]
    refine ⟨by simp, by simp, fun j hj => ?_⟩
    rw [List.getElem_append_left hj]
    have hne : bs[j] ≠ 0 := fun heq => h (heq ▸ List.getElem_mem hj)
    simpa using hne
  have hend : bs.drop (bs.length + 1) = [] := List.drop_eq_nil_of_le (by omega)
  rw [List.append_assoc, List.singleton_append, string]
  simp [hfind, skip, List.drop_append, hend]

/-- A block looks at no more than its bytes. -/
theorem local_bytes (count : Nat) : Local (bytes count) := by
  intro r a r' h
  unfold bytes remaining at h
  split at h
  · cases h
  cases h
  rename_i hlong
  have hlength : (r.rest.take count).length = count := by
    rw [List.length_take]
    omega
  have htakes := takes_bytes (r.rest.take count)
  rw [hlength] at htakes
  exact ⟨_, (List.take_append_drop count r.rest).symm, htakes⟩

/-- A word looks at no more than its bytes. -/
theorem local_word (count : Nat) : Local (word count) := (local_bytes count).map

theorem local_uint8 : Local uint8 := (local_word 1).map

theorem local_uint16 : Local uint16 := (local_word 2).map

theorem local_uint32 : Local uint32 := (local_word 4).map

theorem local_uint64 : Local uint64 := (local_word 8).map

/-- A block of known length takes these bytes if and only if there are as many. -/
theorem takes_bytes_iff {count : Nat} {bs cs : List UInt8} :
    Takes (bytes count) bs cs ↔ bs.length = count ∧ bs = cs := by
  constructor
  · intro h
    have hread := h 0 []
    rw [List.append_nil, bytes, remaining] at hread
    dsimp only at hread
    split at hread
    · cases hread
    rw [Prod.mk.injEq, Except.ok.injEq, skip, ByteReader.mk.injEq, Nat.zero_add,
      Nat.zero_add] at hread
    obtain ⟨htake, hcount, -⟩ := hread
    rw [hcount, List.take_length] at htake
    exact ⟨hcount.symm, htake⟩
  · rintro ⟨rfl, rfl⟩
    exact takes_bytes bs

/-- A word of eight bytes stands for all of its bytes. -/
theorem takes_uint64_iff {bs : List UInt8} {n : UInt64} :
    Takes uint64 bs n ↔ bs = toLittleEndian 8 n.toNat := by
  have hword : ∀ w, Takes (word 8) bs w ↔ bs.length = 8 ∧ littleEndian bs = w := by
    intro w
    rw [word, (local_bytes 8).takes_map_iff]
    simp only [takes_bytes_iff]
    grind
  rw [uint64, (local_word 8).takes_map_iff]
  simp only [hword]
  constructor
  · rintro ⟨w, ⟨hlength, rfl⟩, rfl⟩
    -- a word of eight bytes is one of 64 bits, so its value comes back from its bytes
    have hlt := littleEndian_lt bs
    rw [hlength] at hlt
    rw [UInt64.toNat_ofNat_of_lt' hlt, ← hlength, toLittleEndian_littleEndian]
  · rintro rfl
    refine ⟨n.toNat, ⟨length_toLittleEndian _ _, ?_⟩, UInt64.ofNat_toNat⟩
    rw [littleEndian_toLittleEndian]
    exact Nat.mod_eq_of_lt n.toNat_lt

end ByteReader

end SourceDebugger
