import SourceDebugger.CallFrame.Unwind
import SourceDebugger.Proofs.FrameSection

/-!
# Safety of the call frame section

Reading a call frame section ends for all bytes: with an index, or with the one failure that says
that the section is malformed. `FrameIndex.addEntry_cases` is what one entry can do, and
`FrameIndex.addEntries_placed` what a row of them can do.

`FrameIndex.parse_safe` puts it together: every description belongs to a common entry that was read
before it, its range does not leave the address space, and no lookup goes behind what was read.
-/

namespace SourceDebugger

open ByteReader

/-- A sum that was formed fits into 64 bits. -/
theorem Addr.lt_of_add?_eq_some {a b : Addr} {n : UInt64} (h : a.add? n = some b) :
    a.toNat + n.toNat < 2 ^ 64 := by
  have hsum := Addr.toNat_add?_of_eq_some h
  have hlt := b.val.toNat_lt
  rwa [← hsum]

/-- The end of a range in the address space is exact. -/
theorem FrameDescription.toNat_last {d : FrameDescription}
    (h : d.first.toNat + d.size.toNat < 2 ^ 64) : d.last.toNat = d.first.toNat + d.size.toNat := by
  have hsum := Addr.add?_of_lt h
  rw [last, hsum, Option.getD_some]
  exact Addr.toNat_add?_of_eq_some hsum

namespace FrameIndex

variable {index result : FrameIndex} {data : List UInt8} {offset : Nat}

/-- What reading one entry can do: add a common entry, add a description that belongs to the last
common entry and does not leave the address space, or fail. -/
theorem addEntry_cases (index : FrameIndex) (body : List UInt8) (offset : Nat) :
    (∃ entry, index.addEntry body offset =
        .ok { index with commonEntries := index.commonEntries ++ [entry] }) ∨
      (∃ d, index.addEntry body offset =
          .ok { index with descriptions := index.descriptions ++ [d] } ∧
        d.commonEntry + 1 = index.commonEntries.length ∧
        d.first.toNat + d.size.toNat < 2 ^ 64) ∨
      ∃ message, index.addEntry body offset = .error (.malformedDebugInfo message) := by
  unfold addEntry
  rcases hmark : uint32 (ofList body) with ⟨e | id, r⟩
  · simp only [hmark, bind, Except.bind]
    exact .inr (.inr ⟨_, rfl⟩)
  by_cases hid : id = commonEntryMark
  · -- a common entry
    rcases hentry : takeCommonEntry r with ⟨e | entry, r⟩
    all_goals simp only [hmark, if_pos hid, hentry, bind, Except.bind]
    · exact .inr (.inr ⟨_, rfl⟩)
    · exact .inl ⟨entry, rfl⟩
  by_cases hempty : index.commonEntries.isEmpty = true
  · simp only [hmark, if_neg hid, if_pos hempty, bind, Except.bind]
    exact .inr (.inr ⟨_, rfl⟩)
  -- a description, whose numbers are read next
  rcases hfirst : uint64 r with ⟨e | first, r⟩
  · simp only [hmark, if_neg hid, if_neg hempty, hfirst, bind, Except.bind]
    exact .inr (.inr ⟨_, rfl⟩)
  rcases hsize : uint64 r with ⟨e | size, r⟩
  · simp only [hmark, if_neg hid, if_neg hempty, hfirst, hsize, bind, Except.bind]
    exact .inr (.inr ⟨_, rfl⟩)
  simp only [hmark, if_neg hid, if_neg hempty, hfirst, hsize, bind, Except.bind]
  rcases hsum : index.bias.add? first with _ | sum
  · exact .inr (.inr ⟨_, rfl⟩)
  rcases hlast : sum.add? size with _ | last
  · simp only [Option.bind_some, hlast, Option.bind_none]
    exact .inr (.inr ⟨_, rfl⟩)
  · -- both sums are in the address space, and there is a common entry to belong to
    have hpos : 0 < index.commonEntries.length := by
      rwa [List.length_pos_iff, ne_eq, ← List.isEmpty_iff]
    simp only [Option.bind_some, hlast]
    exact .inr (.inl ⟨⟨sum, size, r.rest, index.commonEntries.length - 1⟩, rfl,
      Nat.sub_add_cancel hpos, Addr.lt_of_add?_eq_some hlast⟩)

/-- A description is at its place in what was read: its range does not leave the address space, and
reading only some of the bytes gives what was read before it, where the common entry that it belongs
to is the last one. -/
structure Placed (result : FrameIndex) (read : List UInt8 → Except DebugError FrameIndex)
    (data : List UInt8) (i : Nat) (d : FrameDescription) : Prop where
  range_lt : d.first.toNat + d.size.toNat < 2 ^ 64
  preceded : ∃ count earlier, read (data.take count) = .ok earlier ∧
    earlier.descriptions = result.descriptions.take i ∧
    d.commonEntry + 1 = earlier.commonEntries.length ∧
    earlier.commonEntries <+: result.commonEntries

/-- What is at its place behind some bytes is at its place. -/
theorem Placed.behind {read readRest : List UInt8 → Except DebugError FrameIndex}
    {data rest : List UInt8} {i : Nat} {d : FrameDescription}
    (h : result.Placed readRest rest i d) (n : Nat)
    (hread : ∀ count, read (data.take (n + count)) = readRest (rest.take count)) :
    result.Placed read data i d := by
  obtain ⟨hrange, count, earlier, hearlier, hrest⟩ := h
  exact ⟨hrange, n + count, earlier, (hread count).trans hearlier, hrest⟩

/-- Reading fails in one way only. -/
theorem addEntries_error {e : DebugError} (h : index.addEntries offset data = .error e) :
    ∃ message, e = .malformedDebugInfo message := by
  fun_induction addEntries index offset data with
  | case1 => cases h
  | case2 => exact ⟨_, (Except.error.inj h).symm⟩
  | case3 _ _ _ _ _ _ _ _ ih => exact ih h
  | case4 => exact ⟨_, (Except.error.inj h).symm⟩
  | case5 index offset data _ length behind _ _ _ e' hentry =>
    cases h
    obtain ⟨entry, hadd⟩ | ⟨d, hadd, -⟩ | ⟨message, hadd⟩ :=
      addEntry_cases index (behind.take length) offset
    · cases hentry.symm.trans hadd
    · cases hentry.symm.trans hadd
    · exact ⟨message, Except.error.inj (hentry.symm.trans hadd)⟩
  | case6 _ _ _ _ _ _ _ _ _ _ _ ih => exact ih h

/-- To read a length of zero and some bytes behind it is to read those bytes. -/
theorem addEntries_zero_take (hlong : ¬ data.length < 4) (hzero : littleEndian (data.take 4) = 0)
    (count : Nat) : index.addEntries offset (data.take (4 + count)) =
      index.addEntries (offset + 4) ((data.drop 4).take count) := by
  have hlength : littleEndian ((data.take (4 + count)).take 4) = 0 := by
    rwa [List.take_take, Nat.min_eq_left (by omega)]
  rw [addEntries_zero index offset (by rw [List.length_take]; omega) hlength, List.drop_take,
    Nat.add_sub_cancel_left]

/-- To read an entry and some bytes behind it is to add the entry and to read those bytes. -/
theorem addEntries_entry_take {length : Nat} {next : FrameIndex}
    (hlength : littleEndian (data.take 4) = length) (hne : length ≠ 0) (hwide : length ≠ wideLength)
    (hlong : 4 + length ≤ data.length)
    (hentry : index.addEntry ((data.drop 4).take length) offset = .ok next) (count : Nat) :
    index.addEntries offset (data.take (4 + length + count)) =
      next.addEntries (offset + 4 + length) (((data.drop 4).drop length).take count) := by
  have hsame : littleEndian ((data.take (4 + length + count)).take 4) = length := by
    rwa [List.take_take, Nat.min_eq_left (by omega)]
  have hbody : ((data.take (4 + length + count)).drop 4).take length =
      (data.drop 4).take length := by
    rw [List.drop_take, List.take_take, Nat.min_eq_left (by omega)]
  -- what is left of the bytes behind the entry is counted from its end
  have hrest : ((data.take (4 + length + count)).drop 4).drop length =
      ((data.drop 4).drop length).take count := by
    rw [List.drop_take, List.drop_take]
    congr 1
    omega
  rw [addEntries_entry index offset hsame hne hwide (by rw [List.length_take]; omega), hbody,
    hentry, hrest]

/-- Reading adds to what is there, and each description that it adds is at its place. -/
theorem addEntries_placed (h : index.addEntries offset data = .ok result) :
    index.commonEntries <+: result.commonEntries ∧ index.descriptions <+: result.descriptions ∧
      ∀ i d, index.descriptions.length ≤ i → result.descriptions[i]? = some d →
        result.Placed (index.addEntries offset) data i d := by
  fun_induction addEntries index offset data with
  | case1 index offset data hshort =>
    cases h
    refine ⟨List.prefix_rfl, List.prefix_rfl, fun i d hi hd => ?_⟩
    -- there are no more descriptions
    rw [List.getElem?_eq_none hi] at hd
    cases hd
  | case2 => cases h
  | case3 index offset data hlong length behind hwide hzero ih =>
    obtain ⟨hcommon, hdescriptions, hplaced⟩ := ih h
    exact ⟨hcommon, hdescriptions, fun i d hi hd =>
      (hplaced i d hi hd).behind 4 (addEntries_zero_take hlong hzero)⟩
  | case4 => cases h
  | case5 => cases h
  | case6 index offset data hlong length behind hwide hne hbehind next hentry ih =>
    obtain ⟨hcommon, hdescriptions, hplaced⟩ := ih h
    rw [List.length_drop] at hbehind
    -- what is at its place behind the entry is so behind what comes before the entry
    have hread := addEntries_entry_take rfl hne hwide (by omega) hentry
    have hlater (i : Nat) (d : FrameDescription) (hi : next.descriptions.length ≤ i)
        (hd : result.descriptions[i]? = some d) :
        result.Placed (index.addEntries offset) data i d :=
      (hplaced i d hi hd).behind (4 + length) hread
    obtain ⟨entry, hadd⟩ | ⟨d, hadd, hlink, hrange⟩ | ⟨message, hadd⟩ :=
      addEntry_cases index (behind.take length) offset
    · -- a common entry: all descriptions come later
      cases hentry.symm.trans hadd
      exact ⟨(List.prefix_append _ _).trans hcommon, hdescriptions, hlater⟩
    · cases hentry.symm.trans hadd
      refine ⟨hcommon, (List.prefix_append _ _).trans hdescriptions, fun i d' hi hd => ?_⟩
      obtain heq | hlt := Nat.eq_or_lt_of_le hi
      · -- the description that was just read: the bytes before it give the index before it
        subst heq
        obtain ⟨later, hresult⟩ := hdescriptions
        have htake : result.descriptions.take index.descriptions.length = index.descriptions := by
          rw [← hresult, List.append_assoc, List.take_left]
        have hsame : d' = d := by
          rw [← hresult] at hd
          simpa using hd.symm
        subst hsame
        refine ⟨hrange, 0, index, ?_, htake.symm, hlink, hcommon⟩
        rw [addEntries, dif_pos (by simp)]
      · exact hlater i d' (by simpa using hlt) hd
    · cases hentry.symm.trans hadd

/-- The descriptions that answer for an address are among those that were read. -/
theorem mem_of_candidates {pc : Addr} {d : FrameDescription}
    (h : d ∈ index.candidates pc) : d ∈ index.descriptions := by
  unfold candidates at h
  dsimp only at h
  split at h
  · exact List.mem_of_mem_filter (List.mem_of_mem_filter h)
  · exact List.mem_of_mem_filter h

/-- Each description has the number of a common entry. -/
def Linked (index : FrameIndex) : Prop :=
  ∀ d ∈ index.descriptions, d.commonEntry < index.commonEntries.length

/-- With the numbers of common entries, the entry of a covering description is always there. -/
theorem Linked.covering (h : index.Linked) {pc : Addr} {d : FrameDescription}
    {entry : CommonEntry} (hcover : index.covering pc = .ok (d, entry)) :
    d ∈ index.descriptions ∧ index.commonEntries[d.commonEntry]? = some entry := by
  unfold FrameIndex.covering at hcover
  split at hcover
  · cases hcover
  · rename_i d' hcandidates
    cases hcover
    have hmem : d ∈ index.descriptions :=
      @mem_of_candidates _ pc _ (hcandidates ▸ List.mem_singleton_self d)
    refine ⟨hmem, ?_⟩
    rw [List.getD_eq_getElem _ _ (h d hmem), List.getElem?_eq_getElem (h d hmem)]
  · cases hcover

/-- With the numbers of common entries, no entry behind those that were read is ever looked at. -/
theorem Linked.covering_append (h : index.Linked) (more : List CommonEntry)
    (pc : Addr) :
    { index with commonEntries := index.commonEntries ++ more }.covering pc =
      index.covering pc := by
  unfold FrameIndex.covering
  have hcandidates : { index with commonEntries := index.commonEntries ++ more }.candidates pc =
    index.candidates pc := rfl
  rw [hcandidates]
  rcases hlist : index.candidates pc with _ | ⟨d, _ | ⟨d', ds⟩⟩
  · rfl
  · have hmem : d ∈ index.descriptions := mem_of_candidates (hlist ▸ List.mem_singleton_self d)
    dsimp only
    rw [List.getD_append _ _ _ _ (h d hmem)]
  · rfl

/-- For all bytes and each bias, reading the section ends: it fails as the section is malformed, or
it gives an index whose descriptions belong to common entries before them and do not leave the
address space, so that their ends are exact. Looking for a description, or unwinding, then never
looks behind the common entries that were read. -/
theorem parse_safe (data : List UInt8) (bias : Addr) :
    (∃ message, parse data bias = .error (.malformedDebugInfo message)) ∨
      ∃ index, parse data bias = .ok index ∧
        (∀ i d, index.descriptions[i]? = some d →
          d.commonEntry < index.commonEntries.length ∧
          d.first.toNat + d.size.toNat < 2 ^ 64 ∧
          d.last.toNat = d.first.toNat + d.size.toNat ∧
          ∃ count earlier, parse (data.take count) bias = .ok earlier ∧
            earlier.descriptions = index.descriptions.take i ∧
            d.commonEntry < earlier.commonEntries.length ∧
            earlier.commonEntries <+: index.commonEntries) ∧
        (∀ pc d entry, index.covering pc = .ok (d, entry) →
          d ∈ index.descriptions ∧ index.commonEntries[d.commonEntry]? = some entry) ∧
        ∀ more pc regs,
          { index with commonEntries := index.commonEntries ++ more }.covering pc =
            index.covering pc ∧
          { index with commonEntries := index.commonEntries ++ more }.unwind pc regs =
            index.unwind pc regs := by
  rcases hparse : parse data bias with e | index
  · obtain ⟨message, rfl⟩ := addEntries_error hparse
    exact .inl ⟨message, rfl⟩
  -- every description was linked to a common entry of what had been parsed before it
  obtain ⟨-, -, hplaced⟩ := addEntries_placed hparse
  have hall (i : Nat) (d : FrameDescription) (hd : index.descriptions[i]? = some d) :
      index.Placed (fun data => parse data bias) data i d := hplaced i d (Nat.zero_le i) hd
  have hlt {i : Nat} {d : FrameDescription} (hd : index.descriptions[i]? = some d) :
      d.commonEntry < index.commonEntries.length := by
    obtain ⟨-, count, earlier, -, -, hlink, hprefix⟩ := hall i d hd
    have := hprefix.length_le
    omega
  -- the links stay below the number of common entries, which never shrinks
  have hlinked : index.Linked := fun d hd => by
    obtain ⟨i, hi⟩ := List.mem_iff_getElem?.1 hd
    exact hlt hi
  refine .inr ⟨index, rfl, fun i d hd => ?_, fun pc d entry => hlinked.covering,
    fun more pc regs => ⟨hlinked.covering_append more pc, ?_⟩⟩
  · obtain ⟨hrange, count, earlier, hearlier, hdescriptions, hlink, hprefix⟩ := hall i d hd
    exact ⟨hlt hd, hrange, FrameDescription.toNat_last hrange, count, earlier, hearlier,
      hdescriptions, by omega, hprefix⟩
  · -- unwinding takes no other way to the common entries
    unfold unwind
    rw [hlinked.covering_append more pc]

end FrameIndex

end SourceDebugger
