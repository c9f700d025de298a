import SourceDebugger.Proofs.FrameSafety

/-!
# The description that answers for an address

The ranges of a call frame section are looked up as closed ones, so that where two ranges meet both
of them have the address. Only there the half-open ranges decide: `FrameDescription.Touches` is the
first way to see a range, and `FrameDescription.Contains` the second one.

* `FrameIndex.candidates_eq`: what is left are the descriptions that contain the address. A range
  that only ends there counts if it is the only one that touches the address at all.
* `FrameIndex.covering_classified`: when the look-up succeeds and in which way it fails. Several
  ranges that all end at an address count as none.
* `FrameIndex.covering_of_disjoint`: among ranges that do not overlap the one that contains the
  address is found, whatever touches it and in whatever order they are.
-/

namespace SourceDebugger

namespace FrameDescription

/-- The address is in the range or at its end. -/
def Touches (d : FrameDescription) (pc : Addr) : Prop :=
  d.first.toNat ≤ pc.toNat ∧ pc.toNat ≤ d.first.toNat + d.size.toNat

/-- The address is in the range and not at its end. -/
def Contains (d : FrameDescription) (pc : Addr) : Prop :=
  d.first.toNat ≤ pc.toNat ∧ pc.toNat < d.first.toNat + d.size.toNat

/-- No address is in both ranges. -/
def Disjoint (d e : FrameDescription) : Prop := ∀ pc, d.Contains pc → ¬ e.Contains pc

instance (d : FrameDescription) (pc : Addr) : Decidable (d.Touches pc) :=
  inferInstanceAs (Decidable (_ ∧ _))

instance (d : FrameDescription) (pc : Addr) : Decidable (d.Contains pc) :=
  inferInstanceAs (Decidable (_ ∧ _))

variable {d : FrameDescription} {pc : Addr}

/-- A range touches the addresses that it contains. -/
theorem Contains.touches (h : d.Contains pc) : d.Touches pc := ⟨h.1, h.2.le⟩

/-- A range that ends where another one starts, or before, is disjoint from it. -/
theorem disjoint_of_le {e : FrameDescription}
    (h : d.first.toNat + d.size.toNat ≤ e.first.toNat) : d.Disjoint e := fun _ hd he =>
  absurd he.1 (Nat.not_le.2 (Nat.lt_of_lt_of_le hd.2 h))

/-- The range is looked up as a closed one. -/
theorem covers_iff (h : d.first.toNat + d.size.toNat < 2 ^ 64) :
    d.covers pc = true ↔ d.Touches pc := by
  have hfirst : d.first ≤ pc ↔ d.first.toNat ≤ pc.toNat := UInt64.le_iff_toNat_le
  have hlast : pc ≤ d.last ↔ pc.toNat ≤ d.last.toNat := UInt64.le_iff_toNat_le
  rw [covers, Bool.and_eq_true, decide_eq_true_iff, decide_eq_true_iff, hfirst, hlast,
    toNat_last h, Touches]

/-- What touches an address without ending there contains it. -/
theorem touches_and_lt_last_iff (h : d.first.toNat + d.size.toNat < 2 ^ 64) :
    d.Touches pc ∧ pc < d.last ↔ d.Contains pc := by
  have hlast : pc < d.last ↔ pc.toNat < d.last.toNat := UInt64.lt_iff_toNat_lt
  rw [hlast, toNat_last h, Touches, Contains]
  omega

end FrameDescription

namespace FrameIndex

open FrameDescription

/-- No range leaves the address space. -/
def InSpace (index : FrameIndex) : Prop :=
  ∀ d ∈ index.descriptions, d.first.toNat + d.size.toNat < 2 ^ 64

/-- The descriptions whose ranges touch an address. -/
def touching (index : FrameIndex) (pc : Addr) : List FrameDescription :=
  index.descriptions.filter (·.Touches pc)

/-- The descriptions whose ranges contain an address. -/
def containing (index : FrameIndex) (pc : Addr) : List FrameDescription :=
  index.descriptions.filter (·.Contains pc)

variable {index : FrameIndex} {pc : Addr} {d : FrameDescription} {entry : CommonEntry}

/-- What touches an address is what the descriptions say. -/
theorem mem_touching : d ∈ index.touching pc ↔ d ∈ index.descriptions ∧ d.Touches pc := by
  simp [touching]

/-- What contains an address is what the descriptions say. -/
theorem mem_containing : d ∈ index.containing pc ↔ d ∈ index.descriptions ∧ d.Contains pc := by
  simp [containing]

/-- The ranges that contain an address are among those that touch it. -/
theorem containing_sublist : (index.containing pc).Sublist (index.touching pc) :=
  List.monotone_filter_right _ fun d hd => by
    simpa using Contains.touches (by simpa using hd)

/-- What was read from a section does not leave the address space. -/
theorem inSpace_of_parse {data : List UInt8} {bias : Addr} (h : parse data bias = .ok index) :
    index.InSpace := by
  intro d hd
  obtain ⟨i, hi⟩ := List.mem_iff_getElem?.1 hd
  exact ((addEntries_placed h).2.2 i d (Nat.zero_le i) hi).range_lt

/-- What was read from a section has its common entries. -/
theorem linked_of_parse {data : List UInt8} {bias : Addr} (h : parse data bias = .ok index) :
    index.Linked := by
  intro d hd
  obtain ⟨i, hi⟩ := List.mem_iff_getElem?.1 hd
  obtain ⟨-, count, earlier, -, -, hlink, hprefix⟩ :=
    (addEntries_placed h).2.2 i d (Nat.zero_le i) hi
  have := hprefix.length_le
  omega

/-- The descriptions that contain an address answer for it. One that ends there answers if no other
one touches the address. -/
theorem candidates_eq (h : index.InSpace) (pc : Addr) : index.candidates pc =
    if index.containing pc = [] ∧ (index.touching pc).length = 1 then index.touching pc
    else index.containing pc := by
  have hall : index.descriptions.filter (·.covers pc) = index.touching pc :=
    List.filter_congr fun d hd => by simp [← covers_iff (h d hd)]
  have hinside : (index.touching pc).filter (pc < ·.last) = index.containing pc := by
    rw [touching, List.filter_filter, containing]
    refine List.filter_congr fun d hd => ?_
    rw [← Bool.decide_and]
    exact decide_eq_decide.2 (and_comm.trans (touches_and_lt_last_iff (h d hd)))
  unfold candidates
  dsimp only
  rw [hall, hinside]
  rcases htouching : index.touching pc with _ | ⟨d, _ | ⟨e, rest⟩⟩
  · have hsub : (index.containing pc).Sublist [] := htouching ▸ containing_sublist
    simp [List.sublist_nil.1 hsub]
  -- a single range contains the address or ends there
  · have hsub : (index.containing pc).Sublist [d] := htouching ▸ containing_sublist
    rcases List.sublist_singleton.1 hsub with hnone | hone
    · simp [hnone]
    · simp [hone]
  · simp

/-! ### How the look-up ends -/

/-- There is an answer if and only if there is exactly one candidate. -/
theorem covering_eq_ok_iff (h : index.Linked) : index.covering pc = .ok (d, entry) ↔
    index.candidates pc = [d] ∧ index.commonEntries[d.commonEntry]? = some entry := by
  have hentry : ∀ c ∈ index.candidates pc,
      index.commonEntries[c.commonEntry]? = some (index.commonEntries.getD c.commonEntry default) :=
    fun c hc => by
      have hlt := h c (mem_of_candidates hc)
      rw [List.getD_eq_getElem _ _ hlt, List.getElem?_eq_getElem hlt]
  unfold covering
  rcases hcandidates : index.candidates pc with _ | ⟨c, _ | ⟨c', rest⟩⟩
  · simp
  · have hc := hentry c (hcandidates ▸ List.mem_singleton_self c)
    simp only [Except.ok.injEq, Prod.mk.injEq, List.cons.injEq, and_true]
    refine and_congr_right ?_
    rintro rfl
    rw [hc, Option.some.injEq]
  · simp

/-- There is none to answer if and only if there is no candidate. -/
theorem covering_eq_noCoveringFrame_iff :
    index.covering pc = .error (.noCoveringFrame pc) ↔ index.candidates pc = [] := by
  unfold covering
  rcases index.candidates pc with _ | ⟨c, _ | ⟨c', rest⟩⟩ <;> simp

/-- The answer is ambiguous if and only if there are several candidates. -/
theorem covering_eq_ambiguousFrame_iff :
    index.covering pc = .error (.ambiguousFrame pc) ↔ 2 ≤ (index.candidates pc).length := by
  unfold covering
  rcases index.candidates pc with _ | ⟨c, _ | ⟨c', rest⟩⟩ <;> simp

/-- There are no other failures. -/
theorem covering_error {e : DebugError} (h : index.covering pc = .error e) :
    e = .noCoveringFrame pc ∨ e = .ambiguousFrame pc := by
  unfold covering at h
  split at h
  · exact .inl (Except.error.inj h).symm
  · cases h
  · exact .inr (Except.error.inj h).symm

theorem eq_singleton_iff {α : Type*} {a : α} {l : List α} : l = [a] ↔ a ∈ l ∧ l.length = 1 := by
  rw [List.length_eq_one_iff]
  constructor
  · rintro rfl
    exact ⟨List.mem_singleton_self a, a, rfl⟩
  · rintro ⟨hmem, b, rfl⟩
    rw [List.mem_singleton.1 hmem]

/-- How the look-up ends in an index that was read from a section, by the number of ranges that
touch the address and the number of those that contain it. It is ambiguous where several ranges
contain the address. It succeeds where one does, and also where none does but a single one touches
the address. Otherwise there is no range: none touches the address, or several do and all of them
end there. -/
theorem covering_classified {data : List UInt8} {bias : Addr} (h : parse data bias = .ok index)
    (pc : Addr) :
    let touching := index.descriptions.countP (·.Touches pc)
    let containing := index.descriptions.countP (·.Contains pc)
    (∀ e, index.covering pc = .error e → e = .noCoveringFrame pc ∨ e = .ambiguousFrame pc) ∧
      (index.covering pc = .error (.noCoveringFrame pc) ↔
        touching = 0 ∨ 2 ≤ touching ∧ containing = 0) ∧
      (index.covering pc = .error (.ambiguousFrame pc) ↔ 2 ≤ containing) ∧
      ∀ d entry, index.covering pc = .ok (d, entry) ↔
        d ∈ index.descriptions ∧ index.commonEntries[d.commonEntry]? = some entry ∧
          (containing = 1 ∧ d.Contains pc ∨ containing = 0 ∧ touching = 1 ∧ d.Touches pc) := by
  intro touching containing
  have htouching : touching = (index.touching pc).length := List.countP_eq_length_filter
  have hcontaining : containing = (index.containing pc).length := List.countP_eq_length_filter
  have hle : containing ≤ touching := by
    rw [htouching, hcontaining]
    exact containing_sublist.length_le
  have hcandidates := candidates_eq (inSpace_of_parse h) pc
  -- the candidates depend on the two numbers only, and so do the three answers
  simp only [← List.length_eq_zero_iff, ← hcontaining, ← htouching] at hcandidates
  refine ⟨fun e => covering_error, ?_, ?_, fun d entry => ?_⟩
  · rw [covering_eq_noCoveringFrame_iff, hcandidates, ← List.length_eq_zero_iff]
    split <;> omega
  · rw [covering_eq_ambiguousFrame_iff, hcandidates]
    split <;> omega
  · rw [covering_eq_ok_iff (linked_of_parse h), hcandidates]
    split
    -- without a range that contains pc, a single one that touches it is taken
    next hends =>
      have hone : containing ≠ 1 := by omega
      rw [eq_singleton_iff, ← htouching, mem_touching]
      tauto
    next hends =>
      rw [eq_singleton_iff, ← hcontaining, mem_containing]
      tauto

/-- A section with the ranges from `0x1000` and from `0x1008` up to `0x1010`. -/
def commonEnd : List UInt8 :=
  [9, 0, 0, 0, 255, 255, 255, 255, 1, 0, 1, 0x78, 16] ++
  [20, 0, 0, 0, 0, 0, 0, 0, 0x00, 0x10, 0, 0, 0, 0, 0, 0, 0x10, 0, 0, 0, 0, 0, 0, 0] ++
  [20, 0, 0, 0, 0, 0, 0, 0, 0x08, 0x10, 0, 0, 0, 0, 0, 0, 0x08, 0, 0, 0, 0, 0, 0, 0]

/-- What is read from `commonEnd`. -/
def commonEndIndex : FrameIndex :=
  ⟨[⟨1, "", 1, -8, 16, []⟩], [⟨⟨0x1000⟩, 0x10, [], 0⟩, ⟨⟨0x1008⟩, 0x08, [], 0⟩], ⟨0⟩⟩

/-- No range is found at the common end of both. -/
theorem covering_classified_commonEnd : parse commonEnd ⟨0⟩ = .ok commonEndIndex ∧
    commonEndIndex.covering ⟨0x1010⟩ = .error (.noCoveringFrame ⟨0x1010⟩) := by
  have hparse : parse commonEnd ⟨0⟩ = .ok commonEndIndex := by decide +kernel
  exact ⟨hparse, (covering_classified hparse ⟨0x1010⟩).2.1.2 (.inr (by decide))⟩

/-- Neither does the look-up find no range only where no closed one has the address, nor are
several closed ranges that have it always reported as such. -/
theorem not_covering_classified :
    (¬ ∀ data bias index, parse data bias = .ok index → ∀ pc,
      (index.covering pc = .error (.noCoveringFrame pc) ↔
        ∀ d ∈ index.descriptions, ¬ d.Touches pc)) ∧
    ¬ ∀ data bias index, parse data bias = .ok index → ∀ pc e,
      index.covering pc = .error e → 2 ≤ index.descriptions.countP (·.Touches pc) →
        e = .ambiguousFrame pc := by
  have hparse : parse commonEnd ⟨0⟩ = .ok commonEndIndex := by decide +kernel
  have hcovering : commonEndIndex.covering ⟨0x1010⟩ = .error (.noCoveringFrame ⟨0x1010⟩) := by
    decide
  constructor
  · intro hiff
    exact absurd ((hiff _ _ _ hparse ⟨0x1010⟩).1 hcovering) (by decide)
  · intro hambiguous
    cases hambiguous _ _ _ hparse ⟨0x1010⟩ _ hcovering (by decide)

/-! ### Ranges that do not overlap -/

/-- At most one of the ranges contains an address. -/
theorem containing_of_disjoint (h : index.descriptions.Pairwise FrameDescription.Disjoint)
    (hd : d ∈ index.descriptions) (hcontains : d.Contains pc) : index.containing pc = [d] := by
  have hmem : d ∈ index.containing pc := mem_containing.2 ⟨hd, hcontains⟩
  have hpairwise : (index.containing pc).Pairwise FrameDescription.Disjoint := h.filter _
  have hall : ∀ c ∈ index.containing pc, c.Contains pc := fun c hc => (mem_containing.1 hc).2
  rcases hlist : index.containing pc with _ | ⟨c, _ | ⟨c', rest⟩⟩ <;>
    rw [hlist] at hmem hpairwise hall
  · cases hmem
  · rw [List.mem_singleton.1 hmem]
  · have hapart : c.Disjoint c' := List.rel_of_pairwise_cons hpairwise (by simp)
    exact absurd (hall c' (by simp)) (hapart pc (hall c (by simp)))

/-- What is left does not depend on the order, but for its own one. -/
theorem candidates_perm {descriptions : List FrameDescription}
    (h : descriptions.Perm index.descriptions) (pc : Addr) :
    ({ index with descriptions }.candidates pc).Perm (index.candidates pc) := by
  have hall := h.filter (·.covers pc)
  unfold candidates
  dsimp only
  rw [hall.length_eq]
  split
  · exact hall.filter _
  · exact hall

/-- In every index that was read from a section: where the half-open ranges do not overlap, each of
them is found at the addresses in it, even if others end there or are empty. The order of the
descriptions never matters. -/
theorem covering_of_disjoint {data : List UInt8} {bias : Addr} (h : parse data bias = .ok index) :
    (index.descriptions.Pairwise FrameDescription.Disjoint →
      ∀ d ∈ index.descriptions, ∀ pc, d.Contains pc →
        ∃ entry, index.commonEntries[d.commonEntry]? = some entry ∧
          index.covering pc = .ok (d, entry)) ∧
      ∀ descriptions, descriptions.Perm index.descriptions →
        ∀ pc, { index with descriptions }.covering pc = index.covering pc := by
  have hlinked := linked_of_parse h
  refine ⟨fun hdisjoint d hd pc hcontains => ?_, fun descriptions hperm pc => ?_⟩
  -- disjoint ranges: the one that contains pc is the only one left
  · have hcandidates : index.candidates pc = [d] := by
      rw [candidates_eq (inSpace_of_parse h) pc, containing_of_disjoint hdisjoint hd hcontains]
      simp
    have hentry := List.getElem?_eq_getElem (hlinked d hd)
    exact ⟨_, hentry, (covering_eq_ok_iff hlinked).2 ⟨hcandidates, hentry⟩⟩
  -- at most one candidate is looked at by itself; of several only that there are several
  · have hcandidates := candidates_perm hperm pc
    unfold covering
    rcases hlist : index.candidates pc with _ | ⟨c, _ | ⟨c', rest⟩⟩ <;> rw [hlist] at hcandidates
    · rw [hcandidates.eq_nil]
    · rw [List.perm_singleton.1 hcandidates]
    · rcases hother : { index with descriptions }.candidates pc with _ | ⟨a, _ | ⟨b, more⟩⟩
      · simp [hother] at hcandidates
      · simp [hother] at hcandidates
      · rw [hother]

/-- A section with ranges that meet at `0x1010`, an empty one among them. -/
def meeting : List UInt8 :=
  [9, 0, 0, 0, 255, 255, 255, 255, 1, 0, 1, 0x78, 16] ++
  [20, 0, 0, 0, 0, 0, 0, 0, 0x00, 0x10, 0, 0, 0, 0, 0, 0, 0x10, 0, 0, 0, 0, 0, 0, 0] ++
  [20, 0, 0, 0, 0, 0, 0, 0, 0x10, 0x10, 0, 0, 0, 0, 0, 0, 0, 0, 0, 0, 0, 0, 0, 0] ++
  [20, 0, 0, 0, 0, 0, 0, 0, 0x10, 0x10, 0, 0, 0, 0, 0, 0, 0x10, 0, 0, 0, 0, 0, 0, 0]

/-- What is read from `meeting`. -/
def meetingIndex : FrameIndex :=
  ⟨[⟨1, "", 1, -8, 16, []⟩],
    [⟨⟨0x1000⟩, 0x10, [], 0⟩, ⟨⟨0x1010⟩, 0, [], 0⟩, ⟨⟨0x1010⟩, 0x10, [], 0⟩], ⟨0⟩⟩

/-- Where they meet, the range that begins there is found, in the given order and in the opposite
one. -/
theorem covering_of_disjoint_meeting : parse meeting ⟨0⟩ = .ok meetingIndex ∧
    (∃ entry, meetingIndex.covering ⟨0x1010⟩ = .ok (⟨⟨0x1010⟩, 0x10, [], 0⟩, entry)) ∧
    ∀ pc, { meetingIndex with descriptions := meetingIndex.descriptions.reverse }.covering pc =
      meetingIndex.covering pc := by
  have hparse : parse meeting ⟨0⟩ = .ok meetingIndex := by decide +kernel
  obtain ⟨hfound, horder⟩ := covering_of_disjoint hparse
  have hdisjoint : meetingIndex.descriptions.Pairwise FrameDescription.Disjoint :=
    List.Pairwise.imp disjoint_of_le (by decide)
  obtain ⟨entry, -, hcovering⟩ :=
    hfound hdisjoint ⟨⟨0x1010⟩, 0x10, [], 0⟩ (by decide) ⟨0x1010⟩ (by decide)
  exact ⟨hparse, ⟨entry, hcovering⟩, horder _ (List.reverse_perm _)⟩

end FrameIndex

end SourceDebugger
