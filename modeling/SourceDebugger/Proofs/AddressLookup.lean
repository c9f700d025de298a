import SourceDebugger.Proofs.LineTable

/-!
# Looking up the line of an address

Entries of the line table and look-ups can come in any order. `LineTable.Nearest` says which row
answers for an address: the one that counts most among those that do not lie behind it.

`LazyIndex` is an index that puts its rows in order only when an address is looked up, and keeps
the order until the next row is entered. It answers as the index that keeps its rows in order at all
times, `LazyIndex.lookUp_eq`, because the order that it has is never that of fewer rows,
`LazyIndex.Fresh`.
-/

namespace SourceDebugger

namespace LineTable

/-- Whether a row counts no more than another one: it has a lower address, or the same and yields
there. -/
def CountsUpTo (r s : SourceLocation × LineRecord) : Prop :=
  r.2.addr < s.2.addr ∨ r.2.addr = s.2.addr ∧ Yields r s

/-- Of the rows that do not lie behind an address, `row` is the one that counts most: those before
it count no more, and those behind it count less. -/
def Nearest (table : LineTable) (pc : Addr) (row : SourceLocation × LineRecord) : Prop :=
  ∃ before after, table = before ++ row :: after ∧ row.2.addr ≤ pc ∧
    (∀ r ∈ before, r.2.addr ≤ pc → CountsUpTo r row) ∧
    ∀ r ∈ after, r.2.addr ≤ pc → ¬ CountsUpTo row r

/-- Only one row is the nearest. -/
theorem Nearest.unique {table : LineTable} {pc : Addr} {r s : SourceLocation × LineRecord}
    (hr : table.Nearest pc r) (hs : table.Nearest pc s) : r = s := by
  obtain ⟨before, after, rfl, hrpc, hbefore, hafter⟩ := hr
  obtain ⟨before', after', htable, hspc, hbefore', hafter'⟩ := hs
  rcases List.append_eq_append_iff.1 htable with ⟨mid, rfl, hrest⟩ | ⟨mid, rfl, hrest⟩
  -- if one stood before the other, it would count both no more and more
  · rcases mid with _ | ⟨x, mid⟩
    · exact (List.cons.inj hrest).1
    · obtain ⟨rfl, rfl⟩ := List.cons.inj hrest
      exact absurd (hbefore' r (by simp) hrpc) (hafter s (by simp) hspc)
  · rcases mid with _ | ⟨x, mid⟩
    · exact (List.cons.inj hrest).1.symm
    · obtain ⟨rfl, rfl⟩ := List.cons.inj hrest
      exact absurd (hbefore s (by simp) hspc) (hafter' r (by simp) hrpc)

/-- No row that does not lie behind the address has a higher one than the nearest. -/
theorem Nearest.addr_le {table : LineTable} {pc : Addr} {row other : SourceLocation × LineRecord}
    (h : table.Nearest pc row) (hother : other ∈ table) (hpc : other.2.addr ≤ pc) :
    other.2.addr.toNat ≤ row.2.addr.toNat := by
  obtain ⟨before, after, rfl, -, hbefore, hafter⟩ := h
  rcases List.mem_append.1 hother with hmem | hmem
  · rcases hbefore other hmem hpc with hlt | ⟨heq, -⟩
    · exact Nat.le_of_lt (UInt64.lt_iff_toNat_lt.1 hlt)
    · exact Nat.le_of_eq (congrArg Addr.toNat heq)
  · rcases List.mem_cons.1 hmem with rfl | hmem
    · exact Nat.le_refl _
    -- a row behind it with a higher address would count more
    · refine Nat.le_of_not_lt fun hlt => hafter other hmem hpc (.inl ?_)
      exact UInt64.lt_iff_toNat_lt.2 hlt

end LineTable

namespace DebugIndex

/-- The order of the rows is that of their addresses, marks and lines. -/
theorem le_iff_countsUpTo (index : DebugIndex) {a b : LineRow} :
    a.le b = true ↔ LineTable.CountsUpTo (index.named a) (index.named b) := by
  rw [LineRow.le_iff]
  simp only [LineTable.CountsUpTo, LineTable.Yields, named, UInt64.le_iff_toNat_le]
  rfl

/-- One more row in front of the others: it is found unless another one counts as much. -/
theorem scan_cons (pc : Addr) (first : LineRow) (rows : List LineRow) :
    scan pc (first :: rows) =
      if first.addr ≤ pc then
        match scan pc rows with
        | some r => if first.le r then some r else some first
        | none => some first
      else scan pc rows := by
  -- both sides look at the last row at the end
  induction rows using List.reverseRecOn with
  | nil => rfl
  | append_singleton rows last ih =>
    rw [← List.cons_append, scan_append, scan_append, ih]
    by_cases hfirst : first.addr ≤ pc
    · simp only [if_pos hfirst]
      unfold prefer
      by_cases hlast : last.addr ≤ pc
      · simp only [if_pos hlast]
        rcases scan pc rows with _ | r
        · rfl
        by_cases hold : first.le r = true <;> by_cases hnew : r.le last = true
        · have hle : first.le last = true := LineRow.le_trans hold hnew
          simp [hold, hnew, hle]
        · simp [hold, hnew]
        · simp [hold, hnew]
        · -- the last row counts less than the one that was found, and that one less than the first
          have hrf : r.le first = true := (LineRow.le_total r first).resolve_right hold
          have hle : ¬ first.le last = true := fun h => hnew (LineRow.le_trans hrf h)
          simp [hold, hnew, hle]
      · simp only [if_neg hlast]
    · simp only [if_neg hfirst]

/-- The last row that does not lie behind an address, in rows from the one that counts least on. -/
def lastUpTo (pc : Addr) (rows : List LineRow) : Option LineRow :=
  (rows.take (rows.findIdx fun r => !decide (r.addr ≤ pc))).getLast?

/-- In rows that are ordered, those that do not lie behind an address stand in front. -/
theorem lastUpTo_eq {rows : List LineRow} (h : rows.Pairwise fun a b => a.le b = true) (pc : Addr) :
    lastUpTo pc rows = (rows.filter (·.addr ≤ pc)).getLast? := by
  have htake : rows.take (rows.findIdx fun r => !decide (r.addr ≤ pc)) =
      rows.takeWhile (·.addr ≤ pc) := (List.takeWhile_eq_take_findIdx_not ..).symm
  rw [lastUpTo, htake]
  congr 1
  -- row by row: as long as they do not lie behind the address, both lists take them
  induction rows with
  | nil => rfl
  | cons r rest ih =>
    obtain ⟨hfirst, hrest⟩ := List.pairwise_cons.1 h
    by_cases hr : r.addr ≤ pc
    · rw [List.takeWhile_cons_of_pos (by simpa using hr),
        List.filter_cons_of_pos (by simpa using hr),
        ih hrest (List.takeWhile_eq_take_findIdx_not ..).symm]
    · -- the first row lies behind the address, so they all do
      have hnone : rest.filter (·.addr ≤ pc) = [] := by
        refine List.filter_eq_nil_iff.2 fun s hs hle => hr ?_
        exact UInt64.le_trans (LineRow.addr_le (hfirst s hs)) (of_decide_eq_true hle)
      rw [List.takeWhile_cons_of_neg (by simpa using hr),
        List.filter_cons_of_neg (by simpa using hr), hnone]

/-- The order of the rows, which keeps rows that count the same as they were entered. -/
def inOrder (rows : List LineRow) : List LineRow := rows.mergeSort LineRow.le

theorem le_or_le (a b : LineRow) : (a.le b || b.le a) = true :=
  Bool.or_eq_true_iff.2 (LineRow.le_total a b)

theorem pairwise_inOrder (rows : List LineRow) :
    (inOrder rows).Pairwise fun a b => a.le b = true :=
  List.pairwise_mergeSort (fun a b c => @LineRow.le_trans a b c) le_or_le rows

/-- In the order of the rows the row is found that is found by looking at one after the other. -/
theorem lastUpTo_inOrder (pc : Addr) (rows : List LineRow) :
    lastUpTo pc (inOrder rows) = scan pc rows := by
  rw [lastUpTo_eq (pairwise_inOrder rows)]
  induction rows with
  | nil => simp [inOrder, scan]
  | cons first rows ih =>
    -- the sort puts the first row into the order of the others, before those that count as much
    obtain ⟨less, more, hnew, hold, hless⟩ :=
      List.mergeSort_cons (fun a b c => @LineRow.le_trans a b c) le_or_le first rows
    have hsorted := pairwise_inOrder (first :: rows)
    rw [inOrder, hnew] at hsorted ⊢
    rw [inOrder, hold, List.filter_append] at ih
    rw [scan_cons, ← ih, List.filter_append, List.filter_cons]
    by_cases hfirst : first.addr ≤ pc
    · rw [if_pos (by simpa using hfirst), if_pos hfirst]
      rcases hmore : (more.filter (·.addr ≤ pc)).getLast? with _ | r
      · -- the new row is the last one, and those before it count less
        rw [List.getLast?_eq_none_iff] at hmore
        rw [hmore, List.getLast?_concat, List.append_nil]
        rcases hlast : (less.filter (·.addr ≤ pc)).getLast? with _ | r
        · rw [hlast]
        · have hr := (List.mem_filter.1 (List.mem_of_getLast? hlast)).1
          have hlt : ¬ first.le r = true := by simpa using hless r hr
          rw [hlast]
          exact (if_neg hlt).symm
      · -- a row behind the new one counts as much
        have hr := (List.mem_filter.1 (List.mem_of_getLast? hmore)).1
        have hle : first.le r = true :=
          (List.pairwise_cons.1 (List.pairwise_append.1 hsorted).2.1).1 r hr
        rw [List.getLast?_append, List.getLast?_append, List.getLast?_cons, hmore]
        exact (if_pos hle).symm
    · rw [if_neg (by simpa using hfirst), if_neg hfirst]

/-- What an index answers is read off the rows one after the other. -/
theorem Lists.resolveAddress_eq {index : DebugIndex} {table : LineTable} (h : index.Lists table)
    (pc : Addr) :
    index.resolveAddress pc =
      if !index.sequences.isEmpty && !index.sequences.any (fun (s, e) => s ≤ pc && pc < e) then
        .error (.noLineInfo pc)
      else
        match scan pc index.rows with
        | none => .error (.noLineInfo pc)
        | some row => .ok (index.named row).1 := by
  rw [resolveAddress, h.scan_eq]
  rfl

/-- The row that is found by looking at one after the other is the nearest. -/
theorem Lists.nearest_of_scan {index : DebugIndex} {table : LineTable} (h : index.Lists table)
    {pc : Addr} {row : LineRow} (hscan : scan pc index.rows = some row) :
    table.Nearest pc (index.named row) := by
  obtain ⟨before, after, hrows, hpc, hbefore, hafter⟩ := exists_of_scan hscan
  refine ⟨before.map index.named, after.map index.named, ?_, hpc, ?_, ?_⟩
  · rw [← h.rows, hrows, List.map_append, List.map_cons]
  · intro s hs hle
    obtain ⟨q, hq, rfl⟩ := List.mem_map.1 hs
    exact index.le_iff_countsUpTo.1 (hbefore q hq hle)
  · intro s hs hle
    obtain ⟨q, hq, rfl⟩ := List.mem_map.1 hs
    exact fun hcounts => hafter q hq hle (index.le_iff_countsUpTo.2 hcounts)

end DebugIndex

open DebugIndex

/-! ### An index that puts its rows in order when it has to -/

/-- An index that puts its rows in order when an address is looked up, and keeps the order until
the next row is entered. The order that the index itself keeps is not used. -/
structure LazyIndex where
  /-- The rows, the files and the ranges. -/
  index : DebugIndex
  /-- The rows in order, if they were put in order since the last one was entered. -/
  sorted? : Option (List LineRow)

namespace LazyIndex

/-- The empty index. -/
def empty (directory : String) : LazyIndex := ⟨DebugIndex.empty directory, none⟩

/-- Makes an entry. A row invalidates the order, a range does not. -/
def enter (lazy : LazyIndex) : LineEntry → LazyIndex
  | .record file line addr prologueEnd =>
    ⟨lazy.index.addLineRecord file line addr prologueEnd, none⟩
  | .sequence first behind => ⟨lazy.index.addSequence first behind, lazy.sorted?⟩

/-- Looks up an address, in the order that is there or in a new one, which is kept. -/
def lookUp (lazy : LazyIndex) (pc : Addr) : Except DebugError SourceLocation × LazyIndex :=
  if !lazy.index.sequences.isEmpty &&
      !lazy.index.sequences.any (fun (s, e) => s ≤ pc && pc < e) then
    (.error (.noLineInfo pc), lazy)
  else
    let rows := lazy.sorted?.getD (inOrder lazy.index.rows)
    let answer := match lastUpTo pc rows with
      | none => .error (.noLineInfo pc)
      | some row => .ok ⟨lazy.index.files.getD row.file "", row.line⟩
    (answer, ⟨lazy.index, some rows⟩)

/-- If there is an order, it is that of all rows. -/
def Fresh (lazy : LazyIndex) : Prop :=
  ∀ rows, lazy.sorted? = some rows → rows = inOrder lazy.index.rows

theorem Fresh.enter {lazy : LazyIndex} (h : lazy.Fresh) (e : LineEntry) : (lazy.enter e).Fresh := by
  cases e with
  | record file line addr prologueEnd => exact fun _ hrows => nomatch hrows
  | sequence first behind => exact h

theorem Fresh.getD {lazy : LazyIndex} (h : lazy.Fresh) :
    lazy.sorted?.getD (inOrder lazy.index.rows) = inOrder lazy.index.rows := by
  rcases hrows : lazy.sorted? with _ | rows
  · rfl
  · exact h rows hrows

theorem Fresh.lookUp {lazy : LazyIndex} (h : lazy.Fresh) (pc : Addr) :
    (lazy.lookUp pc).2.Fresh ∧ (lazy.lookUp pc).2.index = lazy.index := by
  unfold LazyIndex.lookUp
  split
  · exact ⟨h, rfl⟩
  · refine ⟨fun rows hrows => ?_, rfl⟩
    rw [← Option.some.inj hrows]
    exact h.getD

/-- With an order of all rows, the answer is that of the index that always has one. -/
theorem lookUp_eq {lazy : LazyIndex} (h : lazy.Fresh) {table : LineTable}
    (hlists : lazy.index.Lists table) (pc : Addr) :
    (lazy.lookUp pc).1 = lazy.index.resolveAddress pc := by
  rw [hlists.resolveAddress_eq]
  unfold LazyIndex.lookUp
  split
  · rfl
  · dsimp only
    rw [h.getD, lastUpTo_inOrder]
    rfl

end LazyIndex

/-! ### Entries and look-ups in any order -/

/-- What is done with an index: an entry is made, or an address is looked up. -/
inductive LineEvent where
  /-- An entry is made. -/
  | entry (e : LineEntry)
  /-- An address is looked up. -/
  | lookUp (pc : Addr)

namespace LineEvent

/-- The entry that is made, if one is. -/
def entry? : LineEvent → Option LineEntry
  | entry e => some e
  | lookUp _ => none

/-- What becomes of an index that puts its rows in order when it has to. -/
def apply (lazy : LazyIndex) : LineEvent → LazyIndex
  | entry e => lazy.enter e
  | lookUp pc => (lazy.lookUp pc).2

end LineEvent

namespace LazyIndex

/-- The index after some events. -/
def after (directory : String) (events : List LineEvent) : LazyIndex :=
  events.foldl LineEvent.apply (empty directory)

/-- Look-ups leave what was entered, and the order of the rows is never that of fewer rows. -/
theorem after_spec (directory : String) (events : List LineEvent) :
    (after directory events).Fresh ∧
      (after directory events).index =
        ofEntries directory (events.filterMap LineEvent.entry?) := by
  induction events using List.reverseRecOn with
  | nil => exact ⟨fun _ hrows => (nomatch hrows), rfl⟩
  | append_singleton events last ih =>
    obtain ⟨hfresh, hindex⟩ := ih
    rw [after, List.foldl_append, List.filterMap_append]
    cases last with
    | entry e =>
      refine ⟨hfresh.enter e, ?_⟩
      -- the entry is made in both at the end
      rw [ofEntries, List.foldl_append]
      rw [ofEntries] at hindex
      show ((after directory events).enter e).index = LineEntry.enter _ e
      rw [← hindex]
      cases e <;> rfl
    | lookUp pc =>
      obtain ⟨hfresh', hindex'⟩ := hfresh.lookUp pc
      have hnone : [LineEvent.lookUp pc].filterMap LineEvent.entry? = [] := rfl
      rw [hnone, List.append_nil]
      exact ⟨hfresh', hindex'.trans hindex⟩

end LazyIndex

namespace DebugIndex

/-- After entries and look-ups in any order, an address is looked up in all rows that were entered.
It belongs to no line if and only if ranges were entered and it is in none of them, or if all rows
lie behind it. Otherwise it belongs to the line of the nearest row. An index that puts its rows in
order only when it has to gives the same answer. -/
theorem resolveAddress_nearest (directory : String) (events : List LineEvent) (pc : Addr) :
    let entries := events.filterMap LineEvent.entry?
    let table : LineTable := entries.filterMap LineEntry.row?
    let ranges := entries.filterMap LineEntry.range?
    let answer := (ofEntries directory entries).resolveAddress pc
    ((LazyIndex.after directory events).lookUp pc).1 = answer ∧
      (answer = .error (.noLineInfo pc) ↔
        (ranges ≠ [] ∧ ∀ e ∈ ranges, ¬ (e.1 ≤ pc ∧ pc < e.2)) ∨
          ∀ row ∈ table, ¬ row.2.addr ≤ pc) ∧
      (answer ≠ .error (.noLineInfo pc) →
        ∃ row, table.Nearest pc row ∧ (∀ other, table.Nearest pc other → other = row) ∧
          answer = .ok row.1) := by
  intro entries table ranges answer
  have hlists := lists_ofEntries directory entries
  obtain ⟨hfresh, hindex⟩ := LazyIndex.after_spec directory events
  have hlookUp := LazyIndex.lookUp_eq hfresh (hindex ▸ hlists) pc
  refine ⟨by rw [hlookUp, hindex], ?_⟩
  -- the condition on the ranges, as the index checks it
  have hsequences : (ofEntries directory entries).sequences = ranges :=
    sequences_ofEntries directory entries
  have houtside : (!ranges.isEmpty && !ranges.any (fun (s, e) => s ≤ pc && pc < e)) = true ↔
      ranges ≠ [] ∧ ∀ e ∈ ranges, ¬ (e.1 ≤ pc ∧ pc < e.2) := by
    simp
  have hanswer : answer = _ := hlists.resolveAddress_eq pc
  rw [hsequences] at hanswer
  by_cases hrange : ranges ≠ [] ∧ ∀ e ∈ ranges, ¬ (e.1 ≤ pc ∧ pc < e.2)
  · rw [if_pos (houtside.2 hrange)] at hanswer
    exact ⟨⟨fun _ => .inl hrange, fun _ => hanswer⟩, fun hne => absurd hanswer hne⟩
  rw [if_neg (fun h => hrange (houtside.1 h))] at hanswer
  rcases hscan : scan pc (ofEntries directory entries).rows with _ | row
  · -- all rows lie behind the address
    have hbehind : ∀ row ∈ table, ¬ row.2.addr ≤ pc := by
      intro row hrow
      have hrow : row ∈
          (ofEntries directory entries).rows.map (ofEntries directory entries).named :=
        hlists.rows.symm ▸ hrow
      obtain ⟨r, hr, rfl⟩ := List.mem_map.1 hrow
      exact scan_eq_none hscan r hr
    rw [hscan] at hanswer
    exact ⟨⟨fun _ => .inr hbehind, fun _ => hanswer⟩, fun hne => absurd hanswer hne⟩
  · have hnearest : table.Nearest pc _ := hlists.nearest_of_scan hscan
    rw [hscan] at hanswer
    refine ⟨⟨fun herror => ?_, fun hnone => ?_⟩, fun _ => ?_⟩
    · cases hanswer.symm.trans herror
    · obtain hrange' | hbehind := hnone
      · exact absurd hrange' hrange
      · obtain ⟨before, after, htable, hle, -⟩ := hnearest
        have hmem : (ofEntries directory entries).named row ∈ table := by
          rw [htable]
          exact List.mem_append_right _ List.mem_cons_self
        exact absurd hle (hbehind _ hmem)
    · exact ⟨_, hnearest, fun other hother => hother.unique hnearest, hanswer⟩

end DebugIndex

end SourceDebugger
