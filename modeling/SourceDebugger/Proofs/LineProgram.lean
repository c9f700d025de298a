import SourceDebugger.DebugInfo.Build
import SourceDebugger.Proofs.AddressLookup
import SourceDebugger.Proofs.FrameSafety

/-!
# Line table programs

The rows that the program of a line table gives come in sequences, each ended by a row that only
says where it ends, `LineSequence`. An index keeps the rows that have a line and a known file, all
in one order of addresses, and of each sequence the range that it covers.

* `rows_entered`: what the rows of a program enter in an index.
* `DebugIndex.resolveAddress_of_lineTable`: the line of an address belongs to the sequence that
  covers the address, if that sequence has a row at or below the address that is kept and no row of
  another sequence stands at its own end. Without such a row the address gets a line of another
  sequence, `resolveAddress_of_lineTable_crosses`.
-/

namespace SourceDebugger.DebugInfo

open DebugIndex

/-! ### Sequences -/

/-- A sequence of rows. -/
structure LineSequence where
  /-- The rows in front of the last one. -/
  rows : List ProgramRow
  /-- The row that ends the sequence. -/
  last : ProgramRow
deriving DecidableEq

namespace LineSequence

/-- All rows of a sequence. -/
def all (s : LineSequence) : List ProgramRow := s.rows ++ [s.last]

/-- The addresses of a sequence do not decrease. -/
def Ordered (s : LineSequence) : Prop := s.all.Pairwise (·.address ≤ ·.address)

/-- The range of a sequence, if it has rows in front of the last one. -/
def range? (s : LineSequence) : Option (UInt64 × UInt64) :=
  s.rows.head?.map fun first => (first.address, s.last.address)

/-- An address is in the range of a sequence. -/
def Covers (s : LineSequence) (address : UInt64) : Prop :=
  ∃ r ∈ s.range?, r.1 ≤ address ∧ address < r.2

/-- No address is in the ranges of both. -/
def Disjoint (s t : LineSequence) : Prop := ∀ address, ¬ (s.Covers address ∧ t.Covers address)

instance (s : LineSequence) : Decidable s.Ordered := inferInstanceAs (Decidable (List.Pairwise _ _))

/-- Disjoint sequences are so in either order. -/
theorem Disjoint.symm {s t : LineSequence} (h : s.Disjoint t) : t.Disjoint s :=
  fun address hboth => h address hboth.symm

/-- In an ordered sequence no row lies below its range or behind its end. -/
theorem Ordered.bounds {s : LineSequence} (h : s.Ordered) {row : ProgramRow} (hrow : row ∈ s.rows) :
    ∃ r ∈ s.range?, r.2 = s.last.address ∧ r.1 ≤ row.address ∧ row.address ≤ s.last.address := by
  obtain ⟨hrows, -, hlast⟩ := List.pairwise_append.1 h
  rcases hfirst : s.rows with _ | ⟨first, rest⟩
  · rw [hfirst] at hrow
    cases hrow
  refine ⟨(first.address, s.last.address), by simp [range?, hfirst], rfl, ?_,
    hlast row hrow s.last (List.mem_singleton_self _)⟩
  rw [hfirst] at hrow hrows
  rcases List.mem_cons.1 hrow with rfl | hrow
  · exact UInt64.le_refl _
  · exact (List.pairwise_cons.1 hrows).1 row hrow

end LineSequence

/-- The sequences in some rows, and the rows behind the end of the last one. -/
def sequencesOf : List ProgramRow → List LineSequence × List ProgramRow
  | [] => ([], [])
  | row :: rows =>
    if row.endSequence then (⟨[], row⟩ :: (sequencesOf rows).1, (sequencesOf rows).2)
    else
      match sequencesOf rows with
      | ([], tail) => ([], row :: tail)
      | (s :: sequences, tail) => (⟨row :: s.rows, s.last⟩ :: sequences, tail)

/-- A row that does not end a sequence is in one, or behind the last one. -/
theorem mem_sequencesOf {rows : List ProgramRow} {row : ProgramRow} (hrow : row ∈ rows)
    (hgoes : row.endSequence = false) :
    row ∈ (sequencesOf rows).2 ∨ ∃ s ∈ (sequencesOf rows).1, row ∈ s.rows := by
  induction rows with
  | nil => cases hrow
  -- a row belongs to the sequence that is open where it stands; without an end it stays in the tail
  | cons first rows ih =>
    rw [sequencesOf]
    split
    · rename_i hends
      rcases List.mem_cons.1 hrow with rfl | hrow
      · rw [hgoes] at hends
        cases hends
      · exact (ih hrow).imp_right fun ⟨s, hs, hmem⟩ => ⟨s, List.mem_cons_of_mem _ hs, hmem⟩
    -- the rest starts either with no sequence at all or with the one this row is put in front of
    · rcases hsequences : sequencesOf rows with ⟨_ | ⟨s, sequences⟩, tail⟩ <;>
        rw [hsequences] at ih
      · refine .inl ?_
        rcases List.mem_cons.1 hrow with rfl | hrow
        · exact List.mem_cons_self
        · rcases ih hrow with htail | ⟨s, hs, -⟩
          · exact List.mem_cons_of_mem _ htail
          · cases hs
      · rcases List.mem_cons.1 hrow with rfl | hrow
        · exact .inr ⟨_, List.mem_cons_self, List.mem_cons_self⟩
        · rcases ih hrow with htail | ⟨t, ht, hmem⟩
          · exact .inl htail
          · rcases List.mem_cons.1 ht with rfl | ht
            · exact .inr ⟨_, List.mem_cons_self, List.mem_cons_of_mem _ hmem⟩
            · exact .inr ⟨t, List.mem_cons_of_mem _ ht, hmem⟩

/-- A row of a sequence is one of the rows. -/
theorem mem_of_mem_sequencesOf {rows : List ProgramRow} {s : LineSequence}
    (hs : s ∈ (sequencesOf rows).1) {row : ProgramRow} (hrow : row ∈ s.rows) : row ∈ rows := by
  -- along the rows; the first sequence of the rest takes up the row in front of it
  induction rows generalizing s with
  | nil => cases hs
  | cons first rows ih =>
    rw [sequencesOf] at hs
    split at hs
    · rcases List.mem_cons.1 hs with rfl | hs
      · cases hrow
      · exact List.mem_cons_of_mem _ (ih hs hrow)
    · rcases hsequences : sequencesOf rows with ⟨_ | ⟨t, sequences⟩, tail⟩ <;>
        rw [hsequences] at hs ih
      · cases hs
      · rcases List.mem_cons.1 hs with rfl | hs
        · rcases List.mem_cons.1 hrow with rfl | hrow
          · exact List.mem_cons_self
          · exact List.mem_cons_of_mem _ (ih List.mem_cons_self hrow)
        · exact List.mem_cons_of_mem _ (ih (List.mem_cons_of_mem _ hs) hrow)

/-- The ranges of the sequences in some rows; the first one has started already if a start is
given. -/
def rangesFrom : Option UInt64 → List ProgramRow → List (UInt64 × UInt64)
  | _, [] => []
  | start, row :: rows =>
    if row.endSequence then
      (start.map fun first => (first, row.address)).toList ++ rangesFrom none rows
    else rangesFrom (some (start.getD row.address)) rows

/-- The first sequence starts where it has started already, and otherwise with its first row. -/
theorem rangesFrom_eq (start : Option UInt64) (rows : List ProgramRow) :
    rangesFrom start rows =
      match (sequencesOf rows).1 with
      | [] => []
      | s :: sequences =>
        ((start <|> s.rows.head?.map (·.address)).map fun first =>
          (first, s.last.address)).toList ++
          sequences.filterMap LineSequence.range? := by
  -- a row goes on with the first sequence, or ends it and leaves the others
  induction rows generalizing start with
  | nil => rfl
  | cons row rows ih =>
    rw [rangesFrom, sequencesOf]
    split
    · have hrest : rangesFrom none rows =
          (sequencesOf rows).1.filterMap LineSequence.range? := by
        rw [ih]
        rcases (sequencesOf rows).1 with _ | ⟨⟨_ | ⟨first, _⟩, _⟩, sequences⟩ <;>
          simp [LineSequence.range?, List.filterMap_cons]
      rw [hrest]
      simp
    · rw [ih]
      rcases sequencesOf rows with ⟨_ | ⟨s, sequences⟩, tail⟩ <;> cases start <;> simp

/-- The ranges of all sequences. -/
theorem rangesFrom_none (rows : List ProgramRow) :
    rangesFrom none rows = (sequencesOf rows).1.filterMap LineSequence.range? := by
  rw [rangesFrom_eq]
  rcases (sequencesOf rows).1 with _ | ⟨⟨_ | ⟨first, _⟩, _⟩, sequences⟩ <;>
    simp [LineSequence.range?, List.filterMap_cons]

/-! ### What rows enter -/

/-- A row that has a line and a known file. -/
def ProgramRow.Kept (row : ProgramRow) : Prop :=
  row.endSequence = false ∧ row.line ≠ 0 ∧ row.file.isSome

instance (row : ProgramRow) : Decidable row.Kept := inferInstanceAs (Decidable (_ ∧ _))

/-- The line at which a row stands. -/
def Located (u : UnitContext) (h : LineHeader) (row : ProgramRow) (location : SourceLocation) :
    Prop :=
  row.line = location.line ∧ location.line ≠ 0 ∧
    ∃ file ∈ row.file, renderFile u h file = .ok location.file

/-- A row of a program and what it becomes in the line table of the index. -/
def Enters (u : UnitContext) (h : LineHeader) (bias : Addr) (row : ProgramRow)
    (entered : SourceLocation × LineRecord) : Prop :=
  Located u h row entered.1 ∧ relocate bias row.address = .ok entered.2.addr

/-- A range of a program and what it becomes in the index. -/
def RangeEnters (bias : Addr) (range : UInt64 × UInt64) (entered : Addr × Addr) : Prop :=
  relocate bias range.1 = .ok entered.1 ∧ relocate bias range.2 = .ok entered.2

variable {u : UnitContext} {h : LineHeader} {bias : Addr}

/-- What a row does to an index: the last row of a sequence that has started enters its range, and
another row itself if it is kept. -/
theorem addRow_cases {index index' : DebugIndex} {start start' : Option UInt64} {row : ProgramRow}
    (hadd : addRow u h bias (index, start) row = .ok (index', start')) :
    (row.endSequence = true ∧ start' = none ∧
      (start = none ∧ index' = index ∨ ∃ first entered, start = some first ∧
        RangeEnters bias (first, row.address) entered ∧
        index' = index.addSequence entered.1 entered.2)) ∨
    (row.endSequence = false ∧ start' = some (start.getD row.address) ∧
      (¬ row.Kept ∧ index' = index ∨ ∃ entered, row.Kept ∧ Enters u h bias row entered ∧
        index' = index.addLineRecord entered.1.file entered.1.line entered.2.addr
          row.prologueEnd)) := by
  unfold addRow at hadd
  dsimp only at hadd
  -- only a row that ends a sequence closes the range
  cases hends : row.endSequence with
  | true =>
    rw [hends, if_pos rfl] at hadd
    refine .inl ⟨rfl, ?_⟩
    rcases start with _ | first
    · cases hadd
      exact ⟨rfl, .inl ⟨rfl, rfl⟩⟩
    · rcases hfirst : relocate bias first with e | a <;>
        simp only [hfirst, bind, Except.bind] at hadd
      · cases hadd
      rcases hbehind : relocate bias row.address with e | b <;>
        simp only [hbehind] at hadd
      · cases hadd
      cases hadd
      exact ⟨rfl, .inr ⟨first, (a, b), rfl, ⟨hfirst, hbehind⟩, rfl⟩⟩
  | false =>
    rw [hends, if_neg (by simp)] at hadd
    refine .inr ⟨rfl, ?_⟩
    rcases hfile : row.file with _ | file <;> simp only [hfile] at hadd
    · cases hadd
      refine ⟨rfl, .inl ⟨fun hkept => ?_, rfl⟩⟩
      simp [ProgramRow.Kept, hfile] at hkept
    by_cases hline : row.line = 0
    · rw [if_pos hline] at hadd
      cases hadd
      exact ⟨rfl, .inl ⟨fun hkept => hkept.2.1 hline, rfl⟩⟩
    rw [if_neg hline] at hadd
    rcases hpath : renderFile u h file with e | path <;>
      simp only [hpath, bind, Except.bind] at hadd
    · cases hadd
    rcases haddr : relocate bias row.address with e | addr <;> simp only [haddr] at hadd
    · cases hadd
    cases hadd
    exact ⟨rfl, .inr ⟨(⟨path, row.line⟩, ⟨addr, row.prologueEnd⟩),
      ⟨hends, hline, by simp [hfile]⟩, ⟨⟨rfl, hline, file, by simp [hfile], hpath⟩, haddr⟩, rfl⟩⟩

/-- What some rows enter in an index, one after the other: the kept ones and the ranges. -/
theorem rows_entered {rows : List ProgramRow} {index index' : DebugIndex}
    {start start' : Option UInt64}
    (hadd : rows.foldlM (addRow u h bias) (index, start) = .ok (index', start')) :
    ∃ entries : List LineEntry, index' = entries.foldl LineEntry.enter index ∧
      (∀ entered ∈ entries.filterMap LineEntry.row?, ∃ row ∈ rows, row.endSequence = false ∧
        Enters u h bias row entered) ∧
      (∀ row ∈ rows, row.Kept →
        ∃ entered ∈ entries.filterMap LineEntry.row?, Enters u h bias row entered) ∧
      (∀ entered ∈ entries.filterMap LineEntry.range?, ∃ range ∈ rangesFrom start rows,
        RangeEnters bias range entered) ∧
      ((rangesFrom start rows).length = (entries.filterMap LineEntry.range?).length) := by
  induction rows generalizing index start with
  | nil =>
    cases hadd
    exact ⟨[], rfl, by simp, by simp, by simp, rfl⟩
  | cons row rows ih =>
    rw [List.foldlM_cons] at hadd
    rcases hrow : addRow u h bias (index, start) row with e | ⟨next, started⟩ <;>
      rw [hrow] at hadd
    · cases hadd
    obtain ⟨entries, hindex, hfrom, hkept, hranges, hcount⟩ := ih hadd
    have hfrom' : ∀ entered ∈ entries.filterMap LineEntry.row?,
        ∃ r ∈ row :: rows, r.endSequence = false ∧
        Enters u h bias r entered := fun entered he =>
      (hfrom entered he).imp fun r ⟨hr, henters⟩ => ⟨List.mem_cons_of_mem _ hr, henters⟩
    rcases addRow_cases hrow with ⟨hends, rfl, hnext⟩ | ⟨hends, rfl, hnext⟩
    -- the last row of a sequence
    · have hrest : ∀ r ∈ row :: rows, r.Kept → ∃ entered ∈ entries.filterMap LineEntry.row?,
          Enters u h bias r entered := by
        intro r hr hk
        rcases List.mem_cons.1 hr with rfl | hr
        · exact absurd (hends.symm.trans hk.1) (by simp)
        · exact hkept r hr hk
      rw [rangesFrom, if_pos hends]
      rcases hnext with ⟨rfl, rfl⟩ | ⟨first, entered, rfl, hrange, rfl⟩
      · exact ⟨entries, hindex, hfrom', hrest, hranges, hcount⟩
      · refine ⟨.sequence entered.1 entered.2 :: entries, hindex, hfrom', hrest, fun e he => ?_,
          congrArg (· + 1) hcount⟩
        rcases List.mem_cons.1 he with rfl | he
        · exact ⟨_, List.mem_cons_self, hrange⟩
        · exact (hranges e he).imp fun r ⟨hr, hent⟩ => ⟨List.mem_cons_of_mem _ hr, hent⟩
    -- another row
    · rw [rangesFrom, if_neg (by simp [hends])]
      rcases hnext with ⟨hnot, rfl⟩ | ⟨entered, hk, henters, rfl⟩
      · refine ⟨entries, hindex, hfrom', fun r hr hkr => ?_, hranges, hcount⟩
        rcases List.mem_cons.1 hr with rfl | hr
        · exact absurd hkr hnot
        · exact hkept r hr hkr
      · have hsame : ∀ mark, Enters u h bias row (entered.1, ⟨entered.2.addr, mark⟩) :=
          fun _ => henters
        refine ⟨.record entered.1.file entered.1.line entered.2.addr row.prologueEnd :: entries,
          hindex, fun e he => ?_, fun r hr hkr => ?_, hranges, hcount⟩
        · rcases List.mem_cons.1 he with rfl | he
          · exact ⟨row, List.mem_cons_self, hends, hsame _⟩
          · exact hfrom' e he
        · rcases List.mem_cons.1 hr with rfl | hr
          · exact ⟨_, List.mem_cons_self, hsame _⟩
          · exact (hkept r hr hkr).imp fun e ⟨he, hent⟩ => ⟨List.mem_cons_of_mem _ he, hent⟩

/-- The rows that a program gives. -/
def rowsOf (h : LineHeader) (program : List UInt8) : List ProgramRow :=
  (lineRows h .start (program.length + 1) program).1

/-- What a line table enters in an index. -/
theorem addLineTable_entered {program : List UInt8} {index index' : DebugIndex}
    (hadd : addLineTable u bias index (h, program) = .ok index') :
    ∃ start', (rowsOf h program).foldlM (addRow u h bias) (index, none) = .ok (index', start') := by
  unfold addLineTable at hadd
  unfold rowsOf
  rcases hrows : lineRows h .start (program.length + 1) program with ⟨rows, failure⟩
  simp only [hrows] at hadd
  rcases hfold : rows.foldlM (addRow u h bias) (index, none) with e | ⟨next, start'⟩ <;>
    simp only [hfold, bind, Except.bind] at hadd
  · cases hadd
  rcases failure with _ | e
  · cases hadd
    exact ⟨start', rfl⟩
  · cases hadd

/-- A line table leaves the functions, units and types as they are. -/
theorem addLineTable_keeps {table : LineHeader × List UInt8} {index index' : DebugIndex}
    (hadd : addLineTable u bias index table = .ok index') :
    index'.functions = index.functions ∧ index'.units = index.units ∧
      index'.types = index.types := by
  obtain ⟨_, hfold⟩ := addLineTable_entered hadd
  obtain ⟨entries, rfl, -⟩ := rows_entered hfold
  clear hadd hfold
  induction entries generalizing index with
  | nil => exact ⟨rfl, rfl, rfl⟩
  | cons entry entries ih =>
    obtain ⟨hfunctions, hunits, htypes⟩ := @ih (entry.enter index)
    rw [List.foldl_cons, hfunctions, hunits, htypes]
    cases entry <;> exact ⟨rfl, rfl, rfl⟩

/-- The program has an address of the file at the distance of the bias, if it has a place for it. -/
theorem relocate_eq_ok_iff {address : UInt64} {addr : Addr} :
    relocate bias address = .ok addr ↔ addr.toNat = bias.toNat + address.toNat := by
  have hfits : addr.toNat < 2 ^ 64 := addr.val.toNat_lt
  unfold relocate
  constructor
  · intro hadd
    rcases hsum : bias.add? address with _ | sum <;> rw [hsum] at hadd
    · cases hadd
    · cases hadd
      exact Addr.toNat_add?_of_eq_some hsum
  · intro hadd
    have hsum := Addr.add?_of_lt (a := bias) (n := address) (hadd ▸ hfits)
    have hsame : bias + address = addr :=
      Addr.ext_iff_val.2 (UInt64.toNat_inj.1 ((Addr.toNat_add?_of_eq_some hsum).trans hadd.symm))
    rw [hsum, hsame]

end SourceDebugger.DebugInfo

namespace SourceDebugger.DebugIndex

open DebugInfo

variable {u : UnitContext} {h : LineHeader} {bias : Addr}

/-- An address of the program in memory that does not lie below a place of it is a place of it. -/
theorem exists_relocate {address : UInt64} {addr pc : Addr}
    (haddr : relocate bias address = .ok addr) (hle : addr ≤ pc) :
    ∃ a, relocate bias a = .ok pc ∧ address ≤ a := by
  rw [relocate_eq_ok_iff] at haddr
  have hle : addr.toNat ≤ pc.toNat := UInt64.le_iff_toNat_le.1 hle
  have hpc : pc.toNat < 2 ^ 64 := pc.val.toNat_lt
  have ha : (UInt64.ofNat (pc.toNat - bias.toNat)).toNat = pc.toNat - bias.toNat :=
    UInt64.toNat_ofNat_of_lt' (by show _ < 2 ^ 64; omega)
  refine ⟨UInt64.ofNat (pc.toNat - bias.toNat), ?_, ?_⟩
  · rw [relocate_eq_ok_iff, ha]
    omega
  · rw [UInt64.le_iff_toNat_le, ha]
    omega

/-- Places of the program are in the order of their addresses in the file. -/
theorem relocate_le_iff {a b : UInt64} {addr addr' : Addr} (ha : relocate bias a = .ok addr)
    (hb : relocate bias b = .ok addr') : addr ≤ addr' ↔ a ≤ b := by
  rw [relocate_eq_ok_iff] at ha hb
  have hle : addr ≤ addr' ↔ addr.toNat ≤ addr'.toNat := UInt64.le_iff_toNat_le
  rw [hle, UInt64.le_iff_toNat_le]
  omega

/-- Moved addresses keep their order. -/
theorem relocate_lt_iff {a b : UInt64} {addr addr' : Addr} (ha : relocate bias a = .ok addr)
    (hb : relocate bias b = .ok addr') : addr < addr' ↔ a < b := by
  rw [relocate_eq_ok_iff] at ha hb
  have hlt : addr < addr' ↔ addr.toNat < addr'.toNat := UInt64.lt_iff_toNat_lt
  rw [hlt, UInt64.lt_iff_toNat_lt]
  omega

/-- A row that an index found for an address of a line table, and the address in the file: it stands
at or below the address, and no other row that is kept stands between. If a sequence was ended, one
covers the address. -/
theorem nearest_of_lineTable {directory : String} {program : List UInt8} {index : DebugIndex}
    (hadd : addLineTable u bias (empty directory) (h, program) = .ok index) {pc : Addr}
    {location : SourceLocation} (hresolve : index.resolveAddress pc = .ok location) :
    ∃ a row, relocate bias a = .ok pc ∧ row ∈ rowsOf h program ∧ row.endSequence = false ∧
      Located u h row location ∧ row.address ≤ a ∧
      (∀ r ∈ rowsOf h program, r.Kept → r.address ≤ a → r.address ≤ row.address) ∧
      (rangesFrom none (rowsOf h program) ≠ [] →
        ∃ s ∈ (sequencesOf (rowsOf h program)).1, s.Covers a) := by
  obtain ⟨_, hfold⟩ := addLineTable_entered hadd
  obtain ⟨entries, rfl, hfrom, hkept, hranges, hcount⟩ := rows_entered hfold
  have hlists := lists_ofEntries directory entries
  have hsequences := sequences_ofEntries directory entries
  have hresolve : (ofEntries directory entries).resolveAddress pc = .ok location := hresolve
  rw [hlists.resolveAddress_eq, hsequences] at hresolve
  split at hresolve
  · cases hresolve
  rename_i hinside
  rcases hscan : scan pc (ofEntries directory entries).rows with _ | found <;>
    rw [hscan] at hresolve
  · cases hresolve
  cases hresolve
  have hnearest := hlists.nearest_of_scan hscan
  have ⟨before, after, htable, hle, _⟩ := hnearest
  have hmem : (ofEntries directory entries).named found ∈ entries.filterMap LineEntry.row? := by
    rw [htable]
    exact List.mem_append_right _ List.mem_cons_self
  obtain ⟨row, hrow, hgoes, hlocated, hplace⟩ := hfrom _ hmem
  obtain ⟨a, ha, hlow⟩ := exists_relocate hplace hle
  refine ⟨a, row, ha, hrow, hgoes, hlocated, hlow, fun r hr hk hra => ?_, fun hne => ?_⟩
  -- a kept row that does not lie behind the address has no higher one than the row that was found
  · obtain ⟨entered, hentered, -, hplace'⟩ := hkept r hr hk
    have hbound := hnearest.addr_le hentered ((relocate_le_iff hplace' ha).2 hra)
    exact (relocate_le_iff hplace' hplace).1 (UInt64.le_iff_toNat_le.2 hbound)
  -- ranges were entered, so the address is in one of them
  · have hsome : entries.filterMap LineEntry.range? ≠ [] := by
      intro hnone
      rw [hnone] at hcount
      exact hne (List.length_eq_zero_iff.1 hcount)
    obtain ⟨e, he, hfirst, hbehind⟩ :
        ∃ e ∈ entries.filterMap LineEntry.range?, e.1 ≤ pc ∧ pc < e.2 := by
      generalize entries.filterMap LineEntry.range? = ranges at hinside hsome ⊢
      simpa [hsome] using hinside
    obtain ⟨range, hrange, hfirst', hbehind'⟩ := hranges e he
    rw [rangesFrom_none] at hrange
    obtain ⟨s, hs, hrange⟩ := List.mem_filterMap.1 hrange
    exact ⟨s, hs, range, hrange, (relocate_le_iff hfirst' ha).1 hfirst,
      (relocate_lt_iff ha hbehind').1 hbehind⟩

/-- The line of an address in the program of a line table whose sequences are ordered and disjoint:
one sequence covers the address, and the line is that of a row of this sequence, unless no row of
it that is kept stands at or below the address, or the row stands at the end of its own sequence.
Rows behind the last sequence can have any address. -/
theorem resolveAddress_of_lineTable {directory : String} {program : List UInt8} {index : DebugIndex}
    (hadd : addLineTable u bias (empty directory) (h, program) = .ok index)
    (hordered : ∀ s ∈ (sequencesOf (rowsOf h program)).1, s.Ordered)
    (hdisjoint : (sequencesOf (rowsOf h program)).1.Pairwise LineSequence.Disjoint) {pc : Addr}
    {location : SourceLocation} (hresolve : index.resolveAddress pc = .ok location) :
    let (sequences, tail) := sequencesOf (rowsOf h program)
    ∃ a row, relocate bias a = .ok pc ∧ Located u h row location ∧ row.address ≤ a ∧
      (row ∈ tail ∨ ∃ s ∈ sequences, s.Covers a ∧ (∀ t ∈ sequences, t.Covers a → t = s) ∧
        (row ∈ s.rows ∨ (∀ r ∈ s.rows, r.Kept → a < r.address) ∨
          ∃ t ∈ sequences, row ∈ t.rows ∧ row.address = t.last.address)) := by
  obtain ⟨a, row, ha, hrow, hgoes, hlocated, hlow, hhigh, hcovered⟩ :=
    nearest_of_lineTable hadd hresolve
  refine ⟨a, row, ha, hlocated, hlow, ?_⟩
  have : Std.Symm LineSequence.Disjoint := ⟨fun _ _ => LineSequence.Disjoint.symm⟩
  -- two sequences that cover one address are the same
  have hsame : ∀ {s t : LineSequence} {b : UInt64}, s ∈ (sequencesOf (rowsOf h program)).1 →
      t ∈ (sequencesOf (rowsOf h program)).1 → s.Covers b → t.Covers b → t = s := by
    intro s t b hs ht hsb htb
    by_contra hne
    exact hdisjoint.forall ht hs hne b ⟨htb, hsb⟩
  rcases mem_sequencesOf hrow hgoes with htail | ⟨t, ht, hmem⟩
  · exact .inl htail
  refine .inr ?_
  obtain ⟨range, hrange, hend, hstart, hstop⟩ := (hordered t ht).bounds hmem
  obtain ⟨s, hs, hsa⟩ := hcovered (by
    rw [rangesFrom_none]
    exact List.ne_nil_of_mem (List.mem_filterMap.2 ⟨t, ht, hrange⟩))
  refine ⟨s, hs, hsa, fun t ht hta => hsame hs ht hsa hta, ?_⟩
  by_cases hkept : ∃ r ∈ s.rows, r.Kept ∧ r.address ≤ a
  · obtain ⟨r, hr, hk, hra⟩ := hkept
    have hbetween := hhigh r (mem_of_mem_sequencesOf hs hr) hk hra
    by_cases hinner : row.address < t.last.address
    -- the row is in the ranges of both sequences
    · obtain ⟨range', hrange', hend', hstart', -⟩ := (hordered s hs).bounds hr
      obtain ⟨range'', hrange'', -, hbehind⟩ := hsa
      obtain rfl : range' = range'' := Option.mem_unique hrange' hrange''
      have hs' : s.Covers row.address :=
        ⟨range', hrange', UInt64.le_trans hstart' hbetween, UInt64.lt_of_le_of_lt hlow hbehind⟩
      have ht' : t.Covers row.address := ⟨range, hrange, hstart, hend ▸ hinner⟩
      exact .inl (hsame hs ht hs' ht' ▸ hmem)
    · exact .inr (.inr ⟨t, ht, hmem, UInt64.le_antisymm hstop (UInt64.not_lt.1 hinner)⟩)
  · exact .inr (.inl fun r hr hk => UInt64.not_le.1 fun hra => hkept ⟨r, hr, hk, hra⟩)

/-! ### A sequence without a line -/

/-- A unit whose values refer to nothing. -/
def bareUnit : UnitContext :=
  ⟨⟨.empty, .empty, .empty, .empty, .empty, .empty, .empty⟩, ⟨false, 4, 8⟩, ⟨0, 0⟩⟩

/-- A line table of one file. -/
def oneFile : LineHeader where
  encoding := ⟨false, 4, 8⟩
  minInstructionLength := 1
  maxOperations := 1
  lineBase := -5
  lineRange := 14
  opcodeBase := 13
  operandCounts := [0, 1, 1, 1, 1, 0, 0, 0, 1, 0, 0, 1]
  directories := []
  files := [⟨.text "main.c".toUTF8.toList, 0⟩]
  compDir := none
  compName := none

/-- A program of two sequences. The first one has line 10 from 0x1000 up to 0x1010, and the other
one no line from 0x2000 up to 0x2010. -/
def withoutLine : List UInt8 :=
  [0, 9, 2, 0, 0x10, 0, 0, 0, 0, 0, 0, 3, 9, 1, 9, 0x10, 0, 0, 1, 1] ++
    [0, 9, 2, 0, 0x20, 0, 0, 0, 0, 0, 0, 3, 0x7f, 1, 9, 0x10, 0, 0, 1, 1]

/-- The file of its rows. -/
def onlyFile : Option FileEntry := some ⟨.text "main.c".toUTF8.toList, 0⟩

/-- The program has two sequences, of which the second one has no line. -/
theorem sequencesOf_withoutLine : sequencesOf (rowsOf oneFile withoutLine) =
    ([⟨[⟨0x1000, 10, onlyFile, false, false⟩], ⟨0x1010, 10, onlyFile, false, true⟩⟩,
      ⟨[⟨0x2000, 0, onlyFile, false, false⟩], ⟨0x2010, 0, onlyFile, false, true⟩⟩], []) := by
  decide +kernel

/-- What the program enters. -/
def withoutLineEntries : List LineEntry :=
  [.record "main.c" 10 ⟨0x1000⟩ false, .sequence ⟨0x1000⟩ ⟨0x1010⟩, .sequence ⟨0x2000⟩ ⟨0x2010⟩]

/-- The table of this program has the row of the first sequence, and the ranges of both. -/
theorem addLineTable_withoutLine :
    addLineTable bareUnit .null (empty "") (oneFile, withoutLine) =
      .ok (ofEntries "" withoutLineEntries) := by
  decide +kernel

/-- Both sequences are in order. -/
theorem ordered_withoutLine :
    ∀ s ∈ (sequencesOf (rowsOf oneFile withoutLine)).1, s.Ordered := by
  rw [sequencesOf_withoutLine]
  decide

/-- They are disjoint. -/
theorem disjoint_withoutLine :
    (sequencesOf (rowsOf oneFile withoutLine)).1.Pairwise LineSequence.Disjoint := by
  rw [sequencesOf_withoutLine]
  refine List.pairwise_pair.2 fun a => ?_
  rintro ⟨⟨_, ⟨rfl⟩, -, hbehind⟩, _, ⟨rfl⟩, hfirst, -⟩
  exact absurd (UInt64.lt_of_lt_of_le hbehind (by decide)) (UInt64.not_lt.2 hfirst)

/-- An address of the second sequence gets the line of the first one. -/
theorem resolveAddress_withoutLine :
    (ofEntries "" withoutLineEntries).resolveAddress ⟨0x2004⟩ = .ok ⟨"main.c", 10⟩ := by
  decide +kernel

/-- An address in the range of the sequence without a line gets the line of the other one. -/
theorem resolveAddress_of_lineTable_crosses :
    addLineTable bareUnit .null (empty "") (oneFile, withoutLine) =
        .ok (ofEntries "" withoutLineEntries) ∧
      (ofEntries "" withoutLineEntries).resolveAddress ⟨0x2004⟩ = .ok ⟨"main.c", 10⟩ ∧
      let (sequences, tail) := sequencesOf (rowsOf oneFile withoutLine)
      ∃ a row, relocate .null a = .ok ⟨0x2004⟩ ∧ Located bareUnit oneFile row ⟨"main.c", 10⟩ ∧
        row.address ≤ a ∧
        (row ∈ tail ∨ ∃ s ∈ sequences, s.Covers a ∧ (∀ t ∈ sequences, t.Covers a → t = s) ∧
          (row ∈ s.rows ∨ (∀ r ∈ s.rows, r.Kept → a < r.address) ∨
            ∃ t ∈ sequences, row ∈ t.rows ∧ row.address = t.last.address)) :=
  ⟨addLineTable_withoutLine, resolveAddress_withoutLine,
    resolveAddress_of_lineTable addLineTable_withoutLine ordered_withoutLine disjoint_withoutLine
      resolveAddress_withoutLine⟩

/-- So the line of an address need not be that of a row of the sequence that covers it. -/
theorem not_resolveAddress_of_own_sequence :
    ¬ ∀ (u : UnitContext) (h : LineHeader) (bias : Addr) (directory : String)
      (program : List UInt8) (index : DebugIndex),
      addLineTable u bias (empty directory) (h, program) = .ok index →
      (∀ s ∈ (sequencesOf (rowsOf h program)).1, s.Ordered) →
      (sequencesOf (rowsOf h program)).1.Pairwise LineSequence.Disjoint →
      ∀ (pc : Addr) (location : SourceLocation), index.resolveAddress pc = .ok location →
        ∃ a, relocate bias a = .ok pc ∧ ∃ s ∈ (sequencesOf (rowsOf h program)).1, s.Covers a ∧
          ∃ row ∈ s.rows, Located u h row location := by
  intro h
  obtain ⟨a, ha, s, hs, ⟨_, hrange, -, hbehind⟩, row, hrow, hlocated⟩ :=
    h _ _ _ _ _ _ addLineTable_withoutLine ordered_withoutLine disjoint_withoutLine
      ⟨0x2004⟩ ⟨"main.c", 10⟩ resolveAddress_withoutLine
  rw [relocate_eq_ok_iff] at ha
  rw [sequencesOf_withoutLine] at hs
  rcases List.mem_pair.1 hs with rfl | rfl
  -- the first sequence ends below the address, and the only row of the other one has no line
  · cases hrange
    have hlt := UInt64.lt_iff_toNat_lt.1 hbehind
    rw [← Nat.zero_add a.toNat] at hlt
    exact absurd (ha ▸ hlt) (by decide)
  · rw [List.mem_singleton.1 hrow] at hlocated
    exact absurd hlocated.1 (by decide)

end SourceDebugger.DebugIndex
