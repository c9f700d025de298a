import Mathlib.Data.List.Induction
import Mathlib.Data.List.Sort
import Mathlib.Data.String.Basic
import Mathlib.Order.RelClasses
import SourceDebugger.Index.Lookup
import SourceDebugger.Proofs.SortedMap

/-!
# Lines and their addresses

The line table is entered row by row, and kept by file and line and by address. `DebugIndex.Lists`
says that an index lists the rows of a table, given in the order in which they were entered: it is
what each entry adds to, `Lists.addLineRecord`, and what the look-ups answer from.

Several rows can have one address. `LineTable.Leads` says which of them counts there: one that ends
a prologue before one that does not, then one of a lower line, then the later one.

* `DebugIndex.Lists.resolveAddress_of_row`: an address of a row belongs to the line of the row that
  leads there.
* `DebugIndex.resolveAddress_lookupBreakpointAddress`: so the address at which a breakpoint on a
  line traps belongs to that line if and only if a row of the line leads there.
-/

namespace SourceDebugger

/-! ### Rows of one address -/

/-- The rows of a line table with the lines to which they belong, in the order in which they were
entered. -/
abbrev LineTable := List (SourceLocation × LineRecord)

namespace LineTable

/-- Whether a row counts no more than another one of the same address: the other one ends a
prologue if it does, and if the two agree in that, has no higher line. -/
def Yields (r s : SourceLocation × LineRecord) : Prop :=
  (r.2.prologueEnd = true → s.2.prologueEnd = true) ∧
    (r.2.prologueEnd = s.2.prologueEnd → s.1.line ≤ r.1.line)

instance (r s : SourceLocation × LineRecord) : Decidable (Yields r s) :=
  inferInstanceAs (Decidable (_ ∧ _))

/-- Of the rows with an address, `row` is the one that counts: those before it count no more, and
those behind it count less. -/
def Leads (table : LineTable) (addr : Addr) (row : SourceLocation × LineRecord) : Prop :=
  ∃ before after, table = before ++ row :: after ∧ row.2.addr = addr ∧
    (∀ r ∈ before, r.2.addr = addr → Yields r row) ∧
    ∀ r ∈ after, r.2.addr = addr → ¬ Yields row r

/-- Only one row leads at an address. -/
theorem Leads.unique {table : LineTable} {addr : Addr} {r s : SourceLocation × LineRecord}
    (hr : table.Leads addr r) (hs : table.Leads addr s) : r = s := by
  obtain ⟨before, after, rfl, hraddr, hbefore, hafter⟩ := hr
  obtain ⟨before', after', htable, hsaddr, hbefore', hafter'⟩ := hs
  rcases List.append_eq_append_iff.1 htable with ⟨mid, rfl, hrest⟩ | ⟨mid, rfl, hrest⟩
  -- if one stood before the other, it would count both no more and more
  · rcases mid with _ | ⟨x, mid⟩
    · exact (List.cons.inj hrest).1
    · obtain ⟨rfl, rfl⟩ := List.cons.inj hrest
      exact absurd (hbefore' r (by simp) hraddr) (hafter s (by simp) hsaddr)
  · rcases mid with _ | ⟨x, mid⟩
    · exact (List.cons.inj hrest).1.symm
    · obtain ⟨rfl, rfl⟩ := List.cons.inj hrest
      exact absurd (hbefore s (by simp) hsaddr) (hafter' r (by simp) hraddr)

end LineTable

namespace LineRow

/-- The order of the rows, with addresses and lines as numbers. -/
theorem le_iff {a b : LineRow} : a.le b = true ↔
    a.addr.toNat < b.addr.toNat ∨ a.addr = b.addr ∧
      (a.prologueEnd = true → b.prologueEnd = true) ∧
      (a.prologueEnd = b.prologueEnd → b.line.toNat ≤ a.line.toNat) := by
  have hlt : ∀ x y : Addr, x < y ↔ x.toNat < y.toNat := fun _ _ => UInt64.lt_iff_toNat_lt
  unfold le
  by_cases haddr : a.addr = b.addr
  · cases a.prologueEnd <;> cases b.prologueEnd <;> simp [haddr, UInt64.le_iff_toNat_le]
  · simp [haddr, hlt]

/-- Any two rows are in order one way or the other. -/
theorem le_total (a b : LineRow) : a.le b = true ∨ b.le a = true := by
  rw [le_iff, le_iff]
  rcases Nat.lt_trichotomy a.addr.toNat b.addr.toNat with h | h | h
  · exact .inl (.inl h)
  · have haddr : a.addr = b.addr := Addr.ext_iff_val.2 (UInt64.toNat_inj.1 h)
    cases a.prologueEnd <;> cases b.prologueEnd <;> simp [haddr, Nat.le_total]
  · exact .inr (.inl h)

/-- The order of rows is transitive. -/
theorem le_trans {a b c : LineRow} (hab : a.le b = true) (hbc : b.le c = true) :
    a.le c = true := by
  rw [le_iff] at hab hbc ⊢
  rcases hab with hab | ⟨hab, hpab, hlab⟩ <;> rcases hbc with hbc | ⟨hbc, hpbc, hlbc⟩
  · exact .inl (hab.trans hbc)
  · exact .inl (hbc ▸ hab)
  · exact .inl (hab ▸ hbc)
  · refine .inr ⟨hab.trans hbc, hpbc ∘ hpab, fun hac => ?_⟩
    -- the mark in the middle is the one that both ends have
    have hb : a.prologueEnd = b.prologueEnd := by
      revert hpab hpbc hac
      cases a.prologueEnd <;> cases b.prologueEnd <;> cases c.prologueEnd <;> simp
    exact (hlbc (hb ▸ hac)).trans (hlab hb)

/-- Of two rows the one that counts more has the higher address, or the same. -/
theorem addr_le {a b : LineRow} (h : a.le b = true) : a.addr ≤ b.addr := by
  show a.addr.val ≤ b.addr.val
  rw [UInt64.le_iff_toNat_le]
  rcases le_iff.1 h with h | ⟨h, -⟩
  · exact Nat.le_of_lt h
  · exact Nat.le_of_eq (congrArg Addr.toNat h)

end LineRow

namespace DebugIndex

/-! ### The rows by address -/

/-- The rows from the one that counts most on. -/
def Descending (rows : List LineRow) : Prop := rows.Pairwise fun a b => b.le a = true

instance : Std.Total fun a b : LineRow => b.le a = true := ⟨fun a b => LineRow.le_total b a⟩

instance : IsTrans LineRow fun a b => b.le a = true :=
  ⟨fun _ _ _ hab hbc => LineRow.le_trans hbc hab⟩

/-- A row is entered where the order says. -/
theorem insertRow_eq (row : LineRow) (rows : List LineRow) :
    insertRow row rows = rows.orderedInsert (fun a b => b.le a = true) row := by
  induction rows with
  | nil => rfl
  | cons r rest ih => rw [insertRow, List.orderedInsert, ih]

/-- A row is inserted where it belongs in the order. -/
theorem Descending.insertRow {rows : List LineRow} (h : Descending rows) (row : LineRow) :
    Descending (insertRow row rows) := by
  rw [insertRow_eq]
  exact List.Pairwise.orderedInsert row rows h

/-- The row for an address once one more row is known: the new one if it does not lie behind the
address and the old one counts no more. -/
def prefer (pc : Addr) (best : Option LineRow) (row : LineRow) : Option LineRow :=
  if row.addr ≤ pc then
    match best with
    | some r => if r.le row then some row else some r
    | none => some row
  else best

/-- In rows that are ordered, the first one that does not lie behind an address is found from the
old one by looking at the new row. -/
theorem find?_insertRow {rows : List LineRow} (h : Descending rows) (row : LineRow) (pc : Addr) :
    (insertRow row rows).find? (·.addr ≤ pc) = prefer pc (rows.find? (·.addr ≤ pc)) row := by
  induction rows with
  | nil =>
    by_cases hpc : row.addr ≤ pc <;> simp [insertRow, prefer, hpc]
  | cons r rest ih =>
    obtain ⟨hfirst, hrest⟩ := List.pairwise_cons.1 h
    rw [insertRow]
    by_cases hle : r.le row = true
    · rw [if_pos hle, List.find?_cons]
      unfold prefer
      by_cases hpc : row.addr ≤ pc
      -- the new row is the first, and whatever was found before counts no more
      · rw [if_pos hpc, decide_eq_true hpc]
        rcases hfind : (r :: rest).find? (·.addr ≤ pc) with _ | found
        · rw [hfind]
        · have hfound : found.le row = true := by
            rcases List.mem_cons.1 (List.mem_of_find?_eq_some hfind) with rfl | hmem
            · exact hle
            · exact LineRow.le_trans (hfirst found hmem) hle
          rw [hfind]
          exact (if_pos hfound).symm
      · rw [if_neg hpc, decide_eq_false hpc]
    · rw [if_neg hle, List.find?_cons, List.find?_cons, ih hrest]
      by_cases hr : r.addr ≤ pc
      · rw [decide_eq_true hr]
        simp [prefer, hle]
      · rw [decide_eq_false hr]

/-- The row for an address, found by looking at the rows one after the other. -/
def scan (pc : Addr) (rows : List LineRow) : Option LineRow := rows.foldl (prefer pc) none

/-- One more row is preferred to the one that was found, or it is not. -/
theorem scan_append (pc : Addr) (rows : List LineRow) (row : LineRow) :
    scan pc (rows ++ [row]) = prefer pc (scan pc rows) row := by
  rw [scan, List.foldl_append]
  rfl

/-- If no row is found, all of them are behind the address. -/
theorem scan_eq_none {pc : Addr} {rows : List LineRow} (h : scan pc rows = none) :
    ∀ r ∈ rows, ¬ r.addr ≤ pc := by
  induction rows using List.reverseRecOn with
  | nil => simp
  | append_singleton rows last ih =>
    rw [scan_append] at h
    unfold prefer at h
    split at h
    · split at h
      · split at h <;> cases h
      · cases h
    · rename_i hlast
      intro r hr
      rcases List.mem_append.1 hr with hr | hr
      · exact ih h r hr
      · exact List.mem_singleton.1 hr ▸ hlast

/-- What the scan finds is the row that counts most among those that do not lie behind the address,
and of several the one that was entered last. -/
theorem exists_of_scan {pc : Addr} {rows : List LineRow} {row : LineRow}
    (h : scan pc rows = some row) :
    ∃ before after, rows = before ++ row :: after ∧ row.addr ≤ pc ∧
      (∀ r ∈ before, r.addr ≤ pc → r.le row = true) ∧
      ∀ r ∈ after, r.addr ≤ pc → ¬ row.le r = true := by
  -- the row that was entered last is looked at last
  induction rows using List.reverseRecOn generalizing row with
  | nil => cases h
  | append_singleton rows last ih =>
    rw [scan_append] at h
    unfold prefer at h
    split at h
    · rename_i hlast
      rcases hscan : scan pc rows with _ | found <;> rw [hscan] at h
      · cases h
        exact ⟨rows, [], rfl, hlast, fun r hr hpc => absurd hpc (scan_eq_none hscan r hr), by simp⟩
      obtain ⟨before, after, rfl, hpc, hbefore, hafter⟩ := ih hscan
      dsimp only at h
      split at h
      -- the new row counts as much as the one found before, and that one as much as any other
      · rename_i hle
        cases h
        refine ⟨_, [], rfl, hlast, fun r hr hr' => LineRow.le_trans ?_ hle, by simp⟩
        rcases List.mem_append.1 hr with hr | hr
        · exact hbefore r hr hr'
        · rcases List.mem_cons.1 hr with rfl | hr
          · exact (LineRow.le_total r r).elim id id
          · exact (LineRow.le_total r found).resolve_right (hafter r hr hr')
      · rename_i hle
        cases h
        refine ⟨before, after ++ [last], by simp, hpc, hbefore, fun r hr hr' => ?_⟩
        rcases List.mem_append.1 hr with hr | hr
        · exact hafter r hr hr'
        · exact List.mem_singleton.1 hr ▸ hle
    · rename_i hlast
      obtain ⟨before, after, rfl, hpc, hbefore, hafter⟩ := ih h
      refine ⟨before, after ++ [last], by simp, hpc, hbefore, fun r hr hr' => ?_⟩
      rcases List.mem_append.1 hr with hr | hr
      · exact hafter r hr hr'
      · exact absurd hr' (List.mem_singleton.1 hr ▸ hlast)

/-! ### What an index lists -/

instance : IsStrictTotalOrder UInt64 (· < ·) where
  trichotomous _ _ hab hba := UInt64.le_antisymm (UInt64.not_lt.1 hba) (UInt64.not_lt.1 hab)
  irrefl := UInt64.lt_irrefl
  trans _ _ _ := UInt64.lt_trans

/-- A row with its line, as it stands among the rows of that line. -/
def named (index : DebugIndex) (row : LineRow) : SourceLocation × LineRecord :=
  (⟨index.files.getD row.file "", row.line⟩, ⟨row.addr, row.prologueEnd⟩)

/-- An index lists the rows of a line table. -/
structure Lists (index : DebugIndex) (table : LineTable) : Prop where
  /-- It has them in the order in which they were entered. -/
  rows : index.rows.map index.named = table
  /-- Each of them has the number of a file. -/
  numbered : ∀ r ∈ index.rows, r.file < index.files.length
  /-- It has rows from the one that counts most on. -/
  descending : Descending index.rowsByAddr
  /-- Among these every address finds its row. -/
  scan_eq : ∀ pc, index.rowsByAddr.find? (·.addr ≤ pc) = scan pc index.rows
  /-- The files are in order. -/
  ascending : SortedMap.Ascending index.sources
  /-- So are the lines of each file. -/
  ascending_lines : ∀ e ∈ index.sources, SortedMap.Ascending e.2
  /-- Every row is in a file that is known. -/
  known : ∀ row ∈ table, row.1.file ∈ SortedMap.keys index.sources
  /-- Every line has its rows. -/
  records : ∀ file line,
    ((SortedMap.find? index.sources file).bind (SortedMap.find? · line)).getD [] =
      (table.filter (·.1 = ⟨file, line⟩)).map (·.2)

/-- An index without entries lists an empty table. -/
theorem lists_empty (directory : String) : Lists (empty directory) [] where
  rows := rfl
  numbered := by simp [empty]
  descending := List.Pairwise.nil
  scan_eq _ := rfl
  ascending := List.Pairwise.nil
  ascending_lines := by simp [empty]
  known := by simp
  records _ _ := rfl

/-- A file has a number, and the files that have one keep it. -/
theorem internFile_spec (files : List String) (file : String) :
    files <+: (internFile files file).1 ∧
      (internFile files file).1[(internFile files file).2]? = some file := by
  unfold internFile
  split
  · rename_i id hid
    obtain ⟨hlt, heq, -⟩ := List.findIdx?_eq_some_iff_getElem.1 hid
    exact ⟨List.prefix_rfl, by rw [List.getElem?_eq_getElem hlt, eq_of_beq heq]⟩
  · exact ⟨List.prefix_append _ _, List.getElem?_concat_length⟩

namespace Lists

variable {index : DebugIndex} {table : LineTable}

/-- The range of a sequence changes no row. -/
theorem addSequence (h : index.Lists table) (first behind : Addr) :
    (index.addSequence first behind).Lists table :=
  ⟨h.rows, h.numbered, h.descending, h.scan_eq, h.ascending, h.ascending_lines, h.known, h.records⟩

/-- The lines of a file are in order, also those of a file that is not known. -/
theorem ascending_lines_of_file (h : index.Lists table) (file : String) :
    SortedMap.Ascending ((SortedMap.find? index.sources file).getD []) := by
  rcases hfind : SortedMap.find? index.sources file with _ | lines
  · exact List.Pairwise.nil
  · obtain ⟨e, he, rfl⟩ := Option.map_eq_some_iff.1 hfind
    exact h.ascending_lines e (List.mem_of_find?_eq_some he)

/-- The rows of a line once one more row is entered. -/
theorem records_addLineRecord (h : index.Lists table) (file : String) (line : UInt64)
    (record : LineRecord) (file' : String) (line' : UInt64) :
    ((SortedMap.find? (SortedMap.update index.sources file [] fun lines =>
        SortedMap.update lines line [] (· ++ [record])) file').bind
      (SortedMap.find? · line')).getD [] =
      (List.filter (·.1 = ⟨file', line'⟩) (table ++ [(⟨file, line⟩, record)])).map (·.2) := by
  have hold := h.records file' line'
  rw [List.filter_append, List.map_append, ← hold]
  -- another file or another line keeps its records; the line itself gets one more at the end
  by_cases hfile : file' = file
  · subst hfile
    rw [h.ascending.find?_update, Option.bind_some]
    have hlines : SortedMap.find? ((SortedMap.find? index.sources file').getD []) line' =
        (SortedMap.find? index.sources file').bind (SortedMap.find? · line') := by
      cases SortedMap.find? index.sources file' <;> rfl
    by_cases hline : line' = line
    · subst hline
      rw [(h.ascending_lines_of_file file').find?_update, hlines]
      simp
    · rw [SortedMap.find?_update_of_ne _ _ _ hline, hlines]
      simp [Ne.symm hline]
  · rw [SortedMap.find?_update_of_ne _ _ _ hfile]
    simp [Ne.symm hfile]

/-- One more row is entered. -/
theorem addLineRecord (h : index.Lists table) (file : String) (line : UInt64) (addr : Addr)
    (prologueEnd : Bool) :
    (index.addLineRecord file line addr prologueEnd).Lists
      (table ++ [(⟨file, line⟩, ⟨addr, prologueEnd⟩)]) := by
  obtain ⟨hstart, hnew⟩ := internFile_spec index.files file
  have hlt : (internFile index.files file).2 < (internFile index.files file).1.length :=
    (List.getElem?_eq_some_iff.1 hnew).1
  refine ⟨?_, fun r hr => ?_, h.descending.insertRow _, fun pc => ?_, h.ascending.update _ _ _,
    fun e he => ?_, fun row hrow => ?_, h.records_addLineRecord file line ⟨addr, prologueEnd⟩⟩
  -- every number still stands for the same file
  · have hkept : ∀ r ∈ index.rows,
        (index.addLineRecord file line addr prologueEnd).named r = index.named r := by
      intro r hr
      have hsame := List.prefix_iff_getElem?.1 hstart r.file (h.numbered r hr)
      simp only [named, DebugIndex.addLineRecord, List.getD_eq_getElem?_getD, hsame,
        List.getElem?_eq_getElem (h.numbered r hr)]
    have hlast : (index.addLineRecord file line addr prologueEnd).named
        ⟨addr, (internFile index.files file).2, line, prologueEnd⟩ =
          (⟨file, line⟩, ⟨addr, prologueEnd⟩) := by
      show ((⟨(internFile index.files file).1.getD _ _, _⟩, _) : SourceLocation × LineRecord) = _
      rw [List.getD_eq_getElem?_getD, hnew, Option.getD_some]
    show List.map (index.addLineRecord file line addr prologueEnd).named (index.rows ++
      [⟨addr, (internFile index.files file).2, line, prologueEnd⟩]) = _
    rw [List.map_append, List.map_congr_left hkept, h.rows, List.map_singleton, hlast]
  · rcases List.mem_append.1 hr with hr | hr
    · exact (h.numbered r hr).trans_le hstart.length_le
    · exact List.mem_singleton.1 hr ▸ hlt
  · show (insertRow _ index.rowsByAddr).find? _ = scan pc (index.rows ++ [_])
    rw [find?_insertRow h.descending, h.scan_eq, scan_append]
  · rcases SortedMap.mem_update he with he | ⟨-, he | ⟨lines, hlines, he⟩⟩
    · exact h.ascending_lines e he
    · rw [he]
      exact SortedMap.Ascending.update List.Pairwise.nil _ _ _
    · rw [he]
      exact SortedMap.Ascending.update (h.ascending_lines _ hlines) _ _ _
  · refine SortedMap.mem_keys_update.2 ?_
    rcases List.mem_append.1 hrow with hrow | hrow
    · exact .inr (h.known row hrow)
    · exact .inl (List.mem_singleton.1 hrow ▸ rfl)

/-! ### Looking up -/

/-- The rows of a line of a file that is known. -/
theorem recordsOf_eq (h : index.Lists table) {file : String} {line : UInt64}
    (hknown : file ∈ SortedMap.keys index.sources) :
    index.recordsOf file line = (table.filter (·.1 = ⟨file, line⟩)).map (·.2) := by
  have hresolve : index.resolveFile? file = some file := by
    simp [resolveFile?, hknown]
  rw [← h.records file line]
  unfold recordsOf
  simp only [hresolve]
  cases SortedMap.find? index.sources file <;> rfl

end Lists

/-- The lowest address of some records is that of one of them. -/
theorem exists_of_lowestAddr? {records : List LineRecord} {addr : Addr}
    (h : lowestAddr? records = some addr) : ∃ r ∈ records, r.addr = addr := by
  -- going through the records, the lowest address so far is that of a record
  have hfold : ∀ (rest : List LineRecord) (r : LineRecord), ∃ s ∈ r :: rest,
      s.addr = rest.foldl (fun a s => if s.addr < a then s.addr else a) r.addr := by
    intro rest
    induction rest with
    | nil => exact fun r => ⟨r, by simp, rfl⟩
    | cons s rest ih =>
      intro r
      rw [List.foldl_cons]
      split
      · obtain ⟨t, ht, heq⟩ := ih s
        exact ⟨t, List.mem_cons_of_mem _ ht, heq⟩
      · obtain ⟨t, ht, heq⟩ := ih r
        refine ⟨t, ?_, heq⟩
        rcases List.mem_cons.1 ht with rfl | ht
        · exact List.mem_cons_self
        · exact List.mem_cons_of_mem _ (List.mem_cons_of_mem _ ht)
  rcases records with _ | ⟨r, rest⟩
  · cases h
  · cases h
    exact hfold rest r

/-- A breakpoint on a line traps at the address of one of its rows. -/
theorem Lists.exists_of_lookupBreakpointAddress {index : DebugIndex} {table : LineTable}
    (h : index.Lists table) {file : String} {line : UInt64} {addr : Addr}
    (hknown : file ∈ SortedMap.keys index.sources)
    (hlookup : index.lookupBreakpointAddress file line = .ok addr) :
    ∃ r, (⟨file, line⟩, r) ∈ table ∧ r.addr = addr := by
  have hmem : ∀ r ∈ index.recordsOf file line, (⟨file, line⟩, r) ∈ table := by
    intro r hr
    rw [h.recordsOf_eq hknown] at hr
    obtain ⟨⟨l, r⟩, hrow, rfl⟩ := List.mem_map.1 hr
    obtain ⟨hrow, hline⟩ := List.mem_filter.1 hrow
    exact (of_decide_eq_true hline : l = _) ▸ hrow
  unfold lookupBreakpointAddress at hlookup
  dsimp only at hlookup
  -- a marked record is taken as it is, otherwise the lowest one unless it is null
  split at hlookup
  · rename_i r hr
    cases hlookup
    exact ⟨r, hmem r (List.mem_of_find?_eq_some hr), rfl⟩
  · split at hlookup
    · rename_i a ha
      split at hlookup
      · cases hlookup
      · cases hlookup
        obtain ⟨r, hr, heq⟩ := exists_of_lowestAddr? ha
        exact ⟨r, hmem r hr, heq⟩
    · cases hlookup

/-- The order of two rows of one address is that of their lines and marks. -/
theorem le_iff_yields (index : DebugIndex) {a b : LineRow} (haddr : a.addr = b.addr) :
    a.le b = true ↔ LineTable.Yields (index.named a) (index.named b) := by
  rw [LineRow.le_iff, haddr]
  simp [LineTable.Yields, named, UInt64.le_iff_toNat_le]

/-- An address of a row that the table covers belongs to the line of the row that leads there. -/
theorem Lists.resolveAddress_of_row {index : DebugIndex} {table : LineTable}
    (h : index.Lists table) {row : SourceLocation × LineRecord} (hrow : row ∈ table)
    (hcovered : ∃ e ∈ index.sequences, e.1 ≤ row.2.addr ∧ row.2.addr < e.2) :
    ∃ leader, table.Leads row.2.addr leader ∧
      index.resolveAddress row.2.addr = .ok leader.1 := by
  obtain ⟨r, hr, rfl⟩ := List.mem_map.1 (h.rows ▸ hrow)
  show ∃ leader, table.Leads r.addr leader ∧ index.resolveAddress r.addr = .ok leader.1
  obtain ⟨e, he, hfirst, hbehind⟩ := hcovered
  have hinside : index.sequences.any (fun e => e.1 ≤ r.addr && r.addr < e.2) = true :=
    List.any_eq_true.2 ⟨e, he, by simpa using ⟨hfirst, hbehind⟩⟩
  have hself : r.addr ≤ r.addr := UInt64.le_refl r.addr.val
  rcases hscan : scan r.addr index.rows with _ | leader
  · exact absurd hself (scan_eq_none hscan r hr)
  obtain ⟨before, after, hrows, hle, hbefore, hafter⟩ := exists_of_scan hscan
  -- the row itself counts no more than the one that was found, so neither lies behind the other
  have hcounts : r.le leader = true := by
    rw [hrows] at hr
    rcases List.mem_append.1 hr with hr | hr
    · exact hbefore r hr hself
    · rcases List.mem_cons.1 hr with rfl | hr
      · exact (LineRow.le_total r r).elim id id
      · exact (LineRow.le_total r leader).resolve_right (hafter r hr hself)
  have haddr : leader.addr = r.addr := 
    Addr.ext_iff_val.2 (UInt64.le_antisymm hle (LineRow.addr_le hcounts))
  refine ⟨index.named leader,
    ⟨before.map index.named, after.map index.named, ?_, haddr, ?_, ?_⟩, ?_⟩
  · rw [← h.rows, hrows, List.map_append, List.map_cons]
  · intro s hs hsame
    obtain ⟨q, hq, rfl⟩ := List.mem_map.1 hs
    have hsame : q.addr = r.addr := hsame
    exact (index.le_iff_yields (hsame.trans haddr.symm)).1 (hbefore q hq (hsame ▸ hself))
  · intro s hs hsame
    obtain ⟨q, hq, rfl⟩ := List.mem_map.1 hs
    have hsame : q.addr = r.addr := hsame
    exact fun hyields => hafter q hq (hsame ▸ hself)
      ((index.le_iff_yields (haddr.trans hsame.symm)).2 hyields)
  · unfold resolveAddress
    rw [hinside, h.scan_eq, hscan]
    simp [named]

/-! ### Filling an index -/

/-- An entry of the line table: a row of a line, or a range of addresses that the table covers. -/
inductive LineEntry where
  /-- A row. -/
  | record (file : String) (line : UInt64) (addr : Addr) (prologueEnd : Bool)
  /-- A range, from its first address up to the one behind it. -/
  | sequence (first behind : Addr)

namespace LineEntry

/-- Makes an entry in an index. -/
def enter (index : DebugIndex) : LineEntry → DebugIndex
  | record file line addr prologueEnd => index.addLineRecord file line addr prologueEnd
  | sequence first behind => index.addSequence first behind

/-- The row of an entry, if it is one. -/
def row? : LineEntry → Option (SourceLocation × LineRecord)
  | record file line addr prologueEnd => some (⟨file, line⟩, ⟨addr, prologueEnd⟩)
  | sequence _ _ => none

/-- The range of an entry, if it is one. -/
def range? : LineEntry → Option (Addr × Addr)
  | record .. => none
  | sequence first behind => some (first, behind)

end LineEntry

/-- The index with some entries, made one after the other. -/
def ofEntries (directory : String) (entries : List LineEntry) : DebugIndex :=
  entries.foldl LineEntry.enter (empty directory)

/-- The rows that were entered are listed, in their order. -/
theorem lists_ofEntries (directory : String) (entries : List LineEntry) :
    (ofEntries directory entries).Lists (entries.filterMap LineEntry.row?) := by
  induction entries using List.reverseRecOn with
  | nil => exact lists_empty directory
  | append_singleton entries last ih =>
    rw [ofEntries, List.foldl_append, List.filterMap_append]
    cases last with
    | record file line addr prologueEnd => exact ih.addLineRecord file line addr prologueEnd
    | sequence first behind => exact (List.append_nil _).symm ▸ ih.addSequence first behind

/-- The ranges that were entered are listed, in their order. -/
theorem sequences_ofEntries (directory : String) (entries : List LineEntry) :
    (ofEntries directory entries).sequences = entries.filterMap LineEntry.range? := by
  induction entries using List.reverseRecOn with
  | nil => rfl
  | append_singleton entries last ih =>
    rw [ofEntries, List.foldl_append, List.filterMap_append, ← ih]
    cases last with
    | record file line addr prologueEnd => exact (List.append_nil _).symm
    | sequence first behind => rfl

/-- In an index with some entries, whose rows are all covered, a breakpoint on a line traps at an
address that belongs to the line of the row that leads there. So it belongs to the line of the
breakpoint if and only if a row of that line leads. -/
theorem resolveAddress_lookupBreakpointAddress (directory : String) (entries : List LineEntry)
    (hcovered : ∀ row ∈ entries.filterMap LineEntry.row?,
      ∃ e ∈ entries.filterMap LineEntry.range?, e.1 ≤ row.2.addr ∧ row.2.addr < e.2)
    {file : String} {line : UInt64} {addr : Addr}
    (hstored : ∃ r, (⟨file, line⟩, r) ∈ entries.filterMap LineEntry.row?)
    (hlookup : (ofEntries directory entries).lookupBreakpointAddress file line = .ok addr) :
    (∃ row, LineTable.Leads (entries.filterMap LineEntry.row?) addr row ∧
      (ofEntries directory entries).resolveAddress addr = .ok row.1) ∧
    ((ofEntries directory entries).resolveAddress addr = .ok ⟨file, line⟩ ↔
      ∃ r, LineTable.Leads (entries.filterMap LineEntry.row?) addr (⟨file, line⟩, r)) := by
  have hlists := lists_ofEntries directory entries
  obtain ⟨_, hstored⟩ := hstored
  obtain ⟨r, hrow, rfl⟩ :=
    hlists.exists_of_lookupBreakpointAddress (hlists.known _ hstored) hlookup
  obtain ⟨leader, hleads, hresolve⟩ := hlists.resolveAddress_of_row hrow
    (sequences_ofEntries directory entries ▸ hcovered _ hrow)
  -- what the address resolves to is the row that leads at it, which may belong to another line
  refine ⟨⟨leader, hleads, hresolve⟩, fun heq => ?_, fun ⟨r', hleads'⟩ => ?_⟩
  · have hline : leader.1 = ⟨file, line⟩ := Except.ok.inj (hresolve.symm.trans heq)
    exact ⟨leader.2, hline ▸ hleads⟩
  · rw [hresolve, hleads.unique hleads']

/-- Two lines that share an address. -/
def sharedRows : List LineEntry :=
  [.record "main.c" 30 ⟨0x2010⟩ false, .record "main.c" 31 ⟨0x2010⟩ false,
    .sequence ⟨0x2000⟩ ⟨0x2020⟩]

/-- The lower one of two lines that share an address has it. -/
theorem resolveAddress_lookupBreakpointAddress_lower :
    (∃ row, LineTable.Leads (sharedRows.filterMap LineEntry.row?) ⟨0x2010⟩ row ∧
      (ofEntries "" sharedRows).resolveAddress ⟨0x2010⟩ = .ok row.1) ∧
    ((ofEntries "" sharedRows).resolveAddress ⟨0x2010⟩ = .ok ⟨"main.c", 30⟩ ↔
      ∃ r, LineTable.Leads (sharedRows.filterMap LineEntry.row?) ⟨0x2010⟩ (⟨"main.c", 30⟩, r)) :=
  resolveAddress_lookupBreakpointAddress "" sharedRows (by decide +kernel)
    ⟨⟨⟨0x2010⟩, false⟩, by decide +kernel⟩ (by decide +kernel)

/-- The higher one of two lines that share an address does not have it: a breakpoint on the line
traps at an address that belongs to the other line. -/
theorem not_resolveAddress_lookupBreakpointAddress :
    ¬ ∀ (directory : String) (entries : List LineEntry),
      (∀ row ∈ entries.filterMap LineEntry.row?,
        ∃ e ∈ entries.filterMap LineEntry.range?, e.1 ≤ row.2.addr ∧ row.2.addr < e.2) →
      ∀ (file : String) (line : UInt64) (addr : Addr),
        (∃ r, (⟨file, line⟩, r) ∈ entries.filterMap LineEntry.row?) →
        (ofEntries directory entries).lookupBreakpointAddress file line = .ok addr →
        (ofEntries directory entries).resolveAddress addr = .ok ⟨file, line⟩ := by
  intro h
  have hresolve := h "" sharedRows (by decide +kernel) "main.c" 31 ⟨0x2010⟩
    ⟨⟨⟨0x2010⟩, false⟩, by decide +kernel⟩ (by decide +kernel)
  have hlower : (ofEntries "" sharedRows).resolveAddress ⟨0x2010⟩ = .ok ⟨"main.c", 30⟩ := by
    decide +kernel
  rw [hlower] at hresolve
  simp at hresolve

end DebugIndex

end SourceDebugger
