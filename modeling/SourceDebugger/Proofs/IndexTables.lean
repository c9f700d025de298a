import Mathlib.Data.List.Nodup
import SourceDebugger.Proofs.AddressLookup

/-!
# The tables of an index

An index keeps what it is told in several tables: the rows of the line table by file and line, in
the order in which they come and by address, the files by number, and the functions by number and by
unit. `IndexCall` is what an index can be told.

* `Tables` says what the tables have to do with each other, and `Tables.apply` that each call keeps
  that.
* `ofCalls_consistent`: so after any calls the tables agree, and what an address leads to is there.
-/

namespace SourceDebugger.DebugIndex

/-! ### Calls -/

/-- What an index can be told. -/
inductive IndexCall where
  /-- A compile unit. -/
  | unit (u : CompileUnit)
  /-- A function of a unit. -/
  | function (f : FunctionEntry)
  /-- A variable of a function. -/
  | ofFunction (function : Nat) (v : VariableEntry)
  /-- A variable of a unit. -/
  | ofUnit (unit : Nat) (v : VariableEntry)
  /-- A type. -/
  | type (offset : UInt64) (entry : TypeEntry)
  /-- A row of the line table or a range of it. -/
  | line (entry : LineEntry)

namespace IndexCall

/-- The index after a call; none if it names a unit or a function that is not there. -/
def enter? (index : DebugIndex) : IndexCall → Option DebugIndex
  | unit u => some (index.addUnit u)
  | function f => index.addFunction? f
  | ofFunction number v => index.addVariable? number v
  | ofUnit number v => index.addGlobal? number v
  | type offset entry => some (index.addType offset entry)
  | line entry => some (entry.enter index)

/-- The row of a call, if it is one. -/
def row? : IndexCall → Option (SourceLocation × LineRecord)
  | line entry => entry.row?
  | _ => none

/-- The unit of a call, if it is one. -/
def unit? : IndexCall → Option CompileUnit
  | unit u => some u
  | _ => none

end IndexCall

/-- The index after some calls, one after the other. -/
def ofCalls? (directory : String) (calls : List IndexCall) : Option DebugIndex :=
  calls.foldlM IndexCall.enter? (empty directory)

/-! ### The line table by file and line -/

/-- The records by file and line are those of the rows. -/
theorem perm_allRecords_addLineRecord (index : DebugIndex) (file : String) (line : UInt64)
    (addr : Addr) (prologueEnd : Bool) :
    (index.addLineRecord file line addr prologueEnd).allRecords.Perm
      (index.allRecords ++ [(⟨file, line⟩, ⟨addr, prologueEnd⟩)]) := by
  refine SortedMap.perm_flatMap_update (fun lines => ?_) rfl index.sources
  exact SortedMap.perm_flatMap_update (fun records => by simp) rfl lines

/-- The rows by address are the rows. -/
theorem perm_insertRow (row : LineRow) (rows : List LineRow) :
    (insertRow row rows).Perm (row :: rows) := by
  rw [insertRow_eq]
  exact List.perm_orderedInsert _ row rows

/-! ### The functions by unit -/

/-- The numbers of the functions of a unit in ascending order, read off the units of all
functions. -/
def numbersOf (unit : Nat) (units : List Nat) : List Nat :=
  (List.range units.length).filter fun i => units[i]? = some unit

/-- One more entry adds its number to the list of its unit. -/
theorem numbersOf_concat (unit : Nat) (units : List Nat) (last : Nat) :
    numbersOf unit (units ++ [last]) =
      numbersOf unit units ++ if last = unit then [units.length] else [] := by
  have hold : ∀ i ∈ List.range units.length,
      decide ((units ++ [last])[i]? = some unit) = decide (units[i]? = some unit) := by
    intro i hi
    rw [List.getElem?_append_left (List.mem_range.1 hi)]
  rw [numbersOf, numbersOf, List.length_append, List.length_singleton, List.range_succ,
    List.filter_append, List.filter_congr hold]
  by_cases h : last = unit <;> simp [h]

/-- Each function is in the list of one unit, if its unit is there. -/
theorem perm_flatMap_numbersOf {units : List Nat} {count : Nat} (h : ∀ u ∈ units, u < count) :
    ((List.range count).flatMap (numbersOf · units)).Perm (List.range units.length) := by
  refine (List.perm_ext_iff_of_nodup ?_ List.nodup_range).2 fun i => ?_
  · refine List.nodup_flatMap.2 ⟨fun u _ => List.nodup_range.filter _, ?_⟩
    refine List.nodup_range.imp ?_
    intro u v hne i hu hv
    have hu' := (List.mem_filter.1 hu).2
    have hv' := (List.mem_filter.1 hv).2
    simp only [decide_eq_true_eq] at hu' hv'
    exact hne (Option.some.inj (hu'.symm.trans hv'))
  · simp only [List.mem_flatMap, numbersOf, List.mem_filter, List.mem_range, decide_eq_true_eq]
    constructor
    · rintro ⟨-, -, hi, -⟩
      exact hi
    · intro hi
      exact ⟨units[i], h _ (List.getElem_mem hi), hi, List.getElem?_eq_getElem hi⟩

/-! ### Files and their numbers -/

/-- A file that is interned is in the table, and nothing else is new. -/
theorem mem_internFile {files : List String} {file file' : String} :
    file' ∈ (internFile files file).1 ↔ file' ∈ files ∨ file' = file := by
  obtain ⟨hstart, hnew⟩ := internFile_spec files file
  refine ⟨fun hmem => ?_, fun hmem => ?_⟩
  · unfold internFile at hmem
    split at hmem
    · exact .inl hmem
    · exact (List.mem_append.1 hmem).imp_right List.mem_singleton.1
  · rcases hmem with hmem | rfl
    · exact hstart.subset hmem
    · exact List.mem_of_getElem? hnew

/-- The files in the order of their numbers, and the number of each file. -/
structure FileTable where
  /-- The files. -/
  files : List String
  /-- Their numbers. -/
  ids : SortedMap String Nat

namespace FileTable

/-- The number of a file, which is a new one if it has none. -/
def intern (t : FileTable) (file : String) : FileTable × Nat :=
  match SortedMap.find? t.ids file with
  | some id => (t, id)
  | none =>
    let id := t.files.length
    (⟨t.files ++ [file], SortedMap.update t.ids file id fun _ => id⟩, id)

/-- The files of a line table, each with a number from its first row on. -/
def ofTable (table : LineTable) : FileTable :=
  table.foldl (fun t row => (t.intern row.1.file).1) ⟨[], []⟩

/-- Every file has the number under which it stands, and no other. -/
def Bijective (t : FileTable) : Prop :=
  ∀ file id, SortedMap.find? t.ids file = some id ↔ t.files[id]? = some file

/-- Files and numbers are found in the files alone. -/
theorem Bijective.intern_eq {t : FileTable} (h : t.Bijective) (file : String) :
    ((t.intern file).1.files, (t.intern file).2) = internFile t.files file := by
  unfold intern internFile
  rcases hid : SortedMap.find? t.ids file with _ | id
  · have hnew : t.files.findIdx? (· == file) = none := by
      rw [List.findIdx?_eq_none_iff]
      intro x hx
      obtain ⟨i, hi⟩ := List.mem_iff_getElem?.1 hx
      have hne : x ≠ file := fun heq => by
        rw [(h file i).2 (heq ▸ hi)] at hid
        cases hid
      simpa using hne
    rw [hnew]
  · obtain ⟨hlt, hfile⟩ := List.getElem?_eq_some_iff.1 ((h file id).1 hid)
    have hfound : t.files.findIdx? (· == file) = some id := by
      refine List.findIdx?_eq_some_iff_getElem.2 ⟨hlt, by simpa using hfile, fun j hj => ?_⟩
      -- an earlier place would be another number of the file
      have hj' : t.files[j]? = some t.files[j] := List.getElem?_eq_getElem (hj.trans hlt)
      have hne : t.files[j] ≠ file := fun heq => by
        have hsame := ((h file j).2 (heq ▸ hj')).symm.trans hid
        exact absurd (Option.some.inj hsame) (Nat.ne_of_lt hj)
      simpa using hne
    rw [hfound]

/-- Files have different numbers after one more is interned. -/
theorem Bijective.intern {t : FileTable} (h : t.Bijective) (file : String) :
    (t.intern file).1.Bijective := by
  unfold FileTable.intern
  rcases hid : SortedMap.find? t.ids file with _ | id
  · intro file' id'
    dsimp only
    by_cases hfile : file' = file
    · subst hfile
      rw [SortedMap.find?_update_self]
      rcases Nat.lt_trichotomy id' t.files.length with hlt | heq | hgt
      -- a number that is in use is that of another file
      · rw [List.getElem?_append_left hlt, ← h, hid]
        exact ⟨fun heq => absurd (Option.some.inj heq) (Nat.ne_of_gt hlt), nofun⟩
      · simp [heq]
      · rw [List.getElem?_eq_none (by rw [List.length_append]; exact hgt)]
        exact ⟨fun heq => absurd (Option.some.inj heq) (Nat.ne_of_lt hgt), nofun⟩
    · rw [SortedMap.find?_update_of_ne _ _ _ hfile, h]
      rcases Nat.lt_trichotomy id' t.files.length with hlt | heq | hgt
      · rw [List.getElem?_append_left hlt]
      · rw [heq, List.getElem?_eq_none (Nat.le_refl _), List.getElem?_concat_length]
        exact ⟨nofun, fun heq => absurd (Option.some.inj heq).symm hfile⟩
      · rw [List.getElem?_eq_none hgt.le,
          List.getElem?_eq_none (by rw [List.length_append]; exact hgt)]
  · exact h

end FileTable

/-! ### The tables together -/

/-- What the tables of an index have to do with each other after some rows of a line table and some
compile units were entered. -/
structure Tables (index : DebugIndex) (table : LineTable) (given : List CompileUnit) : Prop where
  /-- The rows are those of the line table, also by line. -/
  lists : index.Lists table
  /-- By file and line there are the same records. -/
  records : index.allRecords.Perm table
  /-- By address there are the same rows. -/
  byAddr : index.rowsByAddr.Perm index.rows
  /-- The files are those of a table of files and numbers. -/
  files : index.files = (FileTable.ofTable table).files
  /-- In that one files and numbers belong to each other. -/
  numbers : (FileTable.ofTable table).Bijective
  /-- Its files are those of the rows. -/
  mem_files : ∀ file, file ∈ index.files ↔ ∃ row ∈ table, row.1.file = file
  /-- The unit of every function is there. -/
  unit_lt : ∀ f ∈ index.functions, f.unit < index.units.length
  /-- Every unit has the functions with which it came, and behind these its own in ascending
  order. -/
  functions : ∀ u, index.units[u]?.map (·.functions) =
    given[u]?.map fun g => g.functions ++ numbersOf u (index.functions.map (·.unit))

namespace Tables

variable {index : DebugIndex} {table : LineTable} {given : List CompileUnit}

/-- An index without entries has empty tables. -/
theorem empty (directory : String) : Tables (empty directory) [] [] where
  lists := lists_empty directory
  records := .refl _
  byAddr := .refl _
  files := rfl
  numbers _ _ := by simp [FileTable.ofTable, SortedMap.find?]
  mem_files := by simp [DebugIndex.empty]
  unit_lt := by simp [DebugIndex.empty]
  functions _ := rfl

/-- There are as many units as were given. -/
theorem length_units (h : index.Tables table given) : index.units.length = given.length := by
  -- behind the last unit of either there is none of the other
  have hle : index.units[given.length]? = none :=
    Option.map_eq_none_iff.1 ((h.functions given.length).trans (by simp))
  have hge : given[index.units.length]? = none :=
    Option.map_eq_none_iff.1 ((h.functions index.units.length).symm.trans (by simp))
  exact Nat.le_antisymm (List.getElem?_eq_none_iff.1 hle) (List.getElem?_eq_none_iff.1 hge)

/-- The tables of the rows do not depend on units, functions, types and ranges. -/
theorem of_units (h : index.Tables table given) {units : List CompileUnit}
    {functions : List FunctionEntry} {types : List (UInt64 × TypeEntry)}
    {sequences : List (Addr × Addr)} {given' : List CompileUnit}
    (hunit : ∀ f ∈ functions, f.unit < units.length)
    (hfunctions : ∀ u, units[u]?.map (·.functions) =
      given'[u]?.map fun g => g.functions ++ numbersOf u (functions.map (·.unit))) :
    Tables { index with units, functions, types, sequences } table given' where
  lists := ⟨h.lists.rows, h.lists.numbered, h.lists.descending, h.lists.scan_eq, h.lists.ascending,
    h.lists.ascending_lines, h.lists.known, h.lists.records⟩
  records := h.records
  byAddr := h.byAddr
  files := h.files
  numbers := h.numbers
  mem_files := h.mem_files
  unit_lt := hunit
  functions := hfunctions

/-- One more unit is put behind the others. -/
theorem addUnit (h : index.Tables table given) (unit : CompileUnit) :
    (index.addUnit unit).Tables table (given ++ [unit]) := by
  refine h.of_units (fun f hf => (h.unit_lt f hf).trans_le ?_) fun u => ?_
  · rw [List.length_append]
    exact Nat.le_add_right _ _
  · rcases Nat.lt_trichotomy u index.units.length with hlt | heq | hgt
    · rw [List.getElem?_append_left hlt, List.getElem?_append_left (h.length_units ▸ hlt)]
      exact h.functions u
    -- no function belongs to the new unit
    · have hnone : numbersOf u (index.functions.map (·.unit)) = [] := by
        refine List.filter_eq_nil_iff.2 fun i _ => ?_
        rw [decide_eq_true_eq]
        intro hi
        obtain ⟨f, hf, hunit⟩ := List.mem_map.1 (List.mem_of_getElem? hi)
        exact absurd (h.unit_lt f hf) (by omega)
      rw [hnone, heq, List.getElem?_concat_length, h.length_units, List.getElem?_concat_length]
      simp
    · rw [List.getElem?_eq_none (by rw [List.length_append]; exact hgt),
        List.getElem?_eq_none (by rw [List.length_append, ← h.length_units]; exact hgt)]
      rfl

/-- A function is put behind the others and in the list of its unit. -/
theorem addFunction? (h : index.Tables table given) {f : FunctionEntry} {index' : DebugIndex}
    (hcall : index.addFunction? f = some index') : index'.Tables table given := by
  unfold DebugIndex.addFunction? at hcall
  split at hcall
  · rename_i hlt
    cases hcall
    refine h.of_units (fun g hg => ?_) fun u => ?_
    · rw [List.length_modify]
      rcases List.mem_append.1 hg with hg | hg
      · exact h.unit_lt g hg
      · exact List.mem_singleton.1 hg ▸ hlt
    · rw [List.map_append, List.map_singleton, numbersOf_concat, List.length_map,
        List.getElem?_modify]
      have hold := h.functions u
      rcases hgiven : given[u]? with _ | g <;> rw [hgiven] at hold
      · rw [Option.map_eq_none_iff.1 hold]
        rfl
      -- the number of the function goes behind those of its unit
      · obtain ⟨unit, hunit, hlist⟩ := Option.map_eq_some_iff.1 hold
        rw [hunit]
        by_cases hu : f.unit = u <;> simp [hu, hlist]
  · cases hcall

/-- A variable is put behind those of its function. -/
theorem addVariable? (h : index.Tables table given) {function : Nat} {v : VariableEntry}
    {index' : DebugIndex} (hcall : index.addVariable? function v = some index') :
    index'.Tables table given := by
  unfold DebugIndex.addVariable? at hcall
  split at hcall
  · cases hcall
    -- a variable is added to a function, whose unit stays as it is
    have hunits : (index.functions.modify function fun f =>
        { f with locals := f.locals ++ [v] }).map (·.unit) = index.functions.map (·.unit) := by
      refine List.ext_getElem? fun i => ?_
      rw [List.getElem?_map, List.getElem?_map, List.getElem?_modify]
      rcases index.functions[i]? with _ | f
      · rfl
      · by_cases hi : function = i <;> simp [hi]
    refine h.of_units (fun g hg => ?_) fun u => ?_
    · have hmem : g.unit ∈ index.functions.map (·.unit) := hunits ▸ List.mem_map_of_mem hg
      obtain ⟨f, hf, hsame⟩ := List.mem_map.1 hmem
      exact hsame ▸ h.unit_lt f hf
    · rw [hunits]
      exact h.functions u
  · cases hcall

/-- A global variable is put behind those of its unit. -/
theorem addGlobal? (h : index.Tables table given) {unit : Nat} {v : VariableEntry}
    {index' : DebugIndex} (hcall : index.addGlobal? unit v = some index') :
    index'.Tables table given := by
  unfold DebugIndex.addGlobal? at hcall
  split at hcall
  · cases hcall
    refine h.of_units (fun f hf => ?_) fun u => ?_
    · rw [List.length_modify]
      exact h.unit_lt f hf
    · rw [List.getElem?_modify, ← h.functions u]
      rcases index.units[u]? with _ | c
      · rfl
      · by_cases hu : unit = u <;> simp [hu]
  · cases hcall

/-- A row of the line table is put behind those of its line, and its file gets a number. -/
theorem addLineRecord (h : index.Tables table given) (file : String) (line : UInt64) (addr : Addr)
    (prologueEnd : Bool) :
    (index.addLineRecord file line addr prologueEnd).Tables
      (table ++ [(⟨file, line⟩, ⟨addr, prologueEnd⟩)]) given := by
  -- the files are numbered in the order in which they first come up
  have htable : FileTable.ofTable (table ++ [(⟨file, line⟩, ⟨addr, prologueEnd⟩)]) =
      ((FileTable.ofTable table).intern file).1 := by
    rw [FileTable.ofTable, List.foldl_append]
    rfl
  exact {
    lists := h.lists.addLineRecord file line addr prologueEnd
    records := (perm_allRecords_addLineRecord index file line addr prologueEnd).trans
      (h.records.append_right _)
    byAddr := (perm_insertRow _ _).trans
      ((h.byAddr.cons _).trans (List.perm_append_singleton _ _).symm)
    files := by
      show (internFile index.files file).1 = _
      rw [htable, h.files, ← h.numbers.intern_eq file]
    numbers := htable ▸ h.numbers.intern file
    mem_files := fun file' => by
      show file' ∈ (internFile index.files file).1 ↔ _
      rw [mem_internFile, h.mem_files]
      simp [or_and_right, exists_or, eq_comm]
    unit_lt := h.unit_lt
    functions := h.functions }

/-- Every call keeps the tables in step. -/
theorem apply (h : index.Tables table given) {call : IndexCall} {index' : DebugIndex}
    (hcall : call.enter? index = some index') :
    index'.Tables (table ++ [call].filterMap IndexCall.row?)
      (given ++ [call].filterMap IndexCall.unit?) := by
  -- only a row adds to the line table, and only a unit to the units
  cases call with
  | unit u =>
    cases hcall
    exact (List.append_nil table).symm ▸ h.addUnit u
  | function f =>
    exact (List.append_nil table).symm ▸ (List.append_nil given).symm ▸ h.addFunction? hcall
  | ofFunction number v =>
    exact (List.append_nil table).symm ▸ (List.append_nil given).symm ▸ h.addVariable? hcall
  | ofUnit number v =>
    exact (List.append_nil table).symm ▸ (List.append_nil given).symm ▸ h.addGlobal? hcall
  | type offset entry =>
    cases hcall
    exact (List.append_nil table).symm ▸ (List.append_nil given).symm ▸
      h.of_units h.unit_lt h.functions
  | line entry =>
    cases hcall
    cases entry with
    | record file line addr prologueEnd =>
      exact (List.append_nil given).symm ▸ h.addLineRecord file line addr prologueEnd
    | sequence first behind =>
      exact (List.append_nil table).symm ▸ (List.append_nil given).symm ▸
        h.of_units h.unit_lt h.functions

/-- The functions of the units, if the units came without any, are all functions. -/
theorem perm_functions (h : index.Tables table given) (hnone : ∀ g ∈ given, g.functions = []) :
    (index.units.flatMap (·.functions)).Perm (List.range index.functions.length) := by
  -- the functions of a unit are those with its number, so every function is in exactly one unit
  have hlist : index.units.map (·.functions) =
      (List.range index.units.length).map (numbersOf · (index.functions.map (·.unit))) := by
    refine List.ext_getElem? fun u => ?_
    rw [List.getElem?_map, h.functions u, List.getElem?_map]
    rcases hg : given[u]? with _ | g
    · rw [List.getElem?_eq_none_iff, ← h.length_units] at hg
      simp [hg]
    · have hlt := (List.getElem?_eq_some_iff.1 hg).1
      rw [List.getElem?_range (h.length_units ▸ hlt)]
      simp [hnone g (List.mem_of_getElem? hg)]
  -- and no function has a number beyond the units
  have hlt : ∀ u ∈ index.functions.map (·.unit), u < index.units.length := by
    intro u hu
    obtain ⟨f, hf, rfl⟩ := List.mem_map.1 hu
    exact h.unit_lt f hf
  have hperm := perm_flatMap_numbersOf hlt
  rwa [List.flatMap_def, ← hlist, ← List.flatMap_def, List.length_map] at hperm

/-- The line of an address is that of a row. -/
theorem exists_row_of_resolveAddress (h : index.Tables table given) {pc : Addr}
    {location : SourceLocation} (hresolve : index.resolveAddress pc = .ok location) :
    ∃ r, (location, r) ∈ table := by
  rw [h.lists.resolveAddress_eq] at hresolve
  split at hresolve
  · cases hresolve
  · split at hresolve
    · cases hresolve
    · rename_i row hscan
      cases hresolve
      obtain ⟨before, after, hrows, -⟩ := h.lists.nearest_of_scan hscan
      exact ⟨(index.named row).2, by rw [hrows]; simp⟩

/-- The line of an address has rows. -/
theorem resolveAddress_mem (h : index.Tables table given) {pc : Addr} {location : SourceLocation}
    (hresolve : index.resolveAddress pc = .ok location) :
    ∃ lines records, SortedMap.find? index.sources location.file = some lines ∧
      SortedMap.find? lines location.line = some records ∧ records ≠ [] := by
  obtain ⟨r, hr⟩ := h.exists_row_of_resolveAddress hresolve
  have hmem : r ∈ ((SortedMap.find? index.sources location.file).bind
      (SortedMap.find? · location.line)).getD [] := by
    rw [h.lists.records]
    exact List.mem_map.2 ⟨(location, r), List.mem_filter.2 ⟨hr, by simp⟩, rfl⟩
  rcases hlines : SortedMap.find? index.sources location.file with _ | lines
  · simp [hlines] at hmem
  rcases hrecords : SortedMap.find? lines location.line with _ | records
  · simp [hlines, hrecords] at hmem
  refine ⟨lines, records, rfl, hrecords, fun hnil => ?_⟩
  simp [hlines, hrecords, hnil] at hmem

end Tables

/-- After any calls the tables are in step. -/
theorem tables_ofCalls {directory : String} {calls : List IndexCall} {index : DebugIndex}
    (h : ofCalls? directory calls = some index) :
    index.Tables (calls.filterMap IndexCall.row?) (calls.filterMap IndexCall.unit?) := by
  induction calls using List.reverseRecOn generalizing index with
  | nil =>
    cases h
    exact Tables.empty directory
  | append_singleton calls last ih =>
    rw [ofCalls?, List.foldlM_append] at h
    obtain ⟨before, hbefore, hlast⟩ := Option.bind_eq_some_iff.1 h
    rw [List.foldlM_cons] at hlast
    obtain ⟨after, hcall, hafter⟩ := Option.bind_eq_some_iff.1 hlast
    cases hafter
    rw [List.filterMap_append, List.filterMap_append]
    exact (ih hbefore).apply hcall

/-- What can be relied on when something is looked up in the tables of an index. -/
structure Consistent (index : DebugIndex) (table : LineTable) (given : List CompileUnit) :
    Prop where
  /-- The rows are those of the line table, in its order. -/
  rows : index.rows.map index.named = table
  /-- By file and line there are the same rows. -/
  sources : index.allRecords.Perm (index.rows.map index.named)
  /-- By address there are the same rows, from the one that counts most on. -/
  byAddr : index.rowsByAddr.Perm index.rows ∧ Descending index.rowsByAddr
  /-- The rows of a line are in the order in which they were entered. -/
  line : ∀ file line,
    ((SortedMap.find? index.sources file).bind (SortedMap.find? · line)).getD [] =
      (table.filter (·.1 = ⟨file, line⟩)).map (·.2)
  /-- The files are those of the rows, each of them once. -/
  files : index.files.Nodup ∧ ∀ file, file ∈ index.files ↔ ∃ row ∈ table, row.1.file = file
  /-- The number kept for a file is the one under which it stands. -/
  numbers : ∀ file id,
    SortedMap.find? (FileTable.ofTable table).ids file = some id ↔ index.files[id]? = some file
  /-- The number in a row is that of a file. -/
  numbered : ∀ row, row ∈ index.rows ∨ row ∈ index.rowsByAddr → row.file < index.files.length
  /-- A unit has the functions with which it came, and behind these, in ascending order, the
  numbers of those that name it. -/
  functions : ∀ (u : Nat) (unit : CompileUnit), index.units[u]? = some unit →
    ∃ g own, given[u]? = some g ∧ unit.functions = g.functions ++ own ∧ own.Pairwise (· < ·) ∧
      ∀ i, i ∈ own ↔ ∃ f, index.functions[i]? = some f ∧ f.unit = u
  /-- If the units came without any, every function is in one of their lists, and there once. -/
  once : (∀ g ∈ given, g.functions = []) →
    (index.units.flatMap (·.functions)).Perm (List.range index.functions.length)
  /-- The line of an address has rows. -/
  resolved : ∀ pc location, index.resolveAddress pc = .ok location →
    ∃ lines records, SortedMap.find? index.sources location.file = some lines ∧
      SortedMap.find? lines location.line = some records ∧ records ≠ []
  /-- The unit of the function at an address is there. -/
  scope : ∀ pc f, index.functionContaining? pc = some f → f.unit < index.units.length

/-- After any calls, none of which names a unit or a function that is not there, the tables of an
index are consistent. -/
theorem ofCalls_consistent {directory : String} {calls : List IndexCall} {index : DebugIndex}
    (h : ofCalls? directory calls = some index) :
    index.Consistent (calls.filterMap IndexCall.row?) (calls.filterMap IndexCall.unit?) := by
  -- all parts were carried along the calls, and are only put into words here
  have htables := tables_ofCalls h
  refine {
    rows := htables.lists.rows
    sources := htables.lists.rows.symm ▸ htables.records
    byAddr := ⟨htables.byAddr, htables.lists.descending⟩
    line := htables.lists.records
    files := ⟨?_, htables.mem_files⟩
    numbers := htables.files ▸ htables.numbers
    numbered := fun row hrow => htables.lists.numbered row (hrow.elim id htables.byAddr.mem_iff.1)
    functions := fun u unit hunit => ?_
    once := htables.perm_functions
    resolved := fun _ _ => htables.resolveAddress_mem
    scope := fun pc f hf => htables.unit_lt f (List.mem_of_find?_eq_some hf) }
  · -- a file that stood in two places would have two numbers
    refine List.nodup_iff_getElem?_ne_getElem?.2 fun i j hij hj heq => ?_
    rw [htables.files] at hj heq
    have hfile := List.getElem?_eq_getElem hj
    have hi := (htables.numbers _ i).2 (heq.trans hfile)
    have hj' := (htables.numbers _ j).2 hfile
    exact absurd (Option.some.inj (hi.symm.trans hj')) (Nat.ne_of_lt hij)
  · have hlist := htables.functions u
    rw [hunit] at hlist
    obtain ⟨g, hg, hfunctions⟩ := Option.map_eq_some_iff.1 hlist.symm
    refine ⟨g, _, hg, hfunctions.symm, List.pairwise_lt_range.filter _, fun i => ?_⟩
    simp only [numbersOf, List.mem_filter, List.mem_range, decide_eq_true_eq, List.getElem?_map,
      Option.map_eq_some_iff, List.length_map, and_iff_right_iff_imp]
    rintro ⟨f, hf, -⟩
    exact (List.getElem?_eq_some_iff.1 hf).1

/-- Two units, whose functions are added in turns, with rows of two files. -/
def smallCalls : List IndexCall :=
  [.unit ⟨some "main.c", some "/src", [], []⟩, .unit ⟨some "util.c", none, [], []⟩,
    .function ⟨"main", ⟨0x1000⟩, ⟨0x1010⟩, [], 1, true, 0, []⟩,
    .line (.record "main.c" 3 ⟨0x1000⟩ false),
    .function ⟨"helper", ⟨0x1010⟩, ⟨0x1020⟩, [], 1, false, 1, []⟩,
    .line (.record "util.c" 7 ⟨0x1010⟩ true), .ofFunction 1 ⟨"n", [], none⟩,
    .function ⟨"last", ⟨0x1020⟩, ⟨0x1030⟩, [], 1, true, 0, []⟩,
    .line (.record "main.c" 3 ⟨0x1020⟩ false), .ofUnit 1 ⟨"total", [], some 0x2a⟩,
    .type 0x2a ⟨some "int", some 4⟩, .line (.sequence ⟨0x1000⟩ ⟨0x1030⟩)]

/-- The tables are consistent after the calls for two units. -/
theorem ofCalls_consistent_small : ∃ index, ofCalls? "/src" smallCalls = some index ∧
    index.Consistent (smallCalls.filterMap IndexCall.row?)
      (smallCalls.filterMap IndexCall.unit?) := by
  obtain ⟨index, h⟩ := Option.isSome_iff_exists.1
    (by decide +kernel : (ofCalls? "/src" smallCalls).isSome = true)
  exact ⟨index, h, ofCalls_consistent h⟩

end SourceDebugger.DebugIndex
