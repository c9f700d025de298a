import SourceDebugger.DebugInfo.Build
import SourceDebugger.Proofs.FrameRelocation
import SourceDebugger.Proofs.IndexTables

/-!
# The index of a program that is moved

A program that is loaded elsewhere has all addresses of its debug information moved with it.
`DebugIndex.MovesTo` relates the index for the addresses of the file to the one for the moved
program: each addition to both keeps it, `MovesTo.addLineRecord` and the like.

The answers from two such indexes are the same, moved, `MovesTo.resolveAddress` and the like. Only
the null address is not like other addresses: `MovesTo.lookupBreakpointAddress` and
`MovesTo.functionsNamed` say what that means.
-/

namespace SourceDebugger

variable {bias : Addr}

namespace Addr

/-- An address is in the address space also where the program is loaded. -/
def Fits (a bias : Addr) : Prop := a.toNat + bias.val.toNat < 2 ^ 64

/-- Moving by the same distance keeps addresses apart, also around the end of the address space. -/
theorem add_eq_add_iff {a b : Addr} (n : UInt64) : a + n = b + n ↔ a = b := by
  rw [ext_iff_val, ext_iff_val, val_add, val_add, UInt64.add_left_inj]

/-- Addresses that stay in the address space keep their order. -/
theorem Fits.le_iff {a b : Addr} (ha : a.Fits bias) (hb : b.Fits bias) :
    decide (a + bias.val ≤ b + bias.val) = decide (a ≤ b) :=
  decide_eq_decide.2 (add_le_add_iff ha hb)

/-- The same for the strict order. -/
theorem Fits.lt_iff {a b : Addr} (ha : a.Fits bias) (hb : b.Fits bias) :
    decide (a + bias.val < b + bias.val) = decide (a < b) :=
  decide_eq_decide.2 (add_lt_add_iff ha hb)

/-- An address of the file, and the one that the moved program has for it. -/
def Moves (bias inFile inProgram : Addr) : Prop :=
  inProgram = inFile + bias.val ∧ inFile.Fits bias

/-- Only one address is null. -/
theorem isNull_iff {a : Addr} : a.isNull = true ↔ a = .null := beq_iff_eq.trans ext_iff_val.symm

/-- Only a program that is not moved has something at the null address. -/
theorem Fits.add_eq_null_iff {a : Addr} (ha : a.Fits bias) :
    a + bias.val = .null ↔ a = .null ∧ bias = .null := by
  have hnull : ∀ b : Addr, b = .null ↔ b.toNat = 0 := fun b => toNat_inj.symm
  rw [hnull, hnull, hnull, toNat_add_of_lt ha]
  exact Nat.add_eq_zero_iff

/-- What is moved from the null address comes to the distance itself. -/
theorem null_add (a : Addr) : null + a.val = a := ext_iff_val.2 (UInt64.zero_add _)

/-- Only what is at the null address is moved to the bias. -/
theorem add_eq_bias_iff {a : Addr} : a + bias.val = bias ↔ a = .null := by
  have h := @add_eq_add_iff a null bias.val
  rwa [null_add] at h

end Addr

/-! ### Moved tables -/

/-- The record at its place in a moved program. -/
def LineRecord.moved (bias : Addr) (r : LineRecord) : LineRecord :=
  { r with addr := r.addr + bias.val }

/-- The row at its place in a moved program. -/
def LineRow.moved (bias : Addr) (r : LineRow) : LineRow := { r with addr := r.addr + bias.val }

/-- The lines of all files, with their records at their places in a moved program. -/
def SourceMap.moved (bias : Addr) (sources : SourceMap) : SourceMap :=
  sources.mapValues fun lines => lines.mapValues fun records => records.map (·.moved bias)

/-- The function at its place in a moved program. -/
def FunctionEntry.moved (bias : Addr) (f : FunctionEntry) : FunctionEntry :=
  { f with lowPc := f.lowPc + bias.val, highPc := f.highPc + bias.val }

/-- A function is moved with the program, or it has no code and stays. -/
inductive FunctionEntry.MovesTo (bias : Addr) (f : FunctionEntry) : FunctionEntry → Prop
  /-- It is moved. -/
  | moved : f.lowPc.Fits bias → f.highPc.Fits bias → f.MovesTo bias (f.moved bias)
  /-- It has no code. -/
  | unplaced : f.lowPc = .null → f.highPc = .null → f.MovesTo bias f

namespace FunctionEntry

/-- A moved function contains the moved addresses of those that it contained. -/
theorem contains_moved {f : FunctionEntry} (hlow : f.lowPc.Fits bias) (hhigh : f.highPc.Fits bias)
    {pc : Addr} (hpc : pc.Fits bias) : (f.moved bias).contains (pc + bias.val) = f.contains pc := by
  rw [contains, contains, moved, hlow.le_iff hpc, hpc.lt_iff hhigh]

/-- A function without code contains nothing. -/
theorem not_contains_unplaced {f : FunctionEntry} (hhigh : f.highPc = .null) (pc : Addr) :
    f.contains pc = false := by
  have hlt : ¬ pc < .null := fun h => Nat.not_lt_zero _ (UInt64.lt_iff_toNat_lt.1 h)
  rw [contains, hhigh, decide_eq_false hlt, Bool.and_false]

/-- A function stays in its unit. -/
theorem MovesTo.unit_eq {f₀ f : FunctionEntry} (h : f₀.MovesTo bias f) : f.unit = f₀.unit := by
  cases h <;> rfl

/-- A function of a name counts in the file as it does in the moved program, if there those at the
place of the null address are left out. -/
theorem named_moved {f : FunctionEntry} (hlow : f.lowPc.Fits bias) (name : String) :
    (decide ((f.moved bias).lowPc ≠ bias) && (!(f.moved bias).lowPc.isNull &&
      ((f.moved bias).name == name || (f.moved bias).displayName == name))) =
    (!f.lowPc.isNull && (f.name == name || f.displayName == name)) := by
  have hnull := Addr.isNull_iff.trans hlow.add_eq_null_iff
  show (decide (f.lowPc + bias.val ≠ bias) && (!(f.lowPc + bias.val).isNull &&
    (f.name == name || f.displayName == name))) = _
  by_cases hlow' : f.lowPc = .null
  · rw [Addr.isNull_iff.2 hlow', decide_eq_false (not_not.2 (Addr.add_eq_bias_iff.2 hlow'))]
    rfl
  · rw [Bool.eq_false_iff.2 (mt hnull.1 fun hboth => hlow' hboth.1),
      Bool.eq_false_iff.2 (mt Addr.isNull_iff.1 hlow'),
      decide_eq_true (mt Addr.add_eq_bias_iff.1 hlow')]
    rfl

end FunctionEntry

/-- What was indexed for the file, and what was indexed for the moved program. -/
structure DebugIndex.MovesTo (bias : Addr) (index₀ index : DebugIndex) : Prop where
  sources : index.sources = SourceMap.moved bias index₀.sources
  rows : index.rows = index₀.rows.map (·.moved bias)
  rowsByAddr : index.rowsByAddr = index₀.rowsByAddr.map (·.moved bias)
  sequences : index.sequences =
    index₀.sequences.map fun (first, behind) => (first + bias.val, behind + bias.val)
  functions : List.Forall₂ (FunctionEntry.MovesTo bias) index₀.functions index.functions
  units : index.units = index₀.units
  types : index.types = index₀.types
  files : index.files = index₀.files
  workingDirectory : index.workingDirectory = index₀.workingDirectory
  records_fit : ∀ e ∈ index₀.allRecords, e.2.addr.Fits bias
  rows_fit : ∀ r ∈ index₀.rowsByAddr, r.addr.Fits bias
  sequences_fit : ∀ e ∈ index₀.sequences, e.1.Fits bias ∧ e.2.Fits bias

/-- Of two rows the same one counts more in the file and in the moved program. -/
theorem LineRow.le_moved {a b : LineRow} (ha : a.addr.Fits bias) (hb : b.addr.Fits bias) :
    (a.moved bias).le (b.moved bias) = a.le b := by
  rw [Bool.eq_iff_iff, le_iff, le_iff]
  simp only [moved, Addr.add_eq_add_iff, Addr.toNat_add_of_lt ha, Addr.toNat_add_of_lt hb,
    Nat.add_lt_add_iff_right]

/-- Moved rows are inserted at the same places, since the order of addresses is kept. -/
theorem DebugIndex.insertRow_moved {row : LineRow} (hrow : row.addr.Fits bias)
    {rows : List LineRow} (hrows : ∀ r ∈ rows, r.addr.Fits bias) :
    insertRow (row.moved bias) (rows.map (·.moved bias)) =
      (insertRow row rows).map (·.moved bias) := by
  induction rows with
  | nil => rfl
  | cons r rest ih =>
    obtain ⟨hr, hrest⟩ := List.forall_mem_cons.1 hrows
    rw [List.map_cons, insertRow, insertRow, LineRow.le_moved hr hrow, ih hrest]
    split <;> rfl

namespace DebugIndex

/-! ### Records -/

/-- The lowest address of some records is moved with them. -/
theorem lowestAddr?_moved {records : List LineRecord} (h : ∀ r ∈ records, r.addr.Fits bias) :
    lowestAddr? (records.map (·.moved bias)) =
      (lowestAddr? records).map fun a : Addr => a + bias.val := by
  rcases records with _ | ⟨first, rest⟩
  · rfl
  obtain ⟨hfirst, hrest⟩ := List.forall_mem_cons.1 h
  -- both folds keep the lowest address so far, in step with each other
  have hfold : Addr.Moves bias (rest.foldl (fun a r => if r.addr < a then r.addr else a) first.addr)
      (rest.foldl (fun a r => if (r.moved bias).addr < a then (r.moved bias).addr else a)
        (first.moved bias).addr) := by
    refine List.foldl_rel ⟨rfl, hfirst⟩ fun r hr a₀ a ⟨ha, hfits⟩ => ?_
    subst ha
    have hlt : (r.moved bias).addr < a₀ + bias.val ↔ r.addr < a₀ :=
      Addr.add_lt_add_iff (hrest r hr) hfits
    by_cases hr' : r.addr < a₀
    · rw [if_pos hr', if_pos (hlt.2 hr')]
      exact ⟨rfl, hrest r hr⟩
    · rw [if_neg hr', if_neg (mt hlt.1 hr')]
      exact ⟨rfl, hfits⟩
  rw [List.map_cons, lowestAddr?, List.foldl_map, hfold.1]
  rfl

/-- The record with its line at its place in a moved program. -/
def movedEntry (bias : Addr) (e : SourceLocation × LineRecord) : SourceLocation × LineRecord :=
  (e.1, e.2.moved bias)

/-- A record of the file, and the one that the moved program has for it. -/
def EntryMoves (bias : Addr) (inFile inProgram : SourceLocation × LineRecord) : Prop :=
  inProgram = movedEntry bias inFile ∧ inFile.2.addr.Fits bias

/-- The record with the lowest address is the same. -/
theorem lowestRecord?_moved {records : List (SourceLocation × LineRecord)}
    (h : ∀ e ∈ records, e.2.addr.Fits bias) :
    lowestRecord? (records.map (movedEntry bias)) =
      (lowestRecord? records).map (movedEntry bias) := by
  rcases records with _ | ⟨first, rest⟩
  · rfl
  obtain ⟨hfirst, hrest⟩ := List.forall_mem_cons.1 h
  -- as for the addresses, now with the entries that carry them
  have hfold : EntryMoves bias (rest.foldl (fun m e => if e.2.addr < m.2.addr then e else m) first)
      (rest.foldl
        (fun m e => if (movedEntry bias e).2.addr < m.2.addr then movedEntry bias e else m)
        (movedEntry bias first)) := by
    -- a comparison comes out the same on both sides, since nothing overflows
    refine List.foldl_rel ⟨rfl, hfirst⟩ fun e he m₀ m ⟨hm, hfits⟩ => ?_
    subst hm
    have hlt : (movedEntry bias e).2.addr < (movedEntry bias m₀).2.addr ↔ e.2.addr < m₀.2.addr :=
      Addr.add_lt_add_iff (hrest e he) hfits
    by_cases he' : e.2.addr < m₀.2.addr
    · rw [if_pos he', if_pos (hlt.2 he')]
      exact ⟨rfl, hrest e he⟩
    · rw [if_neg he', if_neg (mt hlt.1 he')]
      exact ⟨rfl, hfits⟩
  rw [List.map_cons, lowestRecord?, List.foldl_map, hfold.1]
  rfl

/-- The records of a line are records of the table. -/
theorem mem_allRecords_of_mem_recordsOf {index : DebugIndex} {file : String} {line : UInt64}
    {r : LineRecord} (hr : r ∈ index.recordsOf file line) :
    ∃ known, (⟨known, line⟩, r) ∈ index.allRecords := by
  unfold recordsOf at hr
  split at hr
  · cases hr
  split at hr
  · cases hr
  rename_i known _ _ lines hlines
  rcases hrecords : SortedMap.find? lines line with _ | records
  · simp [hrecords] at hr
  rw [hrecords, Option.getD_some] at hr
  refine ⟨known, List.mem_flatMap.2 ⟨_, SortedMap.mem_of_find? hlines, ?_⟩⟩
  exact List.mem_flatMap.2 ⟨_, SortedMap.mem_of_find? hrecords, List.mem_map_of_mem hr⟩

/-- The records that end a prologue in a function. -/
def prologueRecords (index : DebugIndex) (f : FunctionEntry) : List (SourceLocation × LineRecord) :=
  index.allRecords.filter fun e => e.2.prologueEnd && f.contains e.2.addr

/-- A breakpoint for a function belongs to the line of the lowest of them, if there is one. -/
theorem functionEntry_eq (index : DebugIndex) (f : FunctionEntry) :
    index.functionEntry f =
      (lowestRecord? (index.prologueRecords f)).elim (index.resolveAddress f.lowPc)
        (.ok ·.1) := by
  unfold functionEntry
  split
  · rename_i hlowest
    have hlowest' : lowestRecord? (index.prologueRecords f) = some _ := hlowest
    rw [hlowest']
    rfl
  · rename_i hlowest
    have hlowest' : lowestRecord? (index.prologueRecords f) = none := hlowest
    rw [hlowest']
    rfl

end DebugIndex

/-! ### Answers -/

/-- The failure for an address, at its place in a moved program. -/
def DebugError.moved (bias : Addr) : DebugError → DebugError
  | .noSuchFunction pc => .noSuchFunction (pc + bias.val)
  | .noLineInfo pc => .noLineInfo (pc + bias.val)
  | e => e

/-- An answer for the file, as it is for the moved program. -/
def movedAnswer {α : Type} (bias : Addr) (move : α → α) (answer : Except DebugError α) :
    Except DebugError α :=
  match answer with
  | .ok a => .ok (move a)
  | .error e => .error (e.moved bias)

/-- A line without a marked row whose lowest row is at the null address. -/
def DebugIndex.NullLine (index : DebugIndex) (file : String) (line : UInt64) : Prop :=
  (index.recordsOf file line).find? (·.prologueEnd) = none ∧
    lowestAddr? (index.recordsOf file line) = some .null

instance (index : DebugIndex) (file : String) (line : UInt64) :
    Decidable (index.NullLine file line) :=
  inferInstanceAs (Decidable (_ ∧ _))

/-- Changing the entries of two lists at the same place keeps them related. -/
theorem forall₂_modify {α β : Type} {R : α → β → Prop} {xs : List α} {ys : List β}
    (h : List.Forall₂ R xs ys) {f : α → α} {g : β → β} (hfg : ∀ x y, R x y → R (f x) (g y))
    (n : Nat) : List.Forall₂ R (xs.modify n f) (ys.modify n g) := by
  induction h generalizing n with
  | nil => simp
  | cons hxy hrest ih =>
    cases n with
    | zero => exact .cons (hfg _ _ hxy) hrest
    | succ n => exact .cons hxy (ih n)

namespace DebugIndex.MovesTo

variable {index₀ index : DebugIndex}

/-- There are as many functions in the moved program. -/
theorem length_functions (h : index₀.MovesTo bias index) :
    index₀.functions.length = index.functions.length :=
  h.functions.length_eq

/-- Files are found under the same paths. -/
theorem resolveFile? (h : index₀.MovesTo bias index) (file : String) :
    index.resolveFile? file = index₀.resolveFile? file := by
  have hkeys : SortedMap.keys index.sources = SortedMap.keys index₀.sources := by
    rw [h.sources]
    exact SortedMap.keys_mapValues _ _
  simp only [DebugIndex.resolveFile?, hkeys, h.workingDirectory]

/-- The records of a line are moved, and stand in the same order. -/
theorem recordsOf (h : index₀.MovesTo bias index) (file : String) (line : UInt64) :
    index.recordsOf file line = (index₀.recordsOf file line).map (·.moved bias) := by
  unfold DebugIndex.recordsOf
  rw [h.resolveFile?, h.sources]
  rcases index₀.resolveFile? file with _ | known
  · rfl
  dsimp only
  rw [SourceMap.moved, SortedMap.find?_mapValues]
  rcases SortedMap.find? index₀.sources known with _ | lines
  · rfl
  · rw [Option.map_some]
    dsimp only
    rw [SortedMap.find?_mapValues]
    cases SortedMap.find? lines line <;> rfl

/-- All rows of a line stay in the address space. -/
theorem fits_of_mem_recordsOf (h : index₀.MovesTo bias index) (file : String) (line : UInt64) :
    ∀ r ∈ index₀.recordsOf file line, r.addr.Fits bias := by
  intro r hr
  obtain ⟨known, hmem⟩ := mem_allRecords_of_mem_recordsOf hr
  exact h.records_fit _ hmem

/-- The address of a line is found in the moved program as the moved one, or it fails alike. -/
theorem lookupLineAddress (h : index₀.MovesTo bias index) (file : String) (line : UInt64) :
    index.lookupLineAddress file line =
      movedAnswer bias (fun a : Addr => a + bias.val) (index₀.lookupLineAddress file line) := by
  unfold DebugIndex.lookupLineAddress
  rw [h.recordsOf]
  cases index₀.recordsOf file line <;> rfl

/-- A breakpoint on a line traps at the same place, or, in a program that is moved, at the place of
the null address if the line is there. -/
theorem lookupBreakpointAddress (h : index₀.MovesTo bias index) (file : String) (line : UInt64) :
    index.lookupBreakpointAddress file line =
      if index₀.NullLine file line ∧ bias ≠ .null then .ok bias
      else movedAnswer bias (fun a : Addr => a + bias.val)
        (index₀.lookupBreakpointAddress file line) := by
  have hfits := h.fits_of_mem_recordsOf file line
  have hmark : ((index₀.recordsOf file line).map (·.moved bias)).find? (·.prologueEnd) =
      ((index₀.recordsOf file line).find? (·.prologueEnd)).map (·.moved bias) := by
    rw [List.find?_map]
    rfl
  unfold DebugIndex.lookupBreakpointAddress
  dsimp only
  rw [h.recordsOf, lowestAddr?_moved hfits, hmark]
  rcases hfind : (index₀.recordsOf file line).find? (·.prologueEnd) with _ | r
  · rcases hlowest : lowestAddr? (index₀.recordsOf file line) with _ | a
    · rw [hfind, if_neg fun hline => by simp [NullLine, hlowest] at hline]
      rfl
    obtain ⟨r, hr, rfl⟩ := exists_of_lowestAddr? hlowest
    have hnull := Addr.isNull_iff.trans (hfits r hr).add_eq_null_iff
    simp only [hfind, Option.map_none, Option.map_some]
    by_cases hline : index₀.NullLine file line ∧ bias ≠ .null
    -- the null address of the file is not that of the program
    · have hr' : r.addr = .null := Option.some.inj (hlowest.symm.trans hline.1.2)
      rw [if_pos hline, if_neg (mt hnull.1 fun hboth => hline.2 hboth.2), hr', Addr.null_add]
    · rw [if_neg hline]
      by_cases haddr : r.addr = .null
      -- and without a bias the null address is refused in both
      · have hbias : bias = .null := by
          by_contra hbias
          exact hline ⟨⟨hfind, haddr ▸ hlowest⟩, hbias⟩
        rw [if_pos (hnull.2 ⟨haddr, hbias⟩), haddr]
        rfl
      · rw [if_neg (mt hnull.1 fun hboth => haddr hboth.1), if_neg (mt Addr.isNull_iff.1 haddr)]
        rfl
  · rw [hfind, if_neg fun hline => by simp [NullLine, hfind] at hline]
    rfl

/-- An address belongs to the same line. -/
theorem resolveAddress (h : index₀.MovesTo bias index) {pc : Addr} (hpc : pc.Fits bias) :
    index.resolveAddress (pc + bias.val) = movedAnswer bias id (index₀.resolveAddress pc) := by
  have hempty : index.sequences.isEmpty = index₀.sequences.isEmpty := by
    rw [h.sequences]
    cases index₀.sequences <;> rfl
  -- the ranges of the sequences move with their addresses, so the same one covers the address
  have hcovered : index.sequences.any (fun (s, e) => s ≤ pc + bias.val && pc + bias.val < e) =
      index₀.sequences.any fun (s, e) => s ≤ pc && pc < e := by
    rw [h.sequences, List.any_map, Bool.eq_iff_iff, List.any_eq_true, List.any_eq_true]
    refine exists_congr fun e => and_congr_right fun he => ?_
    obtain ⟨hfirst, hbehind⟩ := h.sequences_fit e he
    show (decide (e.1 + bias.val ≤ pc + bias.val) && decide (pc + bias.val < e.2 + bias.val)) =
      true ↔ (decide (e.1 ≤ pc) && decide (pc < e.2)) = true
    rw [hfirst.le_iff hpc, hpc.lt_iff hbehind]
  -- the row order is kept, hence the first row at or below the address is the moved one
  have hrow : index.rowsByAddr.find? (·.addr ≤ pc + bias.val) =
      (index₀.rowsByAddr.find? (·.addr ≤ pc)).map (·.moved bias) := by
    rw [h.rowsByAddr, List.find?_map]
    exact congrArg _ (List.find?_congr fun r hr => (h.rows_fit r hr).le_iff hpc)
  unfold DebugIndex.resolveAddress
  rw [hempty, hcovered, hrow, h.files]
  split
  · rfl
  · cases index₀.rowsByAddr.find? (·.addr ≤ pc) <;> rfl

/-- The record of each place is moved. -/
theorem allRecords (h : index₀.MovesTo bias index) :
    index.allRecords = index₀.allRecords.map (movedEntry bias) := by
  simp only [DebugIndex.allRecords, h.sources, SourceMap.moved, SortedMap.mapValues,
    List.flatMap_map, List.map_flatMap, List.map_map]
  rfl

/-- A breakpoint for a function belongs to the same line. -/
theorem functionEntry (h : index₀.MovesTo bias index) {f : FunctionEntry} (hlow : f.lowPc.Fits bias)
    (hhigh : f.highPc.Fits bias) :
    index.functionEntry (f.moved bias) = movedAnswer bias id (index₀.functionEntry f) := by
  have hinside : index.prologueRecords (f.moved bias) =
      (index₀.prologueRecords f).map (movedEntry bias) := by
    rw [prologueRecords, h.allRecords, List.filter_map]
    refine congrArg _ (List.filter_congr fun e he => ?_)
    exact congrArg (e.2.prologueEnd && ·)
      (FunctionEntry.contains_moved hlow hhigh (h.records_fit e he))
  have hfits : ∀ e ∈ index₀.prologueRecords f, e.2.addr.Fits bias := fun e he =>
    h.records_fit e (List.mem_filter.1 he).1
  rw [functionEntry_eq, functionEntry_eq, hinside, lowestRecord?_moved hfits]
  rcases lowestRecord? (index₀.prologueRecords f) with _ | e
  · exact h.resolveAddress hlow
  · rfl

/-- In a program that is moved, a function without code belongs to no line. -/
theorem functionEntry_unplaced (h : index₀.MovesTo bias index) (hbias : bias ≠ .null)
    {f : FunctionEntry} (hlow : f.lowPc = .null) (hhigh : f.highPc = .null) :
    index.functionEntry f = .error (.noLineInfo .null) := by
  have hinside : index.prologueRecords f = [] := by
    refine List.filter_eq_nil_iff.2 fun e _ => ?_
    rw [FunctionEntry.not_contains_unplaced hhigh, Bool.and_false]
    exact Bool.false_ne_true
  -- a row at address 0 would have come from a row at 0, and then the bias is 0 as well
  have hrow : index.rowsByAddr.find? (·.addr ≤ .null) = none := by
    rw [h.rowsByAddr, List.find?_eq_none]
    intro r hr hle
    obtain ⟨r₀, hr₀, rfl⟩ := List.mem_map.1 hr
    have hzero : r₀.addr + bias.val = .null :=
      Addr.toNat_inj.1 (Nat.le_zero.1 (UInt64.le_iff_toNat_le.1 (of_decide_eq_true hle)))
    exact hbias ((h.rows_fit r₀ hr₀).add_eq_null_iff.1 hzero).2
  rw [functionEntry_eq, hinside, hlow]
  show index.resolveAddress .null = _
  rw [DebugIndex.resolveAddress, hrow]
  split <;> rfl

/-- The function at an address is the same. -/
theorem functionContaining? (h : index₀.MovesTo bias index) {pc : Addr} (hpc : pc.Fits bias) :
    index.functionContaining? (pc + bias.val) =
      (index₀.functionContaining? pc).map (·.moved bias) := by
  unfold DebugIndex.functionContaining?
  have hfunctions := h.functions
  generalize index₀.functions = fs₀ at hfunctions ⊢
  generalize index.functions = fs at hfunctions ⊢
  -- pairwise along the functions; one without a place in the file contains no address at all
  induction hfunctions with
  | nil => rfl
  | @cons f₀ f _ _ hf _ ih =>
    rw [List.find?_cons, List.find?_cons]
    cases hf with
    | moved hlow hhigh =>
      rw [FunctionEntry.contains_moved hlow hhigh hpc]
      split
      · rfl
      · exact ih
    | unplaced hlow hhigh =>
      rw [FunctionEntry.not_contains_unplaced hhigh, FunctionEntry.not_contains_unplaced hhigh]
      exact ih

/-- The function that contains an address is found in the moved program as the moved one, or it
fails alike. -/
theorem functionContaining (h : index₀.MovesTo bias index) {pc : Addr} (hpc : pc.Fits bias) :
    index.functionContaining (pc + bias.val) =
      movedAnswer bias (·.moved bias) (index₀.functionContaining pc) := by
  unfold DebugIndex.functionContaining
  rw [h.functionContaining? hpc]
  cases index₀.functionContaining? pc <;> rfl

/-- The functions of a name are the same, except that in a program that is moved those at the place
of the null address count as well. -/
theorem functionsNamed (h : index₀.MovesTo bias index) (name : String) :
    (index.functionsNamed name).filter (·.lowPc ≠ bias) =
      (index₀.functionsNamed name).map (·.moved bias) := by
  unfold DebugIndex.functionsNamed
  rw [List.filter_filter]
  have hfunctions := h.functions
  generalize index₀.functions = fs₀ at hfunctions ⊢
  generalize index.functions = fs at hfunctions ⊢
  -- pairwise along the functions; what lies at the bias itself is what the filter takes out
  induction hfunctions with
  | nil => rfl
  | @cons f₀ f _ _ hf _ ih =>
    rw [List.filter_cons, List.filter_cons, ih]
    cases hf with
    | moved hlow hhigh =>
      have hkept := FunctionEntry.named_moved hlow name
      rw [hkept]
      split <;> rfl
    | unplaced hlow hhigh =>
      simp [Addr.isNull_iff.2 hlow]

/-! ### Filling -/

/-- Without entries there is nothing to be moved. -/
theorem empty (bias : Addr) (directory : String) :
    (DebugIndex.empty directory).MovesTo bias (DebugIndex.empty directory) where
  sources := rfl
  rows := rfl
  rowsByAddr := rfl
  sequences := rfl
  functions := .nil
  units := rfl
  types := rfl
  files := rfl
  workingDirectory := rfl
  records_fit := by simp [DebugIndex.allRecords, DebugIndex.empty]
  rows_fit := by simp [DebugIndex.empty]
  sequences_fit := by simp [DebugIndex.empty]

/-- A row of the line table is added to both indexes. -/
theorem addLineRecord (h : index₀.MovesTo bias index) (file : String) (line : UInt64) {addr : Addr}
    (hfits : addr.Fits bias) (prologueEnd : Bool) :
    (index₀.addLineRecord file line addr prologueEnd).MovesTo bias
      (index.addLineRecord file line (addr + bias.val) prologueEnd) := by
  have hrow : ∀ id, (⟨addr + bias.val, id, line, prologueEnd⟩ : LineRow) =
    LineRow.moved bias ⟨addr, id, line, prologueEnd⟩ := fun _ => rfl
  -- the recorded lines are nested maps, and the addition goes through both levels
  have hlines : ∀ lines : SortedMap UInt64 (List LineRecord),
      SortedMap.update (lines.mapValues fun records => records.map (·.moved bias)) line []
        (· ++ [⟨addr + bias.val, prologueEnd⟩]) =
      SortedMap.mapValues (fun records => records.map (·.moved bias))
        (SortedMap.update lines line [] (· ++ [⟨addr, prologueEnd⟩])) := fun lines =>
    SortedMap.update_mapValues _ (fun records => by rw [List.map_append]; rfl) lines line []
  refine { h with
    sources := ?_, rows := ?_, rowsByAddr := ?_, files := ?_, records_fit := ?_, rows_fit := ?_ }
  · show SortedMap.update index.sources _ _ _ = _
    rw [h.sources]
    exact SortedMap.update_mapValues _ hlines index₀.sources file []
  · show index.rows ++ [_] = (index₀.rows ++ [_]).map _
    rw [h.rows, h.files, List.map_append]
    rfl
  · show insertRow _ index.rowsByAddr = _
    rw [h.rowsByAddr, h.files, hrow]
    exact insertRow_moved hfits h.rows_fit
  · show (internFile index.files file).1 = _
    rw [h.files]
    rfl
  -- the new record fits by assumption, the others did before
  · intro e he
    have he := (perm_allRecords_addLineRecord index₀ file line addr prologueEnd).mem_iff.1 he
    rcases List.mem_append.1 he with he | he
    · exact h.records_fit e he
    · exact List.mem_singleton.1 he ▸ hfits
  · intro r hr
    rcases List.mem_cons.1 ((perm_insertRow _ _).mem_iff.1 hr) with rfl | hr
    · exact hfits
    · exact h.rows_fit r hr

/-- The range of a sequence is added to both indexes. -/
theorem addSequence (h : index₀.MovesTo bias index) {first behind : Addr}
    (hfirst : first.Fits bias) (hbehind : behind.Fits bias) :
    (index₀.addSequence first behind).MovesTo bias
      (index.addSequence (first + bias.val) (behind + bias.val)) := by
  refine { h with sequences := ?_, sequences_fit := fun e he => ?_ }
  · show index.sequences ++ [_] = (index₀.sequences ++ [_]).map _
    rw [h.sequences, List.map_append]
    rfl
  · rcases List.mem_append.1 he with he | he
    · exact h.sequences_fit e he
    · exact List.mem_singleton.1 he ▸ ⟨hfirst, hbehind⟩

/-- Units have no addresses. -/
theorem addUnit (h : index₀.MovesTo bias index) (unit : CompileUnit) :
    (index₀.addUnit unit).MovesTo bias (index.addUnit unit) :=
  { h with units := congrArg (· ++ [unit]) h.units }

/-- Types have no addresses. -/
theorem addType (h : index₀.MovesTo bias index) (offset : UInt64) (entry : TypeEntry) :
    (index₀.addType offset entry).MovesTo bias (index.addType offset entry) :=
  { h with types := congrArg ((offset, entry) :: ·) h.types }

/-- A function is added to both indexes or to none. -/
theorem addFunction? (h : index₀.MovesTo bias index) {f₀ f : FunctionEntry}
    (hf : f₀.MovesTo bias f) :
    Option.Rel (MovesTo bias) (index₀.addFunction? f₀) (index.addFunction? f) := by
  unfold DebugIndex.addFunction?
  rw [hf.unit_eq, h.units, h.length_functions]
  split
  · exact .some { h with
      units := rfl, functions := List.rel_append h.functions (.cons hf .nil) }
  · exact .none

/-- A variable of a function is added to both indexes, or to none. -/
theorem addVariable? (h : index₀.MovesTo bias index) (function : Nat) (v : VariableEntry) :
    Option.Rel (MovesTo bias) (index₀.addVariable? function v) (index.addVariable? function v) := by
  unfold DebugIndex.addVariable?
  rw [h.length_functions]
  split
  · refine .some { h with functions := forall₂_modify h.functions ?_ function }
    rintro f₀ _ (⟨hlow, hhigh⟩ | ⟨hlow, hhigh⟩)
    · exact .moved (f := { f₀ with locals := f₀.locals ++ [v] }) hlow hhigh
    · exact .unplaced hlow hhigh
  · exact .none

/-- A global variable of a unit is added to both indexes, or to none. -/
theorem addGlobal? (h : index₀.MovesTo bias index) (unit : Nat) (v : VariableEntry) :
    Option.Rel (MovesTo bias) (index₀.addGlobal? unit v) (index.addGlobal? unit v) := by
  unfold DebugIndex.addGlobal?
  rw [h.units]
  split
  · exact .some { h with units := rfl }
  · exact .none

/-- What is added to both or to none. -/
theorem getD (h : index₀.MovesTo bias index) {next₀ next : Option DebugIndex}
    (hnext : Option.Rel (MovesTo bias) next₀ next) :
    (next₀.getD index₀).MovesTo bias (next.getD index) := by
  cases hnext with
  | some hnext => exact hnext
  | none => exact h

end DebugIndex.MovesTo

end SourceDebugger
