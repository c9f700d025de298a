import SourceDebugger.Proofs.IndexRelocation

/-!
# The address of a breakpoint on a line

A line can have several rows. `LineRecord.Preferred` says at which of their addresses a breakpoint
on the line is to trap: at the first one that ends a prologue, and if none does at the lowest. The
null address, where a linker leaves the rows of code that it dropped, is none at which anything
could trap.

* `DebugIndex.lookupBreakpointAddress_ok_iff` and `DebugIndex.lookupBreakpointAddress_error_iff`:
  the look-up chooses among all rows of the line. It refuses the null address only afterwards, and
  only if no row ends a prologue.
* `DebugIndex.lookupBreakpointAddress_usable`: so of a line that also has rows elsewhere the right
  one of these is found if and only if the null address is not the one chosen among all rows.
-/

namespace SourceDebugger

namespace DebugIndex

/-! ### The lowest address -/

/-- There is a lowest address unless there are no rows. -/
theorem lowestAddr?_eq_none_iff {records : List LineRecord} :
    lowestAddr? records = none ↔ records = [] := by
  cases records <;> simp [lowestAddr?]

/-- No record has an address below the lowest one. -/
theorem le_of_lowestAddr? {records : List LineRecord} {a : Addr}
    (h : lowestAddr? records = some a) : ∀ r ∈ records, a ≤ r.addr := by
  -- going through the records, the lowest address so far only falls
  have hfold : ∀ (rest : List LineRecord) (a₀ : Addr),
      let low := rest.foldl (fun a r => if r.addr < a then r.addr else a) a₀
      low ≤ a₀ ∧ ∀ r ∈ rest, low ≤ r.addr := by
    intro rest
    induction rest with
    | nil => exact fun a₀ => ⟨UInt64.le_refl _, nofun⟩
    | cons s rest ih =>
      intro a₀
      obtain ⟨hlow, hrest⟩ := ih (if s.addr < a₀ then s.addr else a₀)
      have hstep : (if s.addr < a₀ then s.addr else a₀) ≤ a₀ ∧
          (if s.addr < a₀ then s.addr else a₀) ≤ s.addr := by
        split
        · rename_i hlt
          exact ⟨UInt64.le_of_lt hlt, UInt64.le_refl _⟩
        · rename_i hnot
          exact ⟨UInt64.le_refl _, UInt64.not_lt.1 hnot⟩
      refine ⟨UInt64.le_trans hlow hstep.1, fun r hr => ?_⟩
      rcases List.mem_cons.1 hr with rfl | hr
      · exact UInt64.le_trans hlow hstep.2
      · exact hrest r hr
  rcases records with _ | ⟨r, rest⟩
  · cases h
  · cases h
    obtain ⟨hfirst, hrest⟩ := hfold rest r.addr
    intro s hs
    rcases List.mem_cons.1 hs with rfl | hs
    · exact hfirst
    · exact hrest s hs

end DebugIndex

/-! ### The choice among rows -/

namespace LineRecord

open DebugIndex

/-- Of the addresses of some rows the one at which a breakpoint is to trap: that of the first row
that ends a prologue, and the lowest if none does. -/
inductive Preferred (rows : List LineRecord) : Addr → Prop where
  /-- A row ends a prologue, and none before it does. -/
  | marked (before after : List LineRecord) (r : LineRecord) (split : rows = before ++ r :: after)
      (mark : r.prologueEnd = true) (first : ∀ s ∈ before, s.prologueEnd = false) :
      Preferred rows r.addr
  /-- No row ends a prologue, and none has a lower address. -/
  | lowest (r : LineRecord) (mem : r ∈ rows) (unmarked : ∀ s ∈ rows, s.prologueEnd = false)
      (le : ∀ s ∈ rows, r.addr ≤ s.addr) : Preferred rows r.addr

/-- The address at which a breakpoint is to trap, if there is a row. -/
def preferred? (rows : List LineRecord) : Option Addr :=
  match rows.find? (·.prologueEnd) with
  | some r => some r.addr
  | none => lowestAddr? rows

/-- The rows that are not at the null address. -/
def usable (rows : List LineRecord) : List LineRecord := rows.filter (·.addr ≠ .null)

variable {rows : List LineRecord} {a b : Addr}

/-- The usable rows are those that are not at the null address. -/
theorem mem_usable {r : LineRecord} : r ∈ usable rows ↔ r ∈ rows ∧ r.addr ≠ .null := by
  simp [usable]

/-- The address that is chosen is the preferred one. -/
theorem preferred?_eq_some_iff : preferred? rows = some a ↔ Preferred rows a := by
  unfold preferred?
  constructor
  · intro h
    split at h
    · rename_i r hfind
      obtain ⟨hmark, before, after, hsplit, hfirst⟩ := List.find?_eq_some_iff_append.1 hfind
      cases h
      exact .marked before after r hsplit hmark fun s hs => by simpa using hfirst s hs
    · rename_i hfind
      have hunmarked : ∀ s ∈ rows, s.prologueEnd = false := by simpa using hfind
      obtain ⟨r, hr, rfl⟩ := exists_of_lowestAddr? h
      exact .lowest r hr hunmarked (le_of_lowestAddr? h)
  · intro h
    cases h with
    | marked before after r hsplit hmark hfirst =>
      have hfind : rows.find? (·.prologueEnd) = some r :=
        List.find?_eq_some_iff_append.2
          ⟨hmark, before, after, hsplit, fun s hs => by simp [hfirst s hs]⟩
      rw [hfind]
    | lowest r hr hunmarked hle =>
      have hfind : rows.find? (·.prologueEnd) = none := by simpa using hunmarked
      rw [hfind]
      rcases hlowest : lowestAddr? rows with _ | low
      · rw [lowestAddr?_eq_none_iff.1 hlowest] at hr
        cases hr
      -- two addresses, neither of which is above the other
      · obtain ⟨s, hs, rfl⟩ := exists_of_lowestAddr? hlowest
        exact congrArg some
          (Addr.ext_iff_val.2 (UInt64.le_antisymm (le_of_lowestAddr? hlowest r hr) (hle s hs)))

/-- One is chosen unless there are no rows. -/
theorem preferred?_eq_none_iff : preferred? rows = none ↔ rows = [] := by
  unfold preferred?
  split
  · rename_i r hfind
    exact ⟨nofun, fun hnil => by simp [hnil] at hfind⟩
  · exact lowestAddr?_eq_none_iff

namespace Preferred

/-- No more than one address is preferred. -/
theorem unique (ha : Preferred rows a) (hb : Preferred rows b) : a = b :=
  Option.some.inj ((preferred?_eq_some_iff.2 ha).symm.trans (preferred?_eq_some_iff.2 hb))

/-- It is the address of a row. -/
theorem exists_mem (h : Preferred rows a) : ∃ r ∈ rows, r.addr = a := by
  cases h with
  | marked before after r hsplit _ _ => exact ⟨r, by simp [hsplit], rfl⟩
  | lowest r hmem _ _ => exact ⟨r, hmem, rfl⟩

/-- Where a row ends a prologue, the choice is such a row. -/
theorem exists_marked (h : Preferred rows a) (hmarked : ∃ r ∈ rows, r.prologueEnd = true) :
    ∃ r ∈ rows, r.prologueEnd = true ∧ r.addr = a := by
  cases h with
  | marked before after r hsplit hmark _ => exact ⟨r, by simp [hsplit], hmark, rfl⟩
  | lowest r _ hunmarked _ =>
    obtain ⟨s, hs, hmark⟩ := hmarked
    exact absurd hmark (by simp [hunmarked s hs])

/-- Where none does, no row is below the choice. -/
theorem exists_lowest (h : Preferred rows a) (hunmarked : ∀ r ∈ rows, r.prologueEnd = false) :
    ∃ r ∈ rows, r.addr = a ∧ ∀ s ∈ rows, r.addr ≤ s.addr := by
  cases h with
  | marked before after r hsplit hmark _ =>
    exact absurd hmark (by simp [hunmarked r (by simp [hsplit])])
  | lowest r hr _ hle => exact ⟨r, hr, rfl, hle⟩

/-- Where every row that ends a prologue is outside some range, the choice is within it only if no
row ends one and the lowest row is within it. -/
theorem within_iff (h : Preferred rows a) {within : Addr → Bool}
    (hout : ∀ r ∈ rows, r.prologueEnd = true → within r.addr = false) :
    within a = true ↔ (∀ r ∈ rows, r.prologueEnd = false) ∧
      ∃ r ∈ rows, within r.addr = true ∧ ∀ q ∈ rows, r.addr ≤ q.addr := by
  constructor
  · intro hin
    have hunmarked : ∀ r ∈ rows, r.prologueEnd = false := by
      intro r hr
      by_contra hmark
      obtain ⟨q, hq, hqmark, rfl⟩ := h.exists_marked ⟨r, hr, by simpa using hmark⟩
      rw [hout q hq hqmark] at hin
      cases hin
    obtain ⟨q, hq, rfl, hle⟩ := h.exists_lowest hunmarked
    exact ⟨hunmarked, q, hq, hin, hle⟩
  · rintro ⟨hunmarked, r, hr, hin, hle⟩
    rw [h.unique (.lowest r hr hunmarked hle)]
    exact hin

/-- Where there is a row, an address is chosen. -/
theorem exists_of_ne_nil (h : rows ≠ []) : ∃ a, Preferred rows a := by
  rcases hchosen : preferred? rows with _ | a
  · exact absurd (preferred?_eq_none_iff.1 hchosen) h
  · exact ⟨a, preferred?_eq_some_iff.1 hchosen⟩

/-- Among usable rows the preferred address is not null. -/
theorem ne_null (h : Preferred (usable rows) a) : a ≠ .null := by
  obtain ⟨r, hr, rfl⟩ := h.exists_mem
  exact (mem_usable.1 hr).2

/-- A choice among all rows is also the one among those whose addresses have a property, if it has
it itself. -/
theorem filter (h : Preferred rows a) (p : Addr → Bool) (ha : p a = true) :
    Preferred (rows.filter (p ·.addr)) a := by
  have hmem : ∀ s ∈ rows.filter (p ·.addr), s ∈ rows := fun s hs => (List.mem_filter.1 hs).1
  cases h with
  | marked before after r hsplit hmark hfirst =>
    refine .marked (before.filter (p ·.addr)) (after.filter (p ·.addr)) r ?_ hmark fun s hs =>
      hfirst s (List.mem_filter.1 hs).1
    rw [hsplit, List.filter_append]
    exact congrArg _ (List.filter_cons_of_pos ha)
  | lowest r hr hunmarked hle =>
    exact .lowest r (List.mem_filter.2 ⟨hr, ha⟩) (fun s hs => hunmarked s (hmem s hs))
      fun s hs => hle s (hmem s hs)

/-- If the choice among all rows is not the null address, it is the same among those elsewhere. -/
theorem usable (h : Preferred rows a) (ha : a ≠ .null) : Preferred (usable rows) a :=
  h.filter (· ≠ .null) (by simpa using ha)

end Preferred

end LineRecord

/-! ### Looking up -/

namespace DebugIndex

open LineRecord

variable {index : DebugIndex} {file : String} {line : UInt64}

/-- The look-up makes the choice among all rows of the line. The null address is refused if no row
ends a prologue. -/
theorem lookupBreakpointAddress_eq (index : DebugIndex) (file : String) (line : UInt64) :
    index.lookupBreakpointAddress file line =
      match preferred? (index.recordsOf file line) with
      | some a =>
        if a.isNull && (index.recordsOf file line).all (!·.prologueEnd) then
          .error (.noSuchSourceLine file line)
        else .ok a
      | none => .error (.noSuchSourceLine file line) := by
  unfold lookupBreakpointAddress preferred?
  dsimp only
  -- a marked record is preferred, and its address may be null
  rcases hfind : (index.recordsOf file line).find? (·.prologueEnd) with _ | r
  · have hall : (index.recordsOf file line).all (!·.prologueEnd) = true := by simpa using hfind
    rcases lowestAddr? (index.recordsOf file line) with _ | low
    · simp [hfind]
    · simp [hfind, hall]
  · have hall : (index.recordsOf file line).all (!·.prologueEnd) = false := by
      simpa using ⟨r, List.mem_of_find?_eq_some hfind, List.find?_some hfind⟩
    simp [hfind, hall]

/-- An address is found if it is the one chosen among all rows, and is not null or else the end of a
prologue. -/
theorem lookupBreakpointAddress_ok_iff {a : Addr} :
    index.lookupBreakpointAddress file line = .ok a ↔
      Preferred (index.recordsOf file line) a ∧
        (a = .null → ∃ r ∈ index.recordsOf file line, r.prologueEnd = true) := by
  rw [lookupBreakpointAddress_eq, ← preferred?_eq_some_iff]
  -- the preferred address is refused in one case only
  rcases preferred? (index.recordsOf file line) with _ | b
  · simp
  dsimp only
  split
  · rename_i hrefused
    simp only [Bool.and_eq_true, Addr.isNull_iff, List.all_eq_true, Bool.not_eq_true'] at hrefused
    obtain ⟨rfl, hunmarked⟩ := hrefused
    refine ⟨nofun, fun ⟨hnull, hmarked⟩ => ?_⟩
    obtain ⟨r, hr, hmark⟩ := hmarked (Option.some.inj hnull).symm
    rw [hunmarked r hr] at hmark
    cases hmark
  · rename_i hkept
    refine ⟨fun h => ?_, fun h => congrArg _ (Option.some.inj h.1)⟩
    cases h
    refine ⟨rfl, fun hnull => ?_⟩
    simpa [Addr.isNull_iff.2 hnull] using hkept

/-- Otherwise the line has no row, or none that ends a prologue and one at the null address. -/
theorem lookupBreakpointAddress_error_iff {e : DebugError} :
    index.lookupBreakpointAddress file line = .error e ↔
      e = .noSuchSourceLine file line ∧ (index.recordsOf file line = [] ∨
        Preferred (index.recordsOf file line) .null ∧
          ∀ r ∈ index.recordsOf file line, r.prologueEnd = false) := by
  rw [lookupBreakpointAddress_eq, ← preferred?_eq_some_iff, ← preferred?_eq_none_iff]
  rcases preferred? (index.recordsOf file line) with _ | b
  · exact ⟨fun h => ⟨(Except.error.inj h).symm, .inl rfl⟩, fun h => congrArg _ h.1.symm⟩
  dsimp only
  split
  · rename_i hrefused
    simp only [Bool.and_eq_true, Addr.isNull_iff, List.all_eq_true, Bool.not_eq_true'] at hrefused
    obtain ⟨rfl, hunmarked⟩ := hrefused
    refine ⟨fun h => ?_, fun h => congrArg _ h.1.symm⟩
    cases h
    exact ⟨rfl, .inr ⟨rfl, hunmarked⟩⟩
  · rename_i hkept
    refine ⟨nofun, fun ⟨_, h⟩ => ?_⟩
    rcases h with hnone | ⟨hnull, hunmarked⟩
    · cases hnone
    · cases hnull
      exact absurd (by simpa [Addr.isNull_iff] using hunmarked) hkept

end DebugIndex

/-- The rows of a line, in the order in which they were entered. -/
def LineTable.rowsOf (table : LineTable) (file : String) (line : UInt64) : List LineRecord :=
  (table.filter (·.1 = ⟨file, line⟩)).map (·.2)

/-- The rows of a line are those in the table. -/
theorem LineTable.mem_rowsOf {table : LineTable} {file : String} {line : UInt64} {r : LineRecord} :
    r ∈ table.rowsOf file line ↔ (⟨file, line⟩, r) ∈ table := by
  simp only [rowsOf, List.mem_map, List.mem_filter, decide_eq_true_eq]
  constructor
  · rintro ⟨⟨l, r⟩, ⟨hmem, rfl⟩, rfl⟩
    exact hmem
  · intro hmem
    exact ⟨_, ⟨hmem, rfl⟩, rfl⟩

namespace DebugIndex

open LineRecord

/-- In an index after any calls, a breakpoint on a line of a file that is known traps at the address
chosen among all rows of the line. It fails if the line has no row, or if the null address is chosen
and no row ends a prologue. Of a line that also has rows elsewhere, one of these is found if and
only if the null address is not chosen. -/
theorem lookupBreakpointAddress_usable {directory : String} {calls : List IndexCall}
    {index : DebugIndex} (h : ofCalls? directory calls = some index) {file : String}
    (hfile : ∃ row ∈ calls.filterMap IndexCall.row?, row.1.file = file) (line : UInt64) :
    let rows := LineTable.rowsOf (calls.filterMap IndexCall.row?) file line
    let answer := index.lookupBreakpointAddress file line
    (∀ a, answer = .ok a ↔
      Preferred rows a ∧ (a = .null → ∃ r ∈ rows, r.prologueEnd = true)) ∧
    (∀ e, answer = .error e ↔ e = .noSuchSourceLine file line ∧
      (rows = [] ∨ Preferred rows .null ∧ ∀ r ∈ rows, r.prologueEnd = false)) ∧
    (usable rows = [] → ∀ a, answer = .ok a → a = .null) ∧
    (usable rows ≠ [] →
      ((∃ a, answer = .ok a ∧ Preferred (usable rows) a) ↔ ¬ Preferred rows .null)) := by
  intro rows answer
  have hlists := (tables_ofCalls h).lists
  -- with the file known, the records are the rows that were added for the line
  have hrows : index.recordsOf file line = rows := by
    obtain ⟨row, hrow, rfl⟩ := hfile
    exact hlists.recordsOf_eq (hlists.known row hrow)
  have hok : ∀ a, answer = .ok a ↔
      Preferred rows a ∧ (a = .null → ∃ r ∈ rows, r.prologueEnd = true) := fun a => by
    rw [← hrows]
    exact lookupBreakpointAddress_ok_iff
  refine ⟨hok, fun e => ?_, fun hnone a ha => ?_, fun hsome => ⟨?_, fun hnull => ?_⟩⟩
  · rw [← hrows]
    exact lookupBreakpointAddress_error_iff
  -- an address that is not null would be among those that can be used
  · by_contra hne
    obtain ⟨r, hr, -⟩ := (((hok a).1 ha).1.usable hne).exists_mem
    rw [hnone] at hr
    cases hr
  · rintro ⟨a, ha, husable⟩ hnull
    exact husable.ne_null (((hok a).1 ha).1.unique hnull)
  -- the preferred address is not null, so it is preferred among those that can be used too
  · have hrow : rows ≠ [] := fun hnil => hsome (by rw [hnil]; rfl)
    obtain ⟨a, ha⟩ := Preferred.exists_of_ne_nil hrow
    have hne : a ≠ .null := fun heq => hnull (heq ▸ ha)
    exact ⟨a, (hok a).2 ⟨ha, fun heq => absurd heq hne⟩, ha.usable hne⟩

/-- A line with a row of dropped code and a row elsewhere, which ends a prologue if `mark` says
so. -/
def droppedRow (mark : Bool) : List IndexCall :=
  [.line (.record "main.c" 10 .null false), .line (.record "main.c" 10 ⟨0x1000⟩ mark)]

/-- If it does, it is found. -/
theorem lookupBreakpointAddress_usable_marked :
    ∃ index, ofCalls? "" (droppedRow true) = some index ∧
      index.lookupBreakpointAddress "main.c" 10 = .ok ⟨0x1000⟩ := by
  obtain ⟨index, h⟩ := Option.isSome_iff_exists.1
    (by decide +kernel : (ofCalls? "" (droppedRow true)).isSome = true)
  refine ⟨index, h, ((lookupBreakpointAddress_usable h ⟨_, List.mem_cons_self, rfl⟩ 10).1 _).2 ?_⟩
  refine ⟨preferred?_eq_some_iff.1 (by decide +kernel), nofun⟩

/-- If not, the line has no address although it has a row that is not at the null address. -/
theorem not_lookupBreakpointAddress_usable :
    ¬ ∀ (directory : String) (calls : List IndexCall) (index : DebugIndex),
      ofCalls? directory calls = some index → ∀ (file : String) (line : UInt64),
      usable (LineTable.rowsOf (calls.filterMap IndexCall.row?) file line) ≠ [] →
      ∃ a, index.lookupBreakpointAddress file line = .ok a ∧
        Preferred (usable (LineTable.rowsOf (calls.filterMap IndexCall.row?) file line)) a := by
  intro h
  obtain ⟨index, hindex⟩ := Option.isSome_iff_exists.1
    (by decide +kernel : (ofCalls? "" (droppedRow false)).isSome = true)
  obtain ⟨a, ha, -⟩ := h "" (droppedRow false) index hindex "main.c" 10 (by decide +kernel)
  have hnone : (ofCalls? "" (droppedRow false)).all
      (fun index => !(index.lookupBreakpointAddress "main.c" 10).isOk) = true := by
    decide +kernel
  rw [hindex, Option.all_some, ha] at hnone
  cases hnone

end DebugIndex

end SourceDebugger
