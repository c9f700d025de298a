import SourceDebugger.Proofs.IndexRelocation
import SourceDebugger.Proofs.UnitWalk

/-!
# Reading the debug information of a program that is moved

The debug information of a file is read for the addresses of the file, and once more for the program
that is loaded elsewhere. What is read keeps its place: `relocate_moves` for an address,
`Entry.content_moves` for an entry, `addRow_moves` for a row of a line table, `addUnit_moves` for a
unit.

* `DebugIndex.build_answers`: so both indexes give the same answers, up to what the file has at the
  null address. A line there has a breakpoint, and a function there is found by its name, only in a
  program that is moved, `DebugIndex.not_build_sameAnswers`.
-/

namespace SourceDebugger

/-- Related results may be related in a weaker way. -/
theorem Accords.imp {α β : Type} {allowed : DebugError → Prop} {R S : α → β → Prop}
    {x : Except DebugError α} {y : Except DebugError β} (h : Accords allowed R x y)
    (hRS : ∀ a b, R a b → S a b) : Accords allowed S x y := by
  rcases y with e | b
  · exact h
  · obtain ⟨a, rfl, hR⟩ := h
    exact .ok (hRS a b hR)

/-- Steps that each come from related results to related results do so together. -/
theorem Accords.foldlM {α β γ : Type} {allowed : DebugError → Prop} {R : α → β → Prop}
    {f : α → γ → Except DebugError α} {g : β → γ → Except DebugError β}
    (hstep : ∀ a b c, R a b → Accords allowed R (f a c) (g b c)) {a : α} {b : β} (hR : R a b)
    (cs : List γ) : Accords allowed R (cs.foldlM f a) (cs.foldlM g b) := by
  induction cs generalizing a b with
  | nil => exact .ok hR
  | cons c cs ih =>
    rw [List.foldlM_cons, List.foldlM_cons]
    exact (hstep a b c hR).bind fun _ _ hnext => ih hnext

namespace DebugInfo

variable {bias : Addr}

/-! ### Entries -/

/-- The failure of an address that leaves the address space once the program is moved. -/
inductive RelocationOverflow (bias : Addr) : DebugError → Prop
  /-- The address and the bias are too large together. -/
  | address (address : UInt64) : 2 ^ 64 ≤ bias.toNat + address.toNat →
    RelocationOverflow bias (.malformedDebugInfo
      s!"address {Text.Hex.marked address.toNat} + bias {bias.text} overflows")

/-- An address is moved, or it leaves the address space. -/
theorem relocate_moves (bias : Addr) (address : UInt64) :
    Accords (RelocationOverflow bias) (Addr.Moves bias) (relocate .null address)
      (relocate bias address) := by
  have haddress : (Addr.mk address).toNat = address.toNat := rfl
  have hbias : bias.val.toNat = bias.toNat := rfl
  unfold relocate
  rw [Addr.null_add?]
  rcases hsum : bias.add? address with _ | sum
  · exact .fails (.address address (Addr.add?_eq_none_iff.1 hsum))
  · have hlt := Addr.lt_of_add?_eq_some hsum
    have hsum' := Addr.toNat_add?_of_eq_some hsum
    have hfits : (Addr.mk address).Fits bias := by
      unfold Addr.Fits
      omega
    refine .ok ⟨?_, hfits⟩
    rw [← Addr.toNat_inj, Addr.toNat_add_of_lt hfits]
    omega

/-- A function has its place in the file and its place in the moved program. -/
theorem SubprogramDraft.function_moves (u : UnitContext) (bias : Addr) (d : SubprogramDraft) :
    Accords (RelocationOverflow bias) (FunctionEntry.MovesTo bias) (d.function u .null)
      (d.function u bias) := by
  unfold SubprogramDraft.function
  rcases d.low with _ | low
  · exact .ok (.unplaced rfl rfl)
  refine (Accords.refl (endOf u d.name low d.high)).bind ?_
  rintro high _ rfl
  by_cases hlt : high < low
  · simp only [if_pos hlt]
    exact .errors _ _
  simp only [if_neg hlt]
  refine (relocate_moves bias low).bind fun low₀ low' ⟨hlow, hfits⟩ => ?_
  refine (relocate_moves bias high).bind fun high₀ high' ⟨hhigh, hfits'⟩ => ?_
  subst hlow hhigh
  exact .ok (.moved hfits hfits')

/-- A function is moved with its range. -/
theorem Entry.subprogram_moves (u : UnitContext) (bias : Addr) (e : Entry) :
    Accords (RelocationOverflow bias) (FunctionEntry.MovesTo bias) (e.subprogram u .null)
      (e.subprogram u bias) := by
  unfold Entry.subprogram
  refine (Accords.refl _).bind ?_
  rintro d _ rfl
  cases e.attributes.failure with
  | none => exact d.function_moves u bias
  | some err => exact .errors _ _

/-- What an entry says in the file, and what it says in the moved program. -/
inductive EntryContent.MovesTo (bias : Addr) : EntryContent → EntryContent → Prop
  /-- Functions are moved. -/
  | function {f₀ f : FunctionEntry} : f₀.MovesTo bias f → MovesTo bias (.function f₀) (.function f)
  /-- All else stays. -/
  | same (c : EntryContent) : c.function? = none → MovesTo bias c c

/-- Only what is said of functions depends on where the program is. -/
theorem Entry.content_moves (u : UnitContext) (unitOffset : Nat) (bias : Addr) (e : Entry) :
    Accords (RelocationOverflow bias) (EntryContent.MovesTo bias) (e.content u unitOffset .null)
      (e.content u unitOffset bias) := by
  unfold Entry.content
  -- only a subprogram reads addresses, everything else is the same for every bias
  split
  · refine (Accords.refl _).bind ?_
    rintro name _ rfl
    refine (Accords.refl _).bind ?_
    rintro compDir _ rfl
    exact .ok (.same _ rfl)
  split
  · exact (e.subprogram_moves u bias).bind fun _ _ hf => .ok (.function hf)
  split
  · refine (Accords.refl _).bind ?_
    rintro v _ rfl
    cases v <;> exact .ok (.same _ rfl)
  split
  · refine (Accords.refl _).bind ?_
    rintro t _ rfl
    exact .ok (.same _ rfl)
  · exact .ok (.same _ rfl)

/-! ### Line tables -/

/-- The indexes are related, and the same sequence has started. -/
def RowsMove (bias : Addr) (inFile inProgram : DebugIndex × Option UInt64) : Prop :=
  inFile.1.MovesTo bias inProgram.1 ∧ inProgram.2 = inFile.2

/-- A row of the line table is moved, and so is the sequence that it belongs to. -/
theorem addRow_moves (u : UnitContext) (h : LineHeader) {st₀ st : DebugIndex × Option UInt64}
    (hst : RowsMove bias st₀ st) (row : ProgramRow) :
    Accords (RelocationOverflow bias) (RowsMove bias) (addRow u h .null st₀ row)
      (addRow u h bias st row) := by
  obtain ⟨index₀, start₀⟩ := st₀
  obtain ⟨index, start⟩ := st
  obtain ⟨hindex, hstart⟩ := hst
  dsimp only at hindex hstart
  subst hstart
  unfold addRow
  dsimp only
  split
  -- the end of a sequence adds its range
  · rcases start with _ | start
    · exact .ok ⟨hindex, rfl⟩
    refine (relocate_moves bias start).bind fun first₀ first ⟨hfirst, hfits⟩ => ?_
    refine (relocate_moves bias row.address).bind fun behind₀ behind ⟨hbehind, hfits'⟩ => ?_
    subst hfirst hbehind
    exact .ok ⟨hindex.addSequence hfits hfits', rfl⟩
  · rcases row.file with _ | file
    · exact .ok ⟨hindex, rfl⟩
    dsimp only
    split
    · exact .ok ⟨hindex, rfl⟩
    refine (Accords.refl _).bind ?_
    rintro path _ rfl
    refine (relocate_moves bias row.address).bind fun addr₀ addr ⟨haddr, hfits⟩ => ?_
    subst haddr
    exact .ok ⟨hindex.addLineRecord path row.line hfits row.prologueEnd, rfl⟩

/-- All rows of a line table are moved. -/
theorem addLineTable_moves (u : UnitContext) {index₀ index : DebugIndex}
    (h : index₀.MovesTo bias index) (table : LineHeader × List UInt8) :
    Accords (RelocationOverflow bias) (DebugIndex.MovesTo bias) (addLineTable u .null index₀ table)
      (addLineTable u bias index table) := by
  obtain ⟨header, program⟩ := table
  unfold addLineTable
  dsimp only
  have hstart : RowsMove bias (index₀, none) (index, none) := ⟨h, rfl⟩
  refine Accords.bind (Accords.foldlM (fun _ _ row hst => addRow_moves u header hst row) hstart _)
    fun st₀ st hst => ?_
  cases (lineRows header .start (program.length + 1) program).2 with
  | none => exact .ok hst.1
  | some e => exact .errors _ _

/-! ### Units -/

/-- The indexes are related, and the walks are at the same place. -/
structure Walk.MovesTo (bias : Addr) (inFile inProgram : Walk) : Prop where
  index : inFile.index.MovesTo bias inProgram.index
  depth : inProgram.depth = inFile.depth
  enclosing : inProgram.enclosing = inFile.enclosing

/-- What an entry adds is moved. -/
theorem Walk.add_moves {w₀ w : Walk} (h : w₀.MovesTo bias w) (unit : Nat) {c₀ c : EntryContent}
    (hc : c₀.MovesTo bias c) :
    Accords (RelocationOverflow bias) (Walk.MovesTo bias) (w₀.add unit c₀) (w.add unit c) := by
  cases hc with
  | @function f₀ f hf =>
    have hunit : { f₀ with unit }.MovesTo bias { f with unit } := by
      cases hf with
      | moved hlow hhigh => exact .moved (f := { f₀ with unit }) hlow hhigh
      | unplaced hlow hhigh => exact .unplaced hlow hhigh
    have hadd := h.index.addFunction? hunit
    unfold Walk.add
    -- the function is added on both sides or on none
    dsimp only
    generalize w₀.index.addFunction? { f₀ with unit } = next₀ at hadd ⊢
    generalize w.index.addFunction? { f with unit } = next at hadd ⊢
    cases hadd with
    | none => exact .ok h
    | some hnext =>
      refine .ok ⟨hnext, h.depth, ?_⟩
      rw [h.depth, h.enclosing, h.index.length_functions]
  -- an entry that holds no address is added as it is
  | same _ hnone =>
    cases c₀ with
    | function f => cases hnone
    | unit u => exact .errors _ _
    | other => exact .ok h
    | type offset t => exact .ok ⟨h.index.addType offset t, h.depth, h.enclosing⟩
    | namedVariable v =>
      unfold Walk.add
      rw [h.enclosing]
      refine .ok ⟨h.index.getD ?_, h.depth, rfl⟩
      rcases w₀.enclosing with _ | ⟨⟨function, _⟩, _⟩
      · exact h.index.addGlobal? unit v
      · exact h.index.addVariable? function v

/-- Each step through the entries keeps the two walks related. -/
theorem Walk.step_moves (u : UnitContext) (unitOffset unit : Nat) {w₀ w : Walk}
    (h : w₀.MovesTo bias w) (s : EntryStep) :
    Accords (RelocationOverflow bias) (Walk.MovesTo bias)
      (Walk.step u unitOffset .null unit w₀ s) (Walk.step u unitOffset bias unit w s) := by
  have hdescend : (w₀.descend s.1).MovesTo bias (w.descend s.1) := by
    refine ⟨h.index, ?_, ?_⟩
    · show w.depth + s.1 = w₀.depth + s.1
      rw [h.depth]
    · show w.enclosing.dropWhile _ = w₀.enclosing.dropWhile _
      rw [h.enclosing, h.depth]
  exact (s.2.content_moves u unitOffset bias).bind fun _ _ hc => Walk.add_moves hdescend unit hc

/-- The line table of a unit is moved, if it has one. -/
theorem UnitRoot.addLines_moves (r : UnitRoot) {index₀ index : DebugIndex}
    (h : index₀.MovesTo bias index) :
    Accords (RelocationOverflow bias) (DebugIndex.MovesTo bias) (r.addLines .null index₀)
      (r.addLines bias index) := by
  unfold addLines
  cases r.lineTable with
  | none => exact .ok h
  | some table => exact addLineTable_moves r.context h table

/-- A unit is moved with its lines and its entries. -/
theorem addUnit_moves (sections : Sections) {index₀ index : DebugIndex}
    (h : index₀.MovesTo bias index) (header : UnitHeader) :
    Accords (RelocationOverflow bias) (DebugIndex.MovesTo bias)
      (addUnit sections .null index₀ header) (addUnit sections bias index header) := by
  unfold addUnit
  refine (Accords.refl _).bind ?_
  rintro bytes _ rfl
  refine (Accords.refl _).bind ?_
  rintro abbreviations _ rfl
  split
  · exact .errors _ _
  · exact .errors _ _
  rename_i delta root steps failure _
  refine (Accords.refl _).bind ?_
  rintro ⟨context, lineTable⟩ _ rfl
  refine (root.content_moves context header.offset bias).bind fun c₀ c hc => ?_
  -- both walks start from the line tables and end with the same failure
  have hwalk : ∀ lines₀ lines : DebugIndex, lines₀.MovesTo bias lines →
      Accords (RelocationOverflow bias) (DebugIndex.MovesTo bias)
        ((steps.foldlM (Walk.step context header.offset .null index₀.units.length)
          ⟨lines₀, delta, []⟩).bind (·.ended failure))
        ((steps.foldlM (Walk.step context header.offset bias index.units.length)
          ⟨lines, delta, []⟩).bind (·.ended failure)) := by
    intro lines₀ lines hlines
    rw [h.units]
    have hstart : Walk.MovesTo bias ⟨lines₀, delta, []⟩ ⟨lines, delta, []⟩ := ⟨hlines, rfl, rfl⟩
    refine Accords.bind (Accords.foldlM (fun _ _ s hw => Walk.step_moves context header.offset
      index₀.units.length hw s) hstart steps) fun w₀ w hw => ?_
    cases failure with
    | none => exact .ok hw.index
    | some e => exact .errors _ _
  have hrest := fun unit =>
    (UnitRoot.addLines_moves ⟨context, lineTable⟩ (h.addUnit unit)).bind hwalk
  cases hc with
  | function _ => cases lineTable <;> cases failure <;> exact hrest _
  | same _ _ => cases c₀ <;> cases lineTable <;> cases failure <;> exact hrest _

/-- All units are moved, by induction on the fuel. -/
theorem addUnits_moves (sections : Sections) {index₀ index : DebugIndex}
    (h : index₀.MovesTo bias index) (fuel : Nat) (r : ByteReader) :
    Accords (RelocationOverflow bias) (DebugIndex.MovesTo bias)
      (addUnits sections .null fuel index₀ r) (addUnits sections bias fuel index r) := by
  induction fuel generalizing index₀ index r with
  | zero => exact .ok h
  | succ fuel ih =>
    rw [addUnits, addUnits]
    split
    · exact .ok h
    rcases UnitHeader.take r with ⟨e | header, r⟩
    · exact .errors _ _
    · exact (addUnit_moves sections h header).bind fun _ _ hnext => ih hnext r

end DebugInfo

namespace DebugIndex

variable {bias : Addr} {index₀ index : DebugIndex}

/-! ### Answers -/

/-- The first address of a line, and the line and the function of an address, are those for the
file, moved. -/
structure SameLookUps (bias : Addr) (index₀ index : DebugIndex) : Prop where
  lookupLineAddress : ∀ file line, index.lookupLineAddress file line =
    movedAnswer bias (fun a : Addr => a + bias.val) (index₀.lookupLineAddress file line)
  resolveAddress : ∀ pc : Addr, pc.Fits bias →
    index.resolveAddress (pc + bias.val) = movedAnswer bias id (index₀.resolveAddress pc)
  functionContaining : ∀ pc : Addr, pc.Fits bias → index.functionContaining (pc + bias.val) =
    movedAnswer bias (·.moved bias) (index₀.functionContaining pc)

/-- All answers for the moved program are those for the file, moved. Functions are asked for their
lines if they have code. -/
structure SameAnswers (bias : Addr) (index₀ index : DebugIndex) : Prop
    extends SameLookUps bias index₀ index where
  lookupBreakpointAddress : ∀ file line, index.lookupBreakpointAddress file line =
    movedAnswer bias (fun a : Addr => a + bias.val) (index₀.lookupBreakpointAddress file line)
  functionsNamed : ∀ name,
    index.functionsNamed name = (index₀.functionsNamed name).map (·.moved bias)
  functionEntry : List.Forall₂ (fun f₀ f => f₀.lowPc ≠ .null →
      index.functionEntry f = movedAnswer bias id (index₀.functionEntry f₀))
    index₀.functions index.functions

/-- The answers for the moved program are those for the file, moved, except where the null address
comes in. -/
structure SameAnswersButNull (bias : Addr) (index₀ index : DebugIndex) : Prop
    extends SameLookUps bias index₀ index where
  /-- A line at the null address of the file has a breakpoint only in a program that is moved. -/
  lookupBreakpointAddress : ∀ file line, index.lookupBreakpointAddress file line =
    if index₀.NullLine file line ∧ bias ≠ .null then .ok bias
    else movedAnswer bias (fun a : Addr => a + bias.val)
      (index₀.lookupBreakpointAddress file line)
  /-- The functions of a name are the same, besides those at the place of the null address. -/
  functionsNamed : ∀ name, (index.functionsNamed name).filter (·.lowPc ≠ bias) =
    (index₀.functionsNamed name).map (·.moved bias)
  /-- Functions are moved and have the same lines. One without code stays at the null address, and
  in a program that is moved it has no line. -/
  functionEntry : List.Forall₂ (fun f₀ f =>
      f = f₀.moved bias ∧ index.functionEntry f = movedAnswer bias id (index₀.functionEntry f₀) ∨
      f = f₀ ∧ f₀.lowPc = .null ∧ f₀.highPc = .null ∧
        (bias ≠ .null → index.functionEntry f = .error (.noLineInfo .null)))
    index₀.functions index.functions

/-- No line of the file starts at the null address, and no function of the moved program at the
place of it. -/
def AboveNull (bias : Addr) (index₀ index : DebugIndex) : Prop :=
  (∀ file line, ¬ index₀.NullLine file line) ∧ ∀ f ∈ index.functions, f.lowPc ≠ bias

/-- A moved index finds the moved addresses. -/
theorem MovesTo.sameLookUps (h : index₀.MovesTo bias index) : index₀.SameLookUps bias index where
  lookupLineAddress := h.lookupLineAddress
  resolveAddress _ := h.resolveAddress
  functionContaining _ := h.functionContaining

/-- It answers as the index of the file does, but for what is at the null address. -/
theorem MovesTo.sameAnswersButNull (h : index₀.MovesTo bias index) :
    index₀.SameAnswersButNull bias index where
  toSameLookUps := h.sameLookUps
  lookupBreakpointAddress := h.lookupBreakpointAddress
  functionsNamed := h.functionsNamed
  functionEntry := h.functions.imp fun f₀ f hf => by
    cases hf with
    | moved hlow hhigh => exact .inl ⟨rfl, h.functionEntry hlow hhigh⟩
    | unplaced hlow hhigh =>
      exact .inr ⟨rfl, hlow, hhigh, fun hbias => h.functionEntry_unplaced hbias hlow hhigh⟩

/-- If nothing in the file lies at the null address, there are no exceptions. -/
theorem MovesTo.sameAnswers (h : index₀.MovesTo bias index) (habove : index₀.AboveNull bias index) :
    index₀.SameAnswers bias index := by
  obtain ⟨hlines, hplaced⟩ := habove
  refine { h.sameLookUps with
    lookupBreakpointAddress := fun file line => ?_
    functionsNamed := fun name => ?_
    functionEntry := h.functions.imp fun f₀ f hf hne => ?_ }
  · rw [h.lookupBreakpointAddress, if_neg fun hline => hlines file line hline.1]
  · rw [← h.functionsNamed name]
    refine (List.filter_eq_self.2 fun f hf => ?_).symm
    exact decide_eq_true (hplaced f (List.mem_filter.1 hf).1)
  · cases hf with
    | moved hlow hhigh => exact h.functionEntry hlow hhigh
    | unplaced hlow _ => exact absurd hlow hne

/-- The index for the addresses of a file and the index for the moved program give the same answers,
moved, except where the null address comes in, and without exceptions if nothing in the file lies
there. There is one if there is the other, unless an address leaves the address space. -/
theorem build_answers (directory : String) (file : ObjectFile) (bias : Addr) :
    Accords (DebugInfo.RelocationOverflow bias)
      (fun index₀ index => index₀.SameAnswersButNull bias index ∧
        (index₀.AboveNull bias index → index₀.SameAnswers bias index))
      (build directory file .null) (build directory file bias) := by
  have hmoves : Accords (DebugInfo.RelocationOverflow bias) (MovesTo bias)
      (build directory file .null) (build directory file bias) := by
    refine (Accords.refl _).bind ?_
    rintro sections _ rfl
    exact DebugInfo.addUnits_moves sections (.empty bias directory) _ _
  exact hmoves.imp fun _ _ h => ⟨h.sameAnswersButNull, h.sameAnswers⟩

/-! ### A function at the null address -/

/-- A unit `u` with a line table, a function `f` at the null address and a function `g` behind
it. -/
def nullInfo : List UInt8 :=
  [0x27, 0, 0, 0, 4, 0, 0, 0, 0, 0, 8, 1, 0x75, 0, 0, 0, 0, 0,
    2, 0x66, 0, 0, 0, 0, 0, 0, 0, 0, 0, 4,
    2, 0x67, 0, 0x10, 0, 0, 0, 0, 0, 0, 0, 4, 0]

/-- Descriptions of entries: a unit with a name and a line table, and a function with a name, its
first address and its length. -/
def nullAbbreviations : List UInt8 :=
  [1, 0x11, 1, 3, 8, 0x10, 0x17, 0, 0, 2, 0x2e, 0, 3, 8, 0x11, 1, 0x12, 0x0b, 0, 0, 0]

/-- A line table with line 10 at the null address and line 29 where `g` starts. -/
def nullLines : List UInt8 :=
  [0x47, 0, 0, 0, 4, 0, 0x19, 0, 0, 0, 1, 1, 1, 0xfb, 0x0e, 0x0d, 0, 1, 1, 1, 1, 0, 0, 0, 1, 0, 0,
    1, 0, 0x75, 0, 0, 0, 0, 0,
    0, 9, 2, 0, 0, 0, 0, 0, 0, 0, 0, 3, 9, 1, 9, 4, 0, 0, 1, 1,
    0, 9, 2, 0x10, 0, 0, 0, 0, 0, 0, 0, 3, 0x13, 1, 9, 4, 0, 0, 1, 1]

/-- A section with plain contents. -/
def plainSection (name : String) (data : List UInt8) : Section := ⟨some name, 1, 0, some data⟩

/-- A file with these sections. -/
def nullFile : ObjectFile where
  layout := ⟨true, false⟩
  type := ObjectFile.dynamicType
  machine := 62
  entry := 0x10
  segments := []
  sections := [plainSection ".debug_info" nullInfo, plainSection ".debug_abbrev" nullAbbreviations,
    plainSection ".debug_line" nullLines]

/-- The function at the null address is not found in the file, but in the moved program. -/
theorem not_build_sameAnswers :
    ¬ ∀ (directory : String) (file : ObjectFile) (bias : Addr) (index₀ index : DebugIndex),
      build directory file .null = .ok index₀ → build directory file bias = .ok index →
      index₀.SameAnswers bias index := by
  intro h
  obtain ⟨index₀, hfile, hnone⟩ := DebugInfo.exists_of_map_toOption
    (by decide +kernel : (build "" nullFile .null).toOption.map (·.functionsNamed "f") = some [])
  obtain ⟨index, hprogram, hfound⟩ := DebugInfo.exists_of_map_toOption
    (by decide +kernel : (build "" nullFile ⟨0x400000⟩).toOption.map
      (fun index => (index.functionsNamed "f").map (·.lowPc)) = some [⟨0x400000⟩])
  have hsame := (h "" nullFile ⟨0x400000⟩ index₀ index hfile hprogram).functionsNamed "f"
  rw [hnone] at hsame
  rw [hsame] at hfound
  cases hfound

end DebugIndex

end SourceDebugger
