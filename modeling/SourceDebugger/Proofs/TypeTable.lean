import SourceDebugger.Proofs.EntryOffsets
import SourceDebugger.Proofs.UnitWalk

/-!
# The table of types

The index looks types up by the offset of their entry.

* `DebugInfo.unitsFrom_offsets`: the entries of all units start one behind the other.
* `DebugIndex.typeAt?_of_build`: what is looked up at the offset of an entry is what this entry
  says.
-/

namespace SourceDebugger.DebugInfo

open ByteReader

variable {sections : Sections} {bias : Addr}

/-! ### Units -/

/-- A unit whose entries can all be read. -/
structure UnitEntries where
  /-- What precedes the entries. -/
  header : UnitHeader
  /-- What the first entry says about the whole unit. -/
  root : UnitRoot
  /-- The entries below the first one, in their order. -/
  entries : List Entry

namespace UnitEntries

/-- What an entry of the unit says. -/
def content (u : UnitEntries) (bias : Addr) (e : Entry) : Except DebugError EntryContent :=
  e.content u.root.context u.header.offset bias

/-- The types of the unit by the places of their entries, if what the entries say can be read. -/
def types (u : UnitEntries) (bias : Addr) : List (UInt64 × TypeEntry) :=
  u.entries.filterMap fun e => (e.said u.root.context u.header.offset bias).type?

end UnitEntries

/-- The entries of a unit. -/
def readUnit (sections : Sections) (h : UnitHeader) : Except DebugError UnitEntries := do
  let abbreviations ← Abbreviation.readAll
    (← Sections.bytesFrom sections.abbreviations h.abbreviationOffset)
  match h.steps abbreviations with
  | ((_, root) :: steps, none) =>
    return ⟨h, ← UnitRoot.ofEntry sections h.encoding root, steps.map (·.2)⟩
  | (_, some e) => throw e
  | ([], none) => throw (.debugFormat "unit without entries")

/-- The units in the rest of the section of entries, as far as they can be read. -/
def unitsFrom (sections : Sections) : Nat → ByteReader → List UnitEntries
  | 0, _ => []
  | fuel + 1, r =>
    if r.isEmpty then []
    else
      match UnitHeader.take r with
      | (.error _, _) => []
      | (.ok h, r) =>
        match readUnit sections h with
        | .error _ => []
        | .ok u => u :: unitsFrom sections fuel r

/-- The units of the debug information. -/
def unitsOf (sections : Sections) : List UnitEntries :=
  unitsFrom sections (sections.info.size + 1) (ByteReader.ofList sections.info.toList)

/-- The entries of a unit start in its bytes, one behind the other. -/
theorem readUnit_offsets {h : UnitHeader} {u : UnitEntries} (hread : readUnit sections h = .ok u) :
    u.header = h ∧ AscendsIn (u.entries.map (·.offset)) (h.offset + h.size)
      (h.offset + h.size + h.entries.length) := by
  unfold readUnit at hread
  obtain ⟨bytes, -, hread⟩ := bind_eq_ok.1 hread
  obtain ⟨abbreviations, -, hread⟩ := bind_eq_ok.1 hread
  -- the entries ascend from the start of the unit, and the root is the first
  have hoffsets := entriesFrom_offsets h abbreviations (h.entries.length + 1) 0
    (ByteReader.ofList h.entries)
  split at hread
  · rename_i delta root steps hsteps
    obtain ⟨r, -, hread⟩ := bind_eq_ok.1 hread
    cases hread
    rw [UnitHeader.steps] at hsteps
    rw [hsteps, List.map_cons, ofList, Nat.add_zero, Nat.zero_add] at hoffsets
    refine ⟨rfl, ?_⟩
    rw [List.map_map]
    exact hoffsets.of_cons
  · cases hread
  · cases hread

/-- The entries of all units start one behind the other. -/
theorem unitsFrom_offsets (sections : Sections) (fuel : Nat) (r : ByteReader) :
    AscendsIn ((unitsFrom sections fuel r).flatMap fun u => u.entries.map (·.offset)) r.position
      (r.position + r.rest.length) := by
  -- along the units: each takes up the bytes behind the one before
  induction fuel generalizing r with
  | zero => exact .nil _ _
  | succ fuel ih =>
    rw [unitsFrom]
    split
    · exact .nil _ _
    rcases htake : UnitHeader.take r with ⟨e | h, r₁⟩
    · exact .nil _ _
    dsimp only
    rcases hread : readUnit sections h with e | u
    · exact .nil _ _
    obtain ⟨hstart, hend, hsum⟩ := UnitHeader.position_take htake
    have hunit := (readUnit_offsets hread).2
    -- the offsets of this unit end where those of the next begin
    rw [hend] at hunit
    have hrest := ih r₁
    rw [hsum] at hrest
    exact (hunit.mono (by omega)).append hrest (by omega) (by omega)

/-- The entries of all units, each with its unit. -/
def entriesOf (sections : Sections) : List (UnitEntries × Entry) :=
  (unitsOf sections).flatMap fun u => u.entries.map (u, ·)

/-- The entries are those of all units. -/
theorem mem_entriesOf {u : UnitEntries} {e : Entry} :
    (u, e) ∈ entriesOf sections ↔ u ∈ unitsOf sections ∧ e ∈ u.entries := by
  simp only [entriesOf, List.mem_flatMap, List.mem_map, Prod.mk.injEq]
  constructor
  · rintro ⟨u, hu, e, he, rfl, rfl⟩
    exact ⟨hu, he⟩
  · rintro ⟨hu, he⟩
    exact ⟨u, hu, e, he, rfl, rfl⟩

/-- An entry is known by its offset. -/
theorem offset_inj {x y : UnitEntries × Entry} (hx : x ∈ entriesOf sections)
    (hy : y ∈ entriesOf sections) (h : x.2.offset = y.2.offset) : x = y := by
  have hoffsets := unitsFrom_offsets sections (sections.info.size + 1)
    (ByteReader.ofList sections.info.toList)
  have hmap : (entriesOf sections).map (·.2.offset) =
      (unitsOf sections).flatMap fun u => u.entries.map (·.offset) := by
    simp [entriesOf, List.map_flatMap, Function.comp_def]
  have hnodup : ((entriesOf sections).map (·.2.offset)).Nodup := by
    rw [hmap]
    exact hoffsets.ascends.imp Nat.ne_of_lt
  exact List.inj_on_of_nodup_map hnodup hx hy h

theorem length_toList (bs : ByteArray) : bs.toList.length = bs.size := by
  have hloop : ∀ left i acc, bs.size - i = left →
      (ByteArray.toList.loop bs i acc).length = left + acc.length := by
    intro left
    induction left with
    | zero =>
      intro i acc hleft
      rw [ByteArray.toList.loop, if_neg (by omega), List.length_reverse, Nat.zero_add]
    | succ left ih =>
      intro i acc hleft
      rw [ByteArray.toList.loop, if_pos (by omega), ih (i + 1) _ (by omega), List.length_cons]
      omega
  exact hloop bs.size 0 [] rfl

/-- An entry starts inside of its section. -/
theorem offset_lt {u : UnitEntries} {e : Entry} (hu : u ∈ unitsOf sections) (he : e ∈ u.entries) :
    e.offset < sections.info.size := by
  have hoffsets := unitsFrom_offsets sections (sections.info.size + 1)
    (ByteReader.ofList sections.info.toList)
  have hlt := (hoffsets.bounds e.offset
    (List.mem_flatMap.2 ⟨u, hu, List.mem_map.2 ⟨e, he, rfl⟩⟩)).2
  rwa [ofList, length_toList, Nat.zero_add] at hlt

/-! ### What a walk adds to the table -/

/-- A function changes no type. -/
theorem types_addFunction? {index index' : DebugIndex} {f : FunctionEntry}
    (h : index.addFunction? f = some index') : index'.types = index.types := by
  unfold DebugIndex.addFunction? at h
  split at h
  · cases h
    rfl
  · cases h

/-- A variable changes no type. -/
theorem types_addVariable? {index index' : DebugIndex} {function : Nat} {v : VariableEntry}
    (h : index.addVariable? function v = some index') : index'.types = index.types := by
  unfold DebugIndex.addVariable? at h
  split at h
  · cases h
    rfl
  · cases h

/-- A global variable changes no type. -/
theorem types_addGlobal? {index index' : DebugIndex} {unit : Nat} {v : VariableEntry}
    (h : index.addGlobal? unit v = some index') : index'.types = index.types := by
  unfold DebugIndex.addGlobal? at h
  split at h
  · cases h
    rfl
  · cases h

/-- What becomes of an index by what an entry says. What has no owner is dropped. -/
inductive Added (unit : Nat) (index : DebugIndex) : EntryContent → DebugIndex → Prop
  /-- A function of the unit. -/
  | function {f : FunctionEntry} {index' : DebugIndex} :
    index.addFunction? { f with unit } = some index' → Added unit index (.function f) index'
  /-- A variable of a function. -/
  | variableOf {function : Nat} {v : VariableEntry} {index' : DebugIndex} :
    index.addVariable? function v = some index' → Added unit index (.namedVariable v) index'
  /-- A variable of the unit. -/
  | global {v : VariableEntry} {index' : DebugIndex} :
    index.addGlobal? unit v = some index' → Added unit index (.namedVariable v) index'
  /-- A type. -/
  | type (offset : UInt64) (t : TypeEntry) :
    Added unit index (.type offset t) (index.addType offset t)
  /-- Nothing. -/
  | nothing {content : EntryContent} : content.type? = none → Added unit index content index

/-- What a walk adds for an entry is what the entry brings. -/
theorem added_of_add {unit : Nat} {w w' : Walk} {content : EntryContent}
    (h : w.add unit content = .ok w') : Added unit w.index content w'.index := by
  -- a variable that could not be added leaves the index as it was
  have hgetD : ∀ {added : Option DebugIndex} {v : VariableEntry}, (∀ index, added = some index →
      Added unit w.index (.namedVariable v) index) →
      Added unit w.index (.namedVariable v) (added.getD w.index) := by
    rintro (_ | index) v hadded
    · exact .nothing rfl
    · exact hadded index rfl
  cases content with
  | function f =>
    simp only [Walk.add] at h
    split at h
    · rename_i index hadded
      cases h
      exact .function hadded
    · cases h
      exact .nothing rfl
  | namedVariable v =>
    cases h
    refine hgetD fun index hadded => ?_
    split at hadded
    · exact .variableOf hadded
    · exact .global hadded
  | type offset t =>
    cases h
    exact .type offset t
  | unit unit => cases h
  | other =>
    cases h
    exact .nothing rfl

/-- Only a type adds to the table. -/
theorem types_add {unit : Nat} {w w' : Walk} {content : EntryContent}
    (h : w.add unit content = .ok w') :
    w'.index.types = content.type?.toList ++ w.index.types := by
  have hadded := added_of_add h
  generalize w'.index = index at hadded ⊢
  cases hadded with
  | function hadded => exact types_addFunction? hadded
  | variableOf hadded => exact types_addVariable? hadded
  | global hadded => exact types_addGlobal? hadded
  | type offset t => rfl
  | nothing htype => simp [htype]

/-- A step adds the type of its entry, if it is one. -/
theorem types_step {u : UnitContext} {unitOffset unit : Nat} {w w' : Walk} {s : EntryStep}
    (h : w.step u unitOffset bias unit s = .ok w') :
    (∃ content, s.2.content u unitOffset bias = .ok content) ∧
      w'.index.types = (s.2.said u unitOffset bias).type?.toList ++ w.index.types := by
  rw [Walk.step, bind_eq_ok] at h
  obtain ⟨content, hcontent, h⟩ := h
  rw [Entry.said_of_content hcontent]
  have htypes := types_add h
  exact ⟨⟨content, hcontent⟩, htypes⟩

/-- A walk adds the types of the entries to the table, each before those of the entries in front of
it. -/
theorem types_foldlM_step {u : UnitContext} {unitOffset unit : Nat} {steps : List EntryStep}
    {w w' : Walk} (h : steps.foldlM (Walk.step u unitOffset bias unit) w = .ok w') :
    (∀ e ∈ steps.map (·.2), ∃ content, e.content u unitOffset bias = .ok content) ∧
      w'.index.types =
        ((steps.map (·.2)).filterMap fun e => (e.said u unitOffset bias).type?).reverse ++
          w.index.types := by
  -- along the entries; the last one that was added stands first in the table
  induction steps generalizing w with
  | nil =>
    cases h
    exact ⟨nofun, rfl⟩
  | cons s steps ih =>
    rw [List.foldlM_cons, bind_eq_ok] at h
    obtain ⟨next, hstep, h⟩ := h
    obtain ⟨hcontent, htypes⟩ := types_step hstep
    obtain ⟨hcontents, htypes'⟩ := ih h
    rw [List.map_cons, List.forall_mem_cons]
    refine ⟨⟨hcontent, hcontents⟩, ?_⟩
    rw [htypes', htypes, List.filterMap_cons]
    rcases (s.2.said u unitOffset bias).type? with _ | t
    · rfl
    · simp

/-- A unit that is added can be read to its end. Its line table comes first, and then its entries
are walked over. -/
theorem walk_of_addUnit {index index' : DebugIndex} {h : UnitHeader}
    (hadd : addUnit sections bias index h = .ok index') :
    ∃ (r : UnitRoot) (steps : List EntryStep) (unit : CompileUnit) (lines : DebugIndex)
      (depth : Int) (w : Walk), readUnit sections h = .ok ⟨h, r, steps.map (·.2)⟩ ∧
        r.addLines bias (index.addUnit unit) = .ok lines ∧
        steps.foldlM (Walk.step r.context h.offset bias index.units.length) ⟨lines, depth, []⟩ =
          .ok w ∧ w.index = index' := by
  unfold addUnit at hadd
  obtain ⟨bytes, hbytes, hadd⟩ := bind_eq_ok.1 hadd
  obtain ⟨abbreviations, habbreviations, hadd⟩ := bind_eq_ok.1 hadd
  split at hadd
  · cases hadd
  · cases hadd
  rename_i delta root steps failure hsteps
  obtain ⟨r, hroot, hadd⟩ := bind_eq_ok.1 hadd
  obtain ⟨content, -, hadd⟩ := bind_eq_ok.1 hadd
  -- the line table of the unit comes first, and what is walked over does not depend on it
  obtain ⟨lines, hlines, hadd⟩ : ∃ lines, r.addLines bias (index.addUnit content.unitOrNone) =
      .ok lines ∧ (steps.foldlM (Walk.step r.context h.offset bias index.units.length)
        ⟨lines, delta, []⟩ >>= (·.ended failure)) = .ok index' := by
    rw [← bind_eq_ok, ← hadd, UnitRoot.addLines]
    cases content <;> cases r.lineTable <;> cases failure <;> rfl
  obtain ⟨w, hfold, hadd⟩ := bind_eq_ok.1 hadd
  rcases failure with _ | e
  · cases hadd
    refine ⟨r, steps, content.unitOrNone, lines, delta, w, ?_, hlines, hfold, rfl⟩
    simp only [readUnit, hbytes, habbreviations, hsteps, hroot, bind, Except.bind]
    rfl
  · cases hadd

/-- A unit that is added can be read, and so can what its entries say. Their types come to the front
of the table. -/
theorem types_addUnit {index index' : DebugIndex} {h : UnitHeader}
    (hadd : addUnit sections bias index h = .ok index') :
    ∃ u, readUnit sections h = .ok u ∧
      (∀ e ∈ u.entries, ∃ content, u.content bias e = .ok content) ∧
      index'.types = (u.types bias).reverse ++ index.types := by
  obtain ⟨r, steps, unit, lines, depth, w, hread, hlines, hfold, rfl⟩ := walk_of_addUnit hadd
  obtain ⟨hcontents, htypes⟩ := types_foldlM_step hfold
  refine ⟨_, hread, hcontents, ?_⟩
  rw [htypes, (UnitRoot.addLines_keeps hlines).2.2]
  rfl

/-- The table holds the types of all units, those of later entries before those of earlier ones, and
all that the entries say can be read. -/
theorem types_addUnits {index index' : DebugIndex} {fuel : Nat} {r : ByteReader}
    (h : addUnits sections bias fuel index r = .ok index') :
    (∀ u ∈ unitsFrom sections fuel r, ∀ e ∈ u.entries, ∃ content, u.content bias e = .ok content) ∧
      index'.types =
        ((unitsFrom sections fuel r).flatMap (·.types bias)).reverse ++ index.types := by
  -- along the units, as for the entries of one
  induction fuel generalizing index r with
  | zero =>
    cases h
    exact ⟨nofun, rfl⟩
  | succ fuel ih =>
    rw [addUnits] at h
    rw [unitsFrom]
    split at h
    · cases h
      rw [if_pos ‹_›]
      exact ⟨nofun, rfl⟩
    rw [if_neg ‹_›]
    rcases htake : UnitHeader.take r with ⟨e | header, r₁⟩ <;> simp only [htake] at h
    · cases h
    obtain ⟨next, hadd, h⟩ := bind_eq_ok.1 h
    obtain ⟨u, hread, hcontents, htypes⟩ := types_addUnit hadd
    obtain ⟨hcontents', htypes'⟩ := ih h
    simp only [hread]
    refine ⟨List.forall_mem_cons.2 ⟨hcontents, hcontents'⟩, ?_⟩
    rw [htypes', htypes, List.flatMap_cons, List.reverse_append, List.append_assoc]

/-! ### Lookups -/

/-- What a table says about a key, if different entries have different keys. -/
theorem find?_reverse_filterMap {α κ β : Type} [BEq κ] [LawfulBEq κ] {xs : List α} {key : α → κ}
    {row : α → Option (κ × β)} (hkey : ∀ x k b, row x = some (k, b) → k = key x)
    (hinj : ∀ x ∈ xs, ∀ y ∈ xs, key x = key y → x = y) {x : α} (hx : x ∈ xs) :
    (xs.filterMap row).reverse.find? (·.1 == key x) = row x := by
  rcases hfind : (xs.filterMap row).reverse.find? (·.1 == key x) with _ | ⟨k, b⟩
  · rcases hrow : row x with _ | ⟨k, b⟩
    · exact hfind
    · have hmem : (k, b) ∈ (xs.filterMap row).reverse :=
        List.mem_reverse.2 (List.mem_filterMap.2 ⟨x, hx, hrow⟩)
      have hne := List.find?_eq_none.1 hfind _ hmem
      exact absurd (beq_iff_eq.2 (hkey x k b hrow)) hne
  · obtain ⟨y, hy, hrow⟩ :=
      List.mem_filterMap.1 (List.mem_reverse.1 (List.mem_of_find?_eq_some hfind))
    have hk : k = key x := beq_iff_eq.1 (List.find?_some hfind :)
    obtain rfl : y = x := hinj y hy x hx ((hkey y k b hrow).symm.trans hk)
    exact hfind.trans hrow.symm

/-- The entries of types have kinds of their own. -/
theorem content_of_mem_types {u : UnitContext} {unitOffset : Nat} {e : Entry}
    (htag : e.tag ∈ Tag.types) : e.content u unitOffset bias = do
      return .type (UInt64.ofNat e.offset) (← e.type u) := by
  have hne : ∀ tag ∉ Tag.types, e.tag ≠ tag := by
    rintro tag hnot rfl
    exact hnot htag
  rw [Entry.content, if_neg, if_neg (hne _ (by decide)), if_neg, if_pos htag]
  · exact not_or.2 ⟨hne _ (by decide), hne _ (by decide)⟩
  · exact not_or.2 ⟨hne _ (by decide), hne _ (by decide)⟩

/-- The types are described by entries of some kinds, under the places of these entries. -/
theorem type?_said_eq_some_iff {u : UnitContext} {unitOffset : Nat} {e : Entry} {offset : UInt64}
    {t : TypeEntry} :
    (e.said u unitOffset bias).type? = some (offset, t) ↔
      e.tag ∈ Tag.types ∧ offset = UInt64.ofNat e.offset ∧ e.type u = .ok t := by
  constructor
  · intro h
    -- an entry that can not be read says nothing
    rcases hcontent : e.content u unitOffset bias with err | content
    · rw [Entry.said, hcontent] at h
      cases h
    rw [Entry.said_of_content hcontent] at h
    -- of the kinds of entries only the one for types is left
    unfold Entry.content at hcontent
    split at hcontent
    · obtain ⟨name, -, hcontent⟩ := bind_eq_ok.1 hcontent
      obtain ⟨compDir, -, hcontent⟩ := bind_eq_ok.1 hcontent
      cases hcontent
      cases h
    split at hcontent
    · obtain ⟨f, -, hcontent⟩ := bind_eq_ok.1 hcontent
      cases hcontent
      cases h
    split at hcontent
    · obtain ⟨v, -, hcontent⟩ := bind_eq_ok.1 hcontent
      cases v <;> cases hcontent <;> cases h
    split at hcontent
    · rename_i htag
      obtain ⟨t', ht, hcontent⟩ := bind_eq_ok.1 hcontent
      cases hcontent
      cases h
      exact ⟨htag, rfl, ht⟩
    · cases hcontent
      cases h
  · rintro ⟨htag, rfl, ht⟩
    have hcontent : e.content u unitOffset bias = .ok (.type (UInt64.ofNat e.offset) t) := by
      rw [content_of_mem_types htag, ht]
      rfl
    rw [Entry.said_of_content hcontent]
    rfl

end SourceDebugger.DebugInfo

namespace SourceDebugger.DebugIndex

open DebugInfo

variable {directory : String} {file : ObjectFile} {bias : Addr} {index : DebugIndex}
  {sections : Sections}

/-- What is looked up at the offset of an entry is what this entry says, in every unit. -/
theorem typeAt?_of_build (hload : Sections.load file = .ok sections)
    (hbuild : build directory file bias = .ok index) (hsize : sections.info.size ≤ 2 ^ 64)
    {u : UnitEntries} (hu : u ∈ unitsOf sections) {e : Entry} (he : e ∈ u.entries) :
    (∃ content, u.content bias e = .ok content) ∧
      index.typeAt? (UInt64.ofNat e.offset) =
        (e.said u.root.context u.header.offset bias).type?.map (·.2) := by
  have hadd : addUnits sections bias (sections.info.size + 1) (.empty directory)
      (ByteReader.ofList sections.info.toList) = .ok index := by
    rw [build, hload] at hbuild
    exact hbuild
  obtain ⟨hcontents, htypes⟩ := types_addUnits hadd
  refine ⟨hcontents u hu e he, ?_⟩
  let row (x : UnitEntries × Entry) := (x.2.said x.1.root.context x.1.header.offset bias).type?
  have hrows : index.types = ((entriesOf sections).filterMap row).reverse := by
    rw [htypes, entriesOf, List.filterMap_flatMap, empty, List.append_nil]
    refine congrArg _ (List.flatMap_congr fun u _ => ?_)
    rw [List.filterMap_map]
    rfl
  have hinj : ∀ x ∈ entriesOf sections, ∀ y ∈ entriesOf sections,
      UInt64.ofNat x.2.offset = UInt64.ofNat y.2.offset → x = y := by
    -- no offset is lost in a word, since all of them lie in the section
    rintro ⟨u, e⟩ hx ⟨u', e'⟩ hy heq
    have hlt := offset_lt (mem_entriesOf.1 hx).1 (mem_entriesOf.1 hx).2
    have hlt' := offset_lt (mem_entriesOf.1 hy).1 (mem_entriesOf.1 hy).2
    refine offset_inj hx hy ?_
    rw [← UInt64.toNat_ofNat_of_lt' (Nat.lt_of_lt_of_le hlt hsize), heq,
      UInt64.toNat_ofNat_of_lt' (Nat.lt_of_lt_of_le hlt' hsize)]
  have hkey : ∀ x k b, row x = some (k, b) → k = UInt64.ofNat x.2.offset :=
    fun _ _ _ h => (type?_said_eq_some_iff.1 h).2.1
  have hfind := find?_reverse_filterMap hkey hinj (mem_entriesOf.2 ⟨hu, he⟩)
  rw [typeAt?, hrows]
  exact congrArg (Option.map (·.2)) hfind

end SourceDebugger.DebugIndex
