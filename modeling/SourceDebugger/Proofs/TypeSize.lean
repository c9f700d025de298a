import SourceDebugger.Proofs.BuildRelocation
import SourceDebugger.Proofs.TypeTable
import SourceDebugger.Proofs.VariablePlace

/-!
# The sizes of types

A type name has no size of its own: it refers to another type, and `DebugInfo.LeadsTo` follows such
references to a type that has one. The table of types only holds what each entry states itself, and
reading a variable does not follow them.

* `VariableValue.sizeOf_of_hasType`: the number of bytes of a variable is what the entry of its type
  states, and otherwise eight.
* `VariableValue.readsBytes_of_hasType`: a variable with a type that has a size is read in this
  size, and one with the name of a type is read in eight bytes, whatever the name stands for.
* `VariableValue.not_readsBytes_size`: so what is read can go beyond the variable.
-/

namespace SourceDebugger

namespace DebugInfo

variable {sections : Sections} {bias : Addr}

/-- The kind of the entry of a type name. -/
def Tag.typeName : Nat := 0x16

/-- The size that the entry of a type states: a number of bytes, and for a pointer without one the
size of an address. -/
inductive Entry.HasSize (encoding : Encoding) (e : Entry) : UInt64 → Prop where
  /-- The number of bytes. -/
  | stated {value : AttributeValue} {size : UInt64} :
      e.attributes.find? AttributeName.byteSize = .ok (some value) →
      value.unsigned? = some size → HasSize encoding e size
  /-- The size of an address. -/
  | pointer : e.tag = Tag.pointerType → e.attributes.find? AttributeName.byteSize = .ok none →
      HasSize encoding e (UInt64.ofNat encoding.addressSize)

/-- The type of an entry `e` of the unit `u` is described by the entry `t` of the unit `w`. -/
inductive RefersTo (u : UnitEntries) (e : Entry) (w : UnitEntries) (t : Entry) : Prop where
  /-- The reference is to the same unit. -/
  | inUnit {offset : UInt64} :
      e.attributes.find? AttributeName.type = .ok (some (.unitReference offset)) → w = u →
      t.offset = u.header.offset + offset.toNat → RefersTo u e w t
  /-- The reference is to any unit. -/
  | anywhere {offset : UInt64} :
      e.attributes.find? AttributeName.type = .ok (some (.infoReference offset)) →
      t.offset = offset.toNat → RefersTo u e w t

/-- The entry of a type leads through some number of type names to a type of a size. -/
inductive LeadsTo (sections : Sections) : UnitEntries → Entry → Nat → UInt64 → Prop where
  /-- The entry states the size. -/
  | sized {u : UnitEntries} {t : Entry} {size : UInt64} :
      t.HasSize u.root.context.encoding size → LeadsTo sections u t 0 size
  /-- The entry is a name for a type that leads to the size. -/
  | through {u w : UnitEntries} {t t' : Entry} {links : Nat} {size : UInt64} :
      t.tag = Tag.typeName → RefersTo u t w t' → (w, t') ∈ entriesOf sections →
      LeadsTo sections w t' links size → LeadsTo sections u t (links + 1) size

/-- The entry `t` of the unit `u` describes the type of a variable that some entry describes. -/
def HasType (sections : Sections) (bias : Addr) (v : VariableEntry) (u : UnitEntries) (t : Entry) :
    Prop :=
  (u, t) ∈ entriesOf sections ∧ ∃ w e, (w, e) ∈ entriesOf sections ∧
    w.content bias e = .ok (.namedVariable v) ∧ RefersTo w e u t

/-- What is known of a type is the size that its entry states. -/
theorem byteSize_eq_some_iff {u : UnitContext} {e : Entry} {t : TypeEntry} {size : UInt64}
    (ht : e.type u = .ok t) : t.byteSize = some size ↔ e.HasSize u.encoding size := by
  unfold Entry.type at ht
  obtain ⟨value, hvalue, ht⟩ := bind_eq_ok.1 ht
  obtain ⟨name, -, ht⟩ := bind_eq_ok.1 ht
  cases ht
  constructor
  · intro h
    -- a stated size is the size; without one, only a pointer has one
    rcases value with _ | value
    · dsimp only at h
      split at h
      · cases h
        exact .pointer ‹_› hvalue
      · cases h
    · exact .stated hvalue h
  · intro h
    cases h with
    | stated hstated hsize =>
      cases hvalue.symm.trans hstated
      exact hsize
    | pointer htag hnone =>
      cases hvalue.symm.trans hnone
      exact if_pos htag

/-- A variable keeps the offset of the entry of its type. -/
theorem typeOffset_of_content {u w : UnitEntries} {e t : Entry} {v : VariableEntry}
    (hcontent : u.content bias e = .ok (.namedVariable v)) (ht : RefersTo u e w t) :
    v.typeOffset = some (UInt64.ofNat t.offset) := by
  -- of all kinds of entries only that of a variable says one
  unfold UnitEntries.content Entry.content at hcontent
  split at hcontent
  · obtain ⟨name, -, hcontent⟩ := bind_eq_ok.1 hcontent
    obtain ⟨compDir, -, hcontent⟩ := bind_eq_ok.1 hcontent
    cases hcontent
  split at hcontent
  · obtain ⟨f, -, hcontent⟩ := bind_eq_ok.1 hcontent
    cases hcontent
  split at hcontent
  · obtain ⟨found, hfound, hcontent⟩ := bind_eq_ok.1 hcontent
    rcases found with _ | found <;> cases hcontent
    unfold Entry.namedVariable? at hfound
    obtain ⟨name, -, hfound⟩ := bind_eq_ok.1 hfound
    rcases name with _ | name
    · cases hfound
    obtain ⟨location, -, hfound⟩ := bind_eq_ok.1 hfound
    obtain ⟨type, htype, hfound⟩ := bind_eq_ok.1 hfound
    cases hfound
    cases ht with
    | inUnit hreference _ hoffset =>
      cases htype.symm.trans hreference
      rw [hoffset, UInt64.ofNat_add, UInt64.ofNat_toNat]
    | anywhere hreference hoffset =>
      cases htype.symm.trans hreference
      rw [hoffset, UInt64.ofNat_toNat]
  split at hcontent
  · obtain ⟨type, -, hcontent⟩ := bind_eq_ok.1 hcontent
    cases hcontent
  · cases hcontent

end DebugInfo

namespace VariableValue

open DebugInfo

variable {directory : String} {file : ObjectFile} {bias : Addr} {index : DebugIndex}
  {sections : Sections}

/-- The number of bytes of a variable is the size that the entry of its type states, if that is of a
kind that is looked at, and otherwise eight. -/
theorem sizeOf_of_hasType (hload : Sections.load file = .ok sections)
    (hbuild : DebugIndex.build directory file bias = .ok index)
    (hsections : sections.info.size ≤ 2 ^ 64) {v : VariableEntry} {u : UnitEntries} {t : Entry}
    (htype : HasType sections bias v u t) :
    (∀ size, t.tag ∈ Tag.types → t.HasSize u.root.context.encoding size →
      sizeOf index v = size.toNat) ∧
    (t.tag ∉ Tag.types ∨ (∀ size, ¬ t.HasSize u.root.context.encoding size) →
      sizeOf index v = 8) := by
  obtain ⟨hmem, w, e, -, hcontent, hrefers⟩ := htype
  obtain ⟨hu, ht⟩ := mem_entriesOf.1 hmem
  obtain ⟨⟨content, hsaid⟩, htable⟩ := DebugIndex.typeAt?_of_build hload hbuild hsections hu ht
  have htype : typeOf? index v = (t.said u.root.context u.header.offset bias).type?.map (·.2) := by
    rw [typeOf?, typeOffset_of_content hcontent hrefers, Option.bind_some, htable]
  -- the table knows a type if and only if its entry is of a kind that is looked at
  by_cases htag : t.tag ∈ Tag.types
  · obtain ⟨known, hknown⟩ : ∃ known, t.type u.root.context = .ok known := by
      rw [UnitEntries.content, content_of_mem_types htag] at hsaid
      obtain ⟨known, hknown, -⟩ := bind_eq_ok.1 hsaid
      exact ⟨known, hknown⟩
    rw [type?_said_eq_some_iff.2 ⟨htag, rfl, hknown⟩, Option.map_some] at htype
    have hsize : sizeOf index v = (known.byteSize.map (·.toNat)).getD 8 := by
      rw [sizeOf, htype]
      rcases known with ⟨name, _ | size⟩ <;> rfl
    constructor
    · intro size _ hhas
      rw [hsize, (byteSize_eq_some_iff hknown).2 hhas]
      rfl
    · rintro (hnot | hnone)
      · exact absurd htag hnot
      · have hbyteSize : known.byteSize = none :=
          Option.eq_none_iff_forall_ne_some.2 fun size hstated =>
            hnone size ((byteSize_eq_some_iff hknown).1 hstated)
        rw [hsize, hbyteSize]
        rfl
  · have hnone : (t.said u.root.context u.header.offset bias).type? = none :=
      Option.eq_none_iff_forall_ne_some.2 fun _ h => htag (type?_said_eq_some_iff.1 h).1
    rw [hnone] at htype
    refine ⟨fun size hmem => absurd hmem htag, fun _ => ?_⟩
    rw [sizeOf, htype]
    rfl

variable {σ : Type} [Tracee σ]

/-- At the current instruction a name means a variable, and this is in memory at an address. -/
def IsAt (p : σ) (index : DebugIndex) (frames : Option FrameIndex) (bias : Addr) (name : String)
    (v : VariableEntry) (addr : Addr) : Prop :=
  ∃ regs f, Tracee.registers p = .ok regs ∧ index.variableInScope regs.pc name = .ok (v, f) ∧
    v.LiesIn f regs bias (unwoundCfa frames regs) (.memory addr)

/-- What is read of a variable are exactly `size` bytes at an address. -/
structure ReadsBytes (p : σ) (index : DebugIndex) (frames : Option FrameIndex) (bias : Addr)
    (name : String) (addr : Addr) (size : Nat) : Prop where
  /-- Nothing else is read. -/
  sound : ∀ value, read p index frames bias name = .ok value →
    value.place = .memory addr ∧ Tracee.readExact p addr size = .ok value.bytes
  /-- They are read if they can be. -/
  complete : ∀ bytes, Tracee.readExact p addr size = .ok bytes →
    ∃ value, read p index frames bias name = .ok value ∧ value.bytes = bytes

/-- Of a variable in memory as many bytes are read as it is taken to have. -/
theorem IsAt.readsBytes {p : σ} {frames : Option FrameIndex} {name : String} {v : VariableEntry}
    {addr : Addr} (h : IsAt p index frames bias name v addr) :
    ReadsBytes p index frames bias name addr (sizeOf index v) := by
  obtain ⟨regs, f, hregs, hfound, hplace⟩ := h
  constructor
  · intro value hvalue
    obtain ⟨regs', v', f', hregs', hfound', hplace', hbytes, -⟩ := read_eq_ok_iff.1 hvalue
    obtain rfl : regs = regs' := Except.ok.inj (hregs.symm.trans hregs')
    cases hfound.symm.trans hfound'
    have haddr : value.place = .memory addr := liesIn_unique hplace' hplace
    rw [haddr] at hbytes
    cases hbytes with
    | memory hread => exact ⟨haddr, hread⟩
  · intro bytes hread
    exact ⟨⟨name, (typeOf? index v).bind (·.name), .memory addr, bytes⟩, read_eq_ok_iff.2
      ⟨regs, v, f, hregs, hfound, hplace, .memory hread, rfl, rfl⟩, rfl⟩

/-- A variable in memory whose type leads to a size is read in this size, if the entry of its type
states it and is of a kind that is looked at. With the name of a type it is read in eight bytes,
whatever the name stands for, unless the entry of the name states a size itself. -/
theorem readsBytes_of_hasType (hload : Sections.load file = .ok sections)
    (hbuild : DebugIndex.build directory file bias = .ok index)
    (hsections : sections.info.size ≤ 2 ^ 64) {v : VariableEntry} {u : UnitEntries} {t : Entry}
    {links : Nat} {size : UInt64} (htype : HasType sections bias v u t)
    (hleads : LeadsTo sections u t links size) (p : σ) (frames : Option FrameIndex) {name : String}
    {addr : Addr} (hat : IsAt p index frames bias name v addr) :
    ∃ count, ReadsBytes p index frames bias name addr count ∧
      (links = 0 → t.tag ∈ Tag.types → count = size.toNat) ∧
      (links = 0 → t.tag ∉ Tag.types → count = 8) ∧
      (links ≠ 0 → (∀ own, ¬ t.HasSize u.root.context.encoding own) → count = 8) ∧
      (links ≠ 0 → ∀ own, t.HasSize u.root.context.encoding own → count = own.toNat) := by
  obtain ⟨hstated, hdefault⟩ := sizeOf_of_hasType hload hbuild hsections htype
  refine ⟨_, hat.readsBytes, ?_⟩
  -- a link on the way hides the size at its end, since the type name itself has none
  cases hleads with
  | sized hsize =>
    exact ⟨fun _ htag => hstated size htag hsize, fun _ htag => hdefault (.inl htag), nofun, nofun⟩
  | through htag hrefers hmem hrest =>
    have hmember : t.tag ∈ Tag.types := by
      rw [htag]
      decide
    exact ⟨nofun, nofun, fun _ hnone => hdefault (.inr hnone), fun _ own => hstated own hmember⟩

/-! ### A name for a type of four bytes -/

/-- A unit with a type `int` of four bytes, a name `number` for it, and a variable `points` at
0x2000. -/
def typedefInfo : List UInt8 :=
  [0x31, 0, 0, 0, 4, 0, 0, 0, 0, 0, 8, 1, 2, 0x69, 0x6e, 0x74, 0, 4,
    3, 0x6e, 0x75, 0x6d, 0x62, 0x65, 0x72, 0, 0x0c, 0, 0, 0,
    4, 0x70, 0x6f, 0x69, 0x6e, 0x74, 0x73, 0, 0x12, 0, 0, 0, 9, 3, 0, 0x20, 0, 0, 0, 0, 0, 0, 0]

/-- Descriptions of entries: a unit, a type with a name and a size, a name for a type, and a
variable with its type and its location. -/
def typedefAbbreviations : List UInt8 :=
  [1, 0x11, 1, 0, 0, 2, 0x24, 0, 3, 8, 0x0b, 0x0b, 0, 0, 3, 0x16, 0, 3, 8, 0x49, 0x13, 0, 0,
    4, 0x34, 0, 3, 8, 0x49, 0x13, 2, 0x18, 0, 0, 0]

/-- A file with these sections. -/
def typedefFile : ObjectFile :=
  { DebugIndex.nullFile with
    sections := [DebugIndex.plainSection ".debug_info" typedefInfo,
      DebugIndex.plainSection ".debug_abbrev" typedefAbbreviations,
      DebugIndex.plainSection ".debug_line" []] }

/-- A machine with the variable in memory, and another one behind it. -/
def atPoints : Machine :=
  .ofImage ⟨[⟨⟨0x2000⟩, [7, 0, 0, 0, 9, 0, 0, 0], false⟩], Registers.zero.setPc ⟨0x1000⟩, 0, [], [],
    [], false⟩ []

/-- The entry of the type. -/
def intEntry : Entry :=
  ⟨12, 0x24, ⟨[⟨AttributeName.name, .text [0x69, 0x6e, 0x74]⟩,
    ⟨AttributeName.byteSize, .unsigned 4⟩], none⟩⟩

/-- The entry of its name. -/
def numberEntry : Entry :=
  ⟨18, Tag.typeName, ⟨[⟨AttributeName.name, .text [0x6e, 0x75, 0x6d, 0x62, 0x65, 0x72]⟩,
    ⟨AttributeName.type, .unitReference 12⟩], none⟩⟩

/-- The entry of the variable. -/
def pointsEntry : Entry :=
  ⟨30, Tag.plainVariable, ⟨[⟨AttributeName.name, .text [0x70, 0x6f, 0x69, 0x6e, 0x74, 0x73]⟩,
    ⟨AttributeName.type, .unitReference 18⟩,
    ⟨AttributeName.location, .expression [3, 0, 0x20, 0, 0, 0, 0, 0, 0]⟩], none⟩⟩

/-- The variable. -/
def points : VariableEntry := ⟨"points", [3, 0, 0x20, 0, 0, 0, 0, 0, 0], some 18⟩

/-- What is needed to know of the file, and what is read of the variable. -/
theorem exists_points : ∃ sections index u, Sections.load typedefFile = .ok sections ∧
    DebugIndex.build "" typedefFile .null = .ok index ∧ sections.info.size ≤ 2 ^ 64 ∧
    HasType sections .null points u numberEntry ∧ LeadsTo sections u numberEntry 1 4 ∧
    IsAt atPoints index none .null "points" points ⟨0x2000⟩ ∧
    read atPoints index none .null "points" =
      .ok ⟨"points", some "number", .memory ⟨0x2000⟩, [7, 0, 0, 0, 9, 0, 0, 0]⟩ := by
  -- an index has no decidable equality, so only what is asked of it is computed
  obtain ⟨sections, hload, hunits⟩ := exists_of_map_toOption
    (by decide +kernel : (Sections.load typedefFile).toOption.map (fun sections =>
      (decide (sections.info.size ≤ 2 ^ 64), (unitsOf sections).map fun u =>
        (u.header.offset, u.entries, (u.content .null pointsEntry).toOption))) =
      some (true, [(0, [intEntry, numberEntry, pointsEntry], some (.namedVariable points))]))
  obtain ⟨index, hbuild, hanswers⟩ := exists_of_map_toOption
    (by decide +kernel : (DebugIndex.build "" typedefFile .null).toOption.map (fun index =>
      (index.variableInScope ⟨0x1000⟩ "points", read atPoints index none .null "points")) =
      some (.ok (points, none),
        .ok ⟨"points", some "number", .memory ⟨0x2000⟩, [7, 0, 0, 0, 9, 0, 0, 0]⟩))
  obtain ⟨hsize, hunits⟩ := Prod.mk.inj hunits
  obtain ⟨hfound, hread⟩ := Prod.mk.inj hanswers
  obtain ⟨u, hu, hunit⟩ : ∃ u ∈ unitsOf sections,
      (u.header.offset, u.entries, (u.content .null pointsEntry).toOption) =
        (0, [intEntry, numberEntry, pointsEntry], some (.namedVariable points)) :=
    List.mem_map.1 (hunits ▸ List.mem_cons_self)
  obtain ⟨hoffset, hunit⟩ := Prod.mk.inj hunit
  obtain ⟨hentries, hcontent⟩ := Prod.mk.inj hunit
  have hmem : ∀ e ∈ [intEntry, numberEntry, pointsEntry], (u, e) ∈ entriesOf sections :=
    fun e he => mem_entriesOf.2 ⟨hu, hentries ▸ he⟩
  have hrefers : ∀ e t offset, e.attributes.find? AttributeName.type =
      .ok (some (.unitReference offset)) → t.offset = 0 + offset.toNat → RefersTo u e u t :=
    fun e t offset h ht => .inUnit h rfl (hoffset ▸ ht)
  have hpoints : u.content .null pointsEntry = .ok (.namedVariable points) := by
    rcases hsaid : u.content .null pointsEntry with e | content <;> rw [hsaid] at hcontent <;>
      cases hcontent
    rfl
  refine ⟨sections, index, u, hload, hbuild, of_decide_eq_true hsize, ?_, ?_, ?_, hread⟩
  · exact ⟨hmem _ (by simp), u, pointsEntry, hmem _ (by simp), hpoints,
      hrefers _ _ 18 rfl rfl⟩
  · exact .through rfl (hrefers _ intEntry 12 rfl rfl) (hmem _ (by simp)) (.sized (.stated rfl rfl))
  · exact ⟨atPoints.regs, none, rfl, hfound, .address 0x2000, by decide +kernel, .address rfl⟩

theorem readsBytes_of_hasType_number : ∃ sections index u,
    Sections.load typedefFile = .ok sections ∧
    DebugIndex.build "" typedefFile .null = .ok index ∧ sections.info.size ≤ 2 ^ 64 ∧
    HasType sections .null points u numberEntry ∧ LeadsTo sections u numberEntry 1 4 ∧
    IsAt atPoints index none .null "points" points ⟨0x2000⟩ ∧
    ReadsBytes atPoints index none .null "points" ⟨0x2000⟩ 8 := by
  obtain ⟨sections, index, u, hload, hbuild, hsize, htype, hleads, hat, -⟩ := exists_points
  obtain ⟨count, hreads, -, -, hdefault, -⟩ :=
    readsBytes_of_hasType hload hbuild hsize htype hleads atPoints none hat
  have hnone : ∀ own, ¬ numberEntry.HasSize u.root.context.encoding own := by
    rintro own (⟨hstated, -⟩ | ⟨hpointer, -⟩)
    · cases hstated
    · cases hpointer
  rw [hdefault (by decide) hnone] at hreads
  exact ⟨sections, index, u, hload, hbuild, hsize, htype, hleads, hat, hreads⟩

/-- With a name for a type of four bytes, a variable is read together with the four bytes behind
it. -/
theorem not_readsBytes_size :
    ¬ ∀ (directory : String) (file : ObjectFile) (bias : Addr) (index : DebugIndex)
      (sections : Sections), Sections.load file = .ok sections →
      DebugIndex.build directory file bias = .ok index → sections.info.size ≤ 2 ^ 64 →
      ∀ v u t links size, HasType sections bias v u t → LeadsTo sections u t links size →
      ∀ (p : Machine) frames name addr, IsAt p index frames bias name v addr →
      ReadsBytes p index frames bias name addr size.toNat := by
  intro h
  obtain ⟨sections, index, u, hload, hbuild, hsize, htype, hleads, hat, hread⟩ := exists_points
  have hreads := h _ _ _ _ _ hload hbuild hsize _ _ _ _ _ htype hleads _ _ _ _ hat
  have hfour := (hreads.sound _ hread).2
  have hbytes : Tracee.readExact atPoints ⟨0x2000⟩ 4 = .ok [7, 0, 0, 0] := by decide +kernel
  cases hbytes.symm.trans hfour

end VariableValue

end SourceDebugger
