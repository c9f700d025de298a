import SourceDebugger.Proofs.LineProgram
import SourceDebugger.Proofs.TypeTable

/-!
# The ranges of functions

The attributes of a function can come in any order, but its end may be given by its distance from
its start. `SubprogramDraft` puts off what needs both. `SubprogramDraft.Describes` says what is
known at the end without regard to the order, by looking attributes up.

* `DebugInfo.subprogram_range`: where functions start and end, and that no function of an index ends
  before it starts.
-/

namespace SourceDebugger.DebugInfo

/-! ### Attributes in any order -/

/-- The value of the attribute with a name. -/
def valueOf? (as : List Attribute) (name : AttributeName) : Option AttributeValue :=
  (as.find? (·.name == name)).map (·.value)

/-- No two attributes have the same name. -/
def Distinct (as : List Attribute) : Prop := (as.map (·.name)).Nodup

/-- Attributes have distinct names in any order. -/
theorem Distinct.perm {as bs : List Attribute} (h : Distinct as) (hperm : as.Perm bs) :
    Distinct bs := (hperm.map _).nodup_iff.1 h

/-- The first attribute of a name gives its value. -/
theorem valueOf?_cons (a : Attribute) (as : List Attribute) (name : AttributeName) :
    valueOf? (a :: as) name = if a.name = name then some a.value else valueOf? as name := by
  by_cases hname : a.name = name <;> simp [valueOf?, hname]

/-- With distinct names, an attribute has its value wherever it stands. -/
theorem valueOf?_eq_some_iff {as : List Attribute} (h : Distinct as) {name : AttributeName}
    {v : AttributeValue} : valueOf? as name = some v ↔ ⟨name, v⟩ ∈ as := by
  induction as with
  | nil => exact iff_of_false nofun nofun
  | cons a as ih =>
    obtain ⟨hne, has⟩ := List.nodup_cons.1 h
    rw [valueOf?_cons, List.mem_cons]
    by_cases hname : a.name = name
    -- the names are distinct, so no other attribute of the name follows
    · have hnot : ⟨name, v⟩ ∉ as := by
        intro hmem
        exact hne (List.mem_map.2 ⟨_, hmem, hname.symm⟩)
      subst hname
      cases a
      simp [hnot, eq_comm]
    · have hother : (⟨name, v⟩ : Attribute) ≠ a := by
        rintro rfl
        exact hname rfl
      simp [hname, hother, ih has]

/-- What attributes say does not depend on their order. -/
theorem valueOf?_perm {as bs : List Attribute} (h : Distinct as) (hperm : as.Perm bs) :
    valueOf? as = valueOf? bs := by
  funext name
  ext v
  rw [valueOf?_eq_some_iff h, valueOf?_eq_some_iff (h.perm hperm), hperm.mem_iff]

/-- An attribute at the end gives its name a value and leaves the others. -/
theorem valueOf?_concat {as : List Attribute} {a : Attribute} (h : Distinct (as ++ [a])) :
    valueOf? (as ++ [a]) = Function.update (valueOf? as) a.name (some a.value) := by
  rw [valueOf?_perm h List.perm_append_comm]
  funext name
  rw [List.singleton_append, valueOf?_cons, Function.update_apply]
  simp only [eq_comm]

/-! ### What is known of a function -/

section Values

variable (u : UnitContext) (values : AttributeName → Option AttributeValue)

/-- The name that attributes with these values give to a function; it is empty if there is none. -/
def nameOf : Except DebugError String :=
  (values AttributeName.name).elim (.ok "") u.readableText

/-- The address at which attributes with these values say that a function starts, if they do. -/
def startOf : Except DebugError (Option UInt64) :=
  (values AttributeName.lowPc).elim (.ok none) u.addressOf

/-- Each part of what is known of a function is what the attribute says that is meant for it. -/
structure SubprogramDraft.Describes (d : SubprogramDraft) : Prop where
  /-- The name. -/
  name : nameOf u values = .ok d.name
  /-- The first address. -/
  low : startOf u values = .ok d.low
  /-- The end; what it means depends on the first address. -/
  high : d.high = values AttributeName.highPc
  /-- The frame base; what is no expression is left out. -/
  frameBase : d.frameBase = ((values AttributeName.frameBase).bind (·.expression?)).getD []
  /-- The number of the file. -/
  declFile : d.declFile = ((values AttributeName.declFile).bind (·.unsigned?)).getD 0
  /-- The flag. -/
  external : d.external = decide (values AttributeName.external = some (.flag true))

end Values

namespace SubprogramDraft

variable {u : UnitContext} {values : AttributeName → Option AttributeValue}
  {d d' : SubprogramDraft}

/-- The attributes say all that is known. -/
theorem Describes.unique (h : Describes u values d) (h' : Describes u values d') : d = d' := by
  obtain ⟨name, low, high, frameBase, declFile, external⟩ := d
  obtain ⟨name', low', high', frameBase', declFile', external'⟩ := d'
  obtain rfl : name = name' := Except.ok.inj (h.name.symm.trans h'.name)
  obtain rfl : low = low' := Except.ok.inj (h.low.symm.trans h'.low)
  obtain rfl : high = high' := h.high.trans h'.high.symm
  obtain rfl : frameBase = frameBase' := h.frameBase.trans h'.frameBase.symm
  obtain rfl : declFile = declFile' := h.declFile.trans h'.declFile.symm
  obtain rfl : external = external' := h.external.trans h'.external.symm
  rfl

/-- One more attribute, whose name is new, is read into its own part. -/
theorem Describes.add {a : Attribute} (h : Describes u values d) (hnew : values a.name = none)
    (hadd : d.add u a = .ok d') :
    Describes u (Function.update values a.name (some a.value)) d' := by
  obtain ⟨hname, hlow, hhigh, hframeBase, hdeclFile, hexternal⟩ := h
  obtain ⟨n, v⟩ := a
  unfold nameOf at hname
  unfold startOf at hlow
  unfold SubprogramDraft.add at hadd
  split_ifs at hadd with h₁ h₂ h₃ h₄ h₅ h₆ <;> dsimp only at *
  · obtain ⟨text, htext, hok⟩ := bind_eq_ok.1 hadd
    subst h₁
    cases hok
    constructor <;> simp (disch := decide) [nameOf, startOf, Function.update_of_ne, *]
  · obtain ⟨low, hread, hok⟩ := bind_eq_ok.1 hadd
    subst h₂
    cases hok
    constructor <;> simp (disch := decide) [nameOf, startOf, Function.update_of_ne, *]
  · subst h₃
    cases hadd
    constructor <;> simp (disch := decide) [nameOf, startOf, Function.update_of_ne, *]
  · subst h₄
    -- without an expression the frame base stays, which is empty since there was no other value
    rcases hexpression : v.expression? with _ | e <;> rw [hexpression] at hadd <;> cases hadd <;>
      constructor <;> simp (disch := decide) [nameOf, startOf, Function.update_of_ne, *]
  · subst h₅
    cases hadd
    constructor <;> simp (disch := decide) [nameOf, startOf, Function.update_of_ne, *]
  · subst h₆
    cases hadd
    constructor <;> simp (disch := decide) [nameOf, startOf, Function.update_of_ne, *]
  · cases hadd
    constructor <;> simp [nameOf, startOf, Function.update_of_ne, Ne.symm h₁, Ne.symm h₂,
      Ne.symm h₃, Ne.symm h₄, Ne.symm h₅, Ne.symm h₆, hname, hlow, hhigh, hframeBase, hdeclFile,
      hexternal]

/-- What is known once all attributes are read. -/
theorem describes_of_foldlM_add {as : List Attribute} (h : Distinct as)
    (hfold : as.foldlM (SubprogramDraft.add u) .empty = .ok d) : Describes u (valueOf? as) d := by
  induction as using List.reverseRecOn generalizing d with
  | nil =>
    cases hfold
    constructor <;> rfl
  | append_singleton as a ih =>
    rw [List.foldlM_append, bind_eq_ok] at hfold
    obtain ⟨before, hfold, hlast⟩ := hfold
    rw [List.foldlM_cons, bind_eq_ok] at hlast
    obtain ⟨after, hadd, hlast⟩ := hlast
    cases hlast
    -- the last attribute is read last, and no earlier one has set its part
    have hreordered : Distinct (a :: as) := h.perm List.perm_append_comm
    obtain ⟨hnew, has⟩ := List.nodup_cons.1 hreordered
    rw [valueOf?_concat h]
    refine (ih has hfold).add ?_ hadd
    rw [Option.eq_none_iff_forall_ne_some]
    intro v hv
    exact hnew (List.mem_map.2 ⟨_, (valueOf?_eq_some_iff has).1 hv, rfl⟩)

/-- An attribute can be read if it is no name without a text and no first address that is not
there. -/
def Readable (u : UnitContext) (a : Attribute) : Prop :=
  (a.name = AttributeName.name → ∃ text, u.readableText a.value = .ok text) ∧
    (a.name = AttributeName.lowPc → ∃ low, u.addressOf a.value = .ok low)

/-- Attributes that can be read can all be added. -/
theorem exists_foldlM_add {as : List Attribute} (h : ∀ a ∈ as, Readable u a)
    (d : SubprogramDraft) : ∃ d', as.foldlM (SubprogramDraft.add u) d = .ok d' := by
  induction as generalizing d with
  | nil => exact ⟨d, rfl⟩
  | cons a as ih =>
    obtain ⟨ha, has⟩ := List.forall_mem_cons.1 h
    -- only the name and the start can fail to be read, and both are readable
    have hadd : ∃ next, d.add u a = .ok next := by
      unfold SubprogramDraft.add
      split_ifs with h₁ h₂
      · obtain ⟨text, htext⟩ := ha.1 h₁
        rw [htext]
        exact ⟨_, rfl⟩
      · obtain ⟨low, hlow⟩ := ha.2 h₂
        rw [hlow]
        exact ⟨_, rfl⟩
      · exact ⟨_, rfl⟩
      · cases a.value.expression? <;> exact ⟨_, rfl⟩
      all_goals exact ⟨_, rfl⟩
    obtain ⟨next, hnext⟩ := hadd
    obtain ⟨d', hd'⟩ := ih has next
    refine ⟨d', ?_⟩
    rw [List.foldlM_cons, hnext]
    exact hd'

end SubprogramDraft

/-! ### Where a function ends -/

/-- The number of the first address behind a function that starts at `low`, by the value for its
end: an address, which may be given by its number, or the number of bytes. -/
inductive EndsAt (u : UnitContext) (low : UInt64) : Option AttributeValue → Nat → Prop
  /-- An address. -/
  | address (a : UInt64) : EndsAt u low (some (.address a)) a.toNat
  /-- An address by its number. -/
  | indexed {i : Nat} {a : UInt64} : u.addressOf (.addressIndex i) = .ok (some a) →
    EndsAt u low (some (.addressIndex i)) a.toNat
  /-- A number of bytes. -/
  | size {v : AttributeValue} {n : UInt64} : v.unsigned? = some n →
    EndsAt u low (some v) (low.toNat + n.toNat)
  /-- The function has no end of its own. -/
  | absent : EndsAt u low none low.toNat

namespace SubprogramDraft

variable {u : UnitContext} {bias : Addr} {d : SubprogramDraft} {low : UInt64} {behind : Nat}

/-- The end of a function is given if and only if it is the one that the attributes say. -/
theorem endOf_eq_ok_iff {name : String} {high : Option AttributeValue}
    (h : EndsAt u low high behind) {address : UInt64} :
    endOf u name low high = .ok address ↔ address.toNat = behind := by
  have hok : ∀ {a : UInt64}, (Except.ok a : Except DebugError UInt64) = .ok address ↔
      address.toNat = a.toNat := by
    intro a
    rw [UInt64.toNat_inj, Except.ok.injEq, eq_comm]
  cases h with
  | address a => exact hok
  | @indexed i a hindex =>
    rw [endOf, hindex]
    exact hok
  | @size v n hsize =>
    have hlt : address.toNat < UInt64.size := address.toNat_lt
    rw [endOf, hsize]
    · dsimp only [Option.getD_some]
      split
      · rename_i hfits
        rw [hok, UInt64.toNat_add, Nat.mod_eq_of_lt hfits]
      · exact iff_of_false nofun (by omega)
    -- a number of bytes is no address
    · rintro a rfl
      cases hsize
    · rintro i rfl
      cases hsize
  | absent => exact hok

/-- A function with a first address is read if it has an end that is not below it, and both exist in
the running program. -/
theorem function_eq_ok_iff (hlow : d.low = some low) {f : FunctionEntry} :
    d.function u bias = .ok f ↔ ∃ high first last, endOf u d.name low d.high = .ok high ∧
      low ≤ high ∧ relocate bias low = .ok first ∧ relocate bias high = .ok last ∧
      f = ⟨d.name, first, last, d.frameBase, d.declFile, d.external, 0, []⟩ := by
  unfold function
  rw [hlow]
  constructor
  · intro hok
    obtain ⟨high, hend, hok⟩ := bind_eq_ok.1 hok
    split at hok
    · cases hok
    obtain ⟨first, hfirst, hok⟩ := bind_eq_ok.1 hok
    obtain ⟨last, hlast, hok⟩ := bind_eq_ok.1 hok
    cases hok
    exact ⟨high, first, last, hend, UInt64.not_lt.1 ‹_›, hfirst, hlast, rfl⟩
  · rintro ⟨high, first, last, hend, hle, hfirst, hlast, rfl⟩
    simp only [hend, UInt64.not_lt.2 hle, hfirst, hlast, bind, Except.bind, if_false]
    rfl

/-- No function ends before it starts. -/
theorem lowPc_le_of_function {f : FunctionEntry} (h : d.function u bias = .ok f) :
    f.lowPc ≤ f.highPc := by
  rcases hlow : d.low with _ | low
  · rw [function, hlow] at h
    cases h
    exact UInt64.le_refl _
  · obtain ⟨high, first, last, -, hle, hfirst, hlast, rfl⟩ := (function_eq_ok_iff hlow).1 h
    exact (DebugIndex.relocate_le_iff hfirst hlast).2 hle

/-- Where a function starts and ends, and that it can be read if and only if it does not end before
it starts and no address is too large. -/
theorem function_range (hlow : d.low = some low) (hbehind : EndsAt u low d.high behind) :
    ((∃ f, d.function u bias = .ok f) ↔ low.toNat ≤ behind ∧ behind < 2 ^ 64 ∧
      bias.toNat + low.toNat < 2 ^ 64 ∧ bias.toNat + behind < 2 ^ 64) ∧
    ∀ f, d.function u bias = .ok f →
      f.lowPc.toNat = bias.toNat + low.toNat ∧ f.highPc.toNat = bias.toNat + behind := by
  constructor
  · constructor
    · rintro ⟨f, hok⟩
      -- the bounds are words, so the sums with the bias do not overflow
      obtain ⟨high, first, last, hend, hle, hfirst, hlast, -⟩ := (function_eq_ok_iff hlow).1 hok
      obtain rfl := (endOf_eq_ok_iff hbehind).1 hend
      rw [relocate_eq_ok_iff] at hfirst hlast
      refine ⟨UInt64.le_iff_toNat_le.1 hle, high.toNat_lt, ?_, ?_⟩
      · rw [← hfirst]
        exact first.val.toNat_lt
      · rw [← hlast]
        exact last.val.toNat_lt
    · rintro ⟨hle, hbound, hfirst, hlast⟩
      -- within the bounds, the words stand for their numbers
      have hnumber : ∀ {n : Nat}, n < 2 ^ 64 → (UInt64.ofNat n).toNat = n :=
        UInt64.toNat_ofNat_of_lt'
      refine ⟨_, (function_eq_ok_iff hlow).2 ⟨UInt64.ofNat behind,
        .ofNat (bias.toNat + low.toNat), .ofNat (bias.toNat + behind),
        (endOf_eq_ok_iff hbehind).2 (hnumber hbound), ?_, ?_, ?_, rfl⟩⟩
      · rw [UInt64.le_iff_toNat_le, hnumber hbound]
        exact hle
      · exact relocate_eq_ok_iff.2 (hnumber hfirst)
      · rw [relocate_eq_ok_iff, hnumber hbound]
        exact hnumber hlast
  · intro f hok
    obtain ⟨high, first, last, hend, -, hfirst, hlast, rfl⟩ := (function_eq_ok_iff hlow).1 hok
    obtain rfl := (endOf_eq_ok_iff hbehind).1 hend
    exact ⟨relocate_eq_ok_iff.1 hfirst, relocate_eq_ok_iff.1 hlast⟩

end SubprogramDraft

/-! ### Entries -/

namespace Entry

variable {u : UnitContext} {bias : Addr} {e : Entry} {f : FunctionEntry}

/-- All attributes of an entry can be read. -/
structure Readable (u : UnitContext) (e : Entry) : Prop where
  /-- The entry has all of its attributes. -/
  failure : e.attributes.failure = none
  /-- What they refer to is there. -/
  known : ∀ a ∈ e.attributes.known, SubprogramDraft.Readable u a

/-- What the attributes say of a function does not depend on their order, and its place is only
found after all of them are read. -/
theorem subprogram_eq (hdistinct : Distinct e.attributes.known) (h : e.Readable u) :
    ∃ d, SubprogramDraft.Describes u (valueOf? e.attributes.known) d ∧
      ∀ bias, e.subprogram u bias = d.function u bias := by
  obtain ⟨d, hfold⟩ := SubprogramDraft.exists_foldlM_add h.known .empty
  refine ⟨d, SubprogramDraft.describes_of_foldlM_add hdistinct hfold, fun bias => ?_⟩
  rw [subprogram, hfold]
  simp only [bind, Except.bind, h.failure]

/-- A function does not depend on the order of its attributes. -/
theorem subprogram_perm (hdistinct : Distinct e.attributes.known) (h : e.Readable u)
    {as : List Attribute} (hperm : as.Perm e.attributes.known) (bias : Addr) :
    ({ e with attributes := ⟨as, none⟩ } : Entry).subprogram u bias = e.subprogram u bias := by
  have has : Distinct as := hdistinct.perm hperm.symm
  obtain ⟨d, hd, heq⟩ := subprogram_eq hdistinct h
  -- the same values describe both, and what they describe is unique
  obtain ⟨d', hd', heq'⟩ := subprogram_eq (e := { e with attributes := ⟨as, none⟩ }) has
    ⟨rfl, fun a ha => h.known a (hperm.mem_iff.1 ha)⟩
  rw [valueOf?_perm has hperm] at hd'
  rw [heq, heq', hd.unique hd']

/-- No entry describes a function that ends before it starts. -/
theorem lowPc_le_of_subprogram (h : e.subprogram u bias = .ok f) : f.lowPc ≤ f.highPc := by
  obtain ⟨d, -, h⟩ := bind_eq_ok.1 h
  split at h
  · cases h
  · exact SubprogramDraft.lowPc_le_of_function h

end Entry

/-! ### The index -/

/-- No function of an index ends before it starts. -/
def FunctionsOrdered (index : DebugIndex) : Prop := ∀ f ∈ index.functions, f.lowPc ≤ f.highPc

namespace FunctionsOrdered

variable {sections : Sections} {bias : Addr} {index index' : DebugIndex}

/-- A function whose range is in order can be added. -/
theorem addFunction? (h : FunctionsOrdered index) {f : FunctionEntry} (hf : f.lowPc ≤ f.highPc)
    (hadd : index.addFunction? f = some index') : FunctionsOrdered index' := by
  unfold DebugIndex.addFunction? at hadd
  split at hadd
  · cases hadd
    exact List.forall_mem_append.2 ⟨h, List.forall_mem_singleton.2 hf⟩
  · cases hadd

/-- A variable changes no range. -/
theorem addVariable? (h : FunctionsOrdered index) {function : Nat} {v : VariableEntry}
    (hadd : index.addVariable? function v = some index') : FunctionsOrdered index' := by
  unfold DebugIndex.addVariable? at hadd
  split at hadd
  · cases hadd
    -- a function that gets a variable stays where it is
    intro f hf
    obtain ⟨i, hi, rfl⟩ := List.mem_iff_getElem.1 hf
    dsimp only at hi ⊢
    rw [List.length_modify] at hi
    have hi' := h _ (List.getElem_mem hi)
    rw [List.getElem_modify]
    split <;> exact hi'
  · cases hadd

/-- A global variable changes no range. -/
theorem addGlobal? (h : FunctionsOrdered index) {unit : Nat} {v : VariableEntry}
    (hadd : index.addGlobal? unit v = some index') : FunctionsOrdered index' := by
  unfold DebugIndex.addGlobal? at hadd
  split at hadd
  · cases hadd
    exact h
  · cases hadd

/-- What an entry adds keeps the ranges in order if its own function does. -/
theorem added (h : FunctionsOrdered index) {unit : Nat} {content : EntryContent}
    (hcontent : ∀ f, content = .function f → f.lowPc ≤ f.highPc)
    (hadded : Added unit index content index') : FunctionsOrdered index' := by
  cases hadded with
  | @function f _ hadded =>
    have hf : f.lowPc ≤ f.highPc := hcontent f rfl
    exact h.addFunction? (f := { f with unit }) hf hadded
  | variableOf hadded => exact h.addVariable? hadded
  | global hadded => exact h.addGlobal? hadded
  | type offset t => exact h
  | nothing htype => exact h

/-- All entries of a unit keep the ranges in order. -/
theorem foldlM_step {u : UnitContext} {unitOffset unit : Nat} {steps : List EntryStep}
    {w w' : Walk} (h : FunctionsOrdered w.index)
    (hfold : steps.foldlM (Walk.step u unitOffset bias unit) w = .ok w') :
    FunctionsOrdered w'.index := by
  induction steps generalizing w with
  | nil =>
    cases hfold
    exact h
  | cons s steps ih =>
    rw [List.foldlM_cons, bind_eq_ok] at hfold
    obtain ⟨next, hstep, hfold⟩ := hfold
    obtain ⟨content, hcontent, hadd⟩ := bind_eq_ok.1 hstep
    have hordered : ∀ f, content = .function f → f.lowPc ≤ f.highPc :=
      fun f hf => Entry.lowPc_le_of_subprogram ((content_cases hcontent).1 f hf)
    have hadded := added_of_add hadd
    exact ih (h.added hordered hadded) hfold

/-- All units do, for any fuel. -/
theorem addUnits (h : FunctionsOrdered index) {fuel : Nat} {r : ByteReader}
    (hadd : addUnits sections bias fuel index r = .ok index') : FunctionsOrdered index' := by
  induction fuel generalizing index r with
  | zero =>
    cases hadd
    exact h
  | succ fuel ih =>
    rw [DebugInfo.addUnits] at hadd
    split at hadd
    · cases hadd
      exact h
    rcases htake : UnitHeader.take r with ⟨e | header, r₁⟩ <;> simp only [htake] at hadd
    · cases hadd
    obtain ⟨next, hunit, hadd⟩ := bind_eq_ok.1 hadd
    obtain ⟨root, steps, unit, lines, depth, w, -, hlines, hfold, rfl⟩ := walk_of_addUnit hunit
    -- line tables bring no functions
    have hstart : FunctionsOrdered lines := by
      intro f hf
      rw [(UnitRoot.addLines_keeps hlines).1] at hf
      exact h f hf
    exact ih (hstart.foldlM_step hfold) hadd

/-- So every function of an index that was built has its end behind its start. -/
theorem build {directory : String} {file : ObjectFile}
    (hbuild : DebugIndex.build directory file bias = .ok index) : FunctionsOrdered index := by
  obtain ⟨sections, -, hadd⟩ := bind_eq_ok.1 hbuild
  have hempty : FunctionsOrdered (.empty directory) := nofun
  exact hempty.addUnits hadd

end FunctionsOrdered

/-! ### Where functions are -/

/-- A subprogram whose attributes have different names and can all be read is the same function in
every order of the attributes. With a first address it is read if and only if it does not end before
it starts and no address is too large, and it lies between its first address and its end, both moved
by the bias; without one its range is empty. No function of an index ends before it starts. -/
theorem subprogram_range :
    (∀ (u : UnitContext) (bias : Addr) (e : Entry), Distinct e.attributes.known → e.Readable u →
      let values := valueOf? e.attributes.known
      (∀ as, as.Perm e.attributes.known →
        ({ e with attributes := ⟨as, none⟩ } : Entry).subprogram u bias = e.subprogram u bias) ∧
      (∀ low behind, startOf u values = .ok (some low) →
        EndsAt u low (values AttributeName.highPc) behind →
        ((∃ f, e.subprogram u bias = .ok f) ↔ low.toNat ≤ behind ∧ behind < 2 ^ 64 ∧
          bias.toNat + low.toNat < 2 ^ 64 ∧ bias.toNat + behind < 2 ^ 64) ∧
        ∀ f, e.subprogram u bias = .ok f →
          f.lowPc.toNat = bias.toNat + low.toNat ∧ f.highPc.toNat = bias.toNat + behind) ∧
      (startOf u values = .ok none →
        ∃ f, e.subprogram u bias = .ok f ∧ f.lowPc = .null ∧ f.highPc = .null)) ∧
    ∀ directory file bias index, DebugIndex.build directory file bias = .ok index →
      ∀ f ∈ index.functions, f.lowPc ≤ f.highPc := by
  refine ⟨fun u bias e hdistinct hreadable => ⟨?_, ?_, ?_⟩, ?_⟩
  -- the draft depends on the attributes only through their values by name
  · intro as hperm
    exact Entry.subprogram_perm hdistinct hreadable hperm bias
  · intro low behind hlow hbehind
    obtain ⟨d, hd, heq⟩ := Entry.subprogram_eq hdistinct hreadable
    rw [← hd.high] at hbehind
    rw [heq]
    exact SubprogramDraft.function_range (Except.ok.inj (hd.low.symm.trans hlow)) hbehind
  · intro hlow
    obtain ⟨d, hd, heq⟩ := Entry.subprogram_eq hdistinct hreadable
    have hnone : d.low = none := Except.ok.inj (hd.low.symm.trans hlow)
    rw [heq, SubprogramDraft.function, hnone]
    exact ⟨_, rfl, rfl, rfl⟩
  · intro directory file bias index hbuild
    exact FunctionsOrdered.build hbuild

/-- A function of sixteen bytes whose size stands before its name and its first address. -/
def sizeFirst : Entry :=
  ⟨0, Tag.subprogram, ⟨[⟨AttributeName.highPc, .unsigned 0x10⟩, ⟨AttributeName.name, .text [0x66]⟩,
    ⟨AttributeName.lowPc, .address 0x1000⟩], none⟩⟩

/-- It is the same function in the reverse order, and it cannot be read if its end is too large. -/
theorem subprogram_range_sizeFirst :
    let u : UnitContext := ⟨nestedSections, ⟨false, 4, 8⟩, ⟨0, 0⟩⟩
    (∃ f, sizeFirst.subprogram u ⟨0x5000⟩ = .ok f ∧ f.lowPc = ⟨0x6000⟩ ∧ f.highPc = ⟨0x6010⟩ ∧
      (Entry.mk 0 Tag.subprogram ⟨sizeFirst.attributes.known.reverse, none⟩).subprogram u ⟨0x5000⟩ =
        .ok f) ∧
    ¬ ∃ f, sizeFirst.subprogram u ⟨0xffffffffffffefff⟩ = .ok f := by
  intro u
  have hdistinct : Distinct sizeFirst.attributes.known := by
    unfold Distinct
    decide
  have hreadable : sizeFirst.Readable u := by
    refine ⟨rfl, fun a ha => ?_⟩
    fin_cases ha
    · exact ⟨nofun, nofun⟩
    · exact ⟨fun _ => ⟨_, rfl⟩, nofun⟩
    · exact ⟨nofun, fun _ => ⟨_, rfl⟩⟩
  have hend : EndsAt u 0x1000 (some (.unsigned 0x10)) 0x1010 := .size (n := 0x10) rfl
  -- the attributes are read backwards, with the size in front of the start
  obtain ⟨hperm, hrange, -⟩ := subprogram_range.1 u ⟨0x5000⟩ sizeFirst hdistinct hreadable
  obtain ⟨hok, hplace⟩ := hrange 0x1000 0x1010 rfl hend
  obtain ⟨f, hf⟩ := hok.2 (by decide)
  obtain ⟨hlow, hhigh⟩ := hplace f hf
  refine ⟨⟨f, hf, Addr.toNat_inj.1 hlow, Addr.toNat_inj.1 hhigh, ?_⟩, ?_⟩
  · rw [← hf]
    exact hperm _ (List.reverse_perm _)
  · obtain ⟨-, hrange', -⟩ :=
      subprogram_range.1 u ⟨0xffffffffffffefff⟩ sizeFirst hdistinct hreadable
    rw [(hrange' 0x1000 0x1010 rfl hend).1]
    decide

end SourceDebugger.DebugInfo
