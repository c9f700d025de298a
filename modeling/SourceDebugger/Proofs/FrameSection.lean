import SourceDebugger.CallFrame.Entry
import SourceDebugger.Proofs.Leb128

/-!
# The layout of the call frame section

`FramePiece` is a piece of the section as its producer writes it, and `FramePiece.bytes` is how it
is laid out. A number of variable length can be written in several ways, so a common entry comes
with the bytes that were chosen for its numbers, `CommonEntry.Encoding`.

`FrameIndex.parse_layout` says that reading the section undoes the layout.
-/

namespace SourceDebugger

open Read ByteReader Leb128

/-- The bytes of a text. -/
def Text.Utf8.encode (text : String) : List UInt8 := text.toUTF8.data.toList

/-- The bytes of valid text are read as this text. -/
theorem Text.Utf8.decode_encode (text : String) : decode (encode text) = text := by
  have hbytes : (⟨(encode text).toArray⟩ : ByteArray) = text.toUTF8 := rfl
  have hvalid : String.fromUTF8? text.toUTF8 = some text := by
    unfold String.fromUTF8?
    exact dif_pos text.isValidUTF8
  rw [decode, hbytes, hvalid]

namespace CommonEntry

/-- The bytes that late versions have behind the text: the size of an address, which is eight, and
that of a segment selector, which means nothing here. -/
def IsSizes (version : UInt8) (bs : List UInt8) : Prop :=
  if 4 ≤ version then ∃ segment, bs = [8, segment] else bs = []

/-- The bytes of a register number, which takes a single byte in the first version. -/
def IsRegister (version : UInt8) (register : Nat) (bs : List UInt8) : Prop :=
  if version = 1 then ∃ b : UInt8, b.toNat = register ∧ bs = [b] else IsUnsigned register bs

/-- The bytes of the fields of a common entry that can be written in several ways. -/
structure Encoding (entry : CommonEntry) where
  /-- The sizes of addresses and segments. -/
  sizes : List UInt8
  /-- The unit of location advances. -/
  code : List UInt8
  /-- The unit of factored offsets. -/
  data : List UInt8
  /-- The return address register. -/
  register : List UInt8
  isSizes : IsSizes entry.version sizes
  isCode : IsUnsigned entry.codeAlignment.toNat code
  isData : IsSigned entry.dataAlignment.toInt data
  isRegister : IsRegister entry.version entry.returnAddressRegister register
  register_lt : entry.returnAddressRegister < UInt16.size
  /-- The text ends at the first NUL. -/
  text_ne : 0 ∉ Text.Utf8.encode entry.augmentation

/-- The bytes of a common entry behind its mark. -/
def Encoding.bytes {entry : CommonEntry} (e : entry.Encoding) : List UInt8 :=
  entry.version :: (Text.Utf8.encode entry.augmentation ++ 0 ::
    (e.sizes ++ (e.code ++ (e.data ++ (e.register ++ entry.initialInstructions)))))

end CommonEntry

/-- A piece of the section as its producer writes it, with the addresses that are in the file. -/
inductive FramePiece where
  /-- A length of zero, which stands for nothing. -/
  | terminator
  /-- A common entry. -/
  | common (entry : CommonEntry) (encoding : entry.Encoding)
  /-- The description of an address range. -/
  | description (id : UInt32) (first size : UInt64) (instructions : List UInt8)

namespace FramePiece

/-- What stands behind the length of a piece. -/
def body : FramePiece → List UInt8
  | terminator => []
  | common _ encoding => toLittleEndian 4 FrameIndex.commonEntryMark.toNat ++ encoding.bytes
  | description id first size instructions =>
    toLittleEndian 4 id.toNat ++
      (toLittleEndian 8 first.toNat ++ (toLittleEndian 8 size.toNat ++ instructions))

/-- The bytes of a piece. -/
def bytes (p : FramePiece) : List UInt8 := toLittleEndian 4 p.body.length ++ p.body

/-- The common entry that a piece is. -/
def common? : FramePiece → Option CommonEntry
  | terminator => none
  | common entry _ => some entry
  | description .. => none

/-- Whether a piece describes an address range. -/
def isDescription : FramePiece → Bool
  | terminator => false
  | common .. => false
  | description .. => true

/-- A description does not have the mark of a common entry, and its range, moved by the bias, is in
the address space. -/
def Fits (bias : Addr) : FramePiece → Prop
  | terminator => True
  | common .. => True
  | description id first size _ =>
    id ≠ FrameIndex.commonEntryMark ∧ bias.toNat + first.toNat + size.toNat < 2 ^ 64

/-- The piece can be written in the narrow layout. -/
structure Legal (bias : Addr) (p : FramePiece) : Prop where
  length_lt : p.body.length < FrameIndex.wideLength
  fits : p.Fits bias

/-- The first entry is a common entry. -/
def Opens : List FramePiece → Prop
  | [] => True
  | terminator :: rest => Opens rest
  | common .. :: _ => True
  | description .. :: _ => False

/-- The descriptions of a section behind `seen` common entries. -/
def descriptions (bias : Addr) : Nat → List FramePiece → List FrameDescription
  | _, [] => []
  | seen, terminator :: rest => descriptions bias seen rest
  | seen, common .. :: rest => descriptions bias (seen + 1) rest
  | seen, description _ first size instructions :: rest =>
    { first := bias + first, size, instructions, commonEntry := seen - 1 } ::
      descriptions bias seen rest

/-- The common entries in front of a piece are counted for the descriptions from there on. -/
theorem descriptions_append (bias : Addr) (seen : Nat) (before after : List FramePiece) :
    descriptions bias seen (before ++ after) = descriptions bias seen before ++
      descriptions bias (seen + (before.filterMap common?).length) after := by
  induction before generalizing seen with
  | nil => rfl
  | cons p before ih =>
    cases p <;>
      simp [descriptions, common?, List.filterMap_cons, ih, Nat.add_assoc, Nat.add_comm 1]

theorem length_descriptions (bias : Addr) (seen : Nat) (pieces : List FramePiece) :
    (descriptions bias seen pieces).length = pieces.countP isDescription := by
  induction pieces generalizing seen with
  | nil => rfl
  | cons p pieces ih => cases p <;> simp [descriptions, isDescription, List.countP_cons, ih]

/-- There is a common entry in front of each description. -/
theorem Opens.filterMap_ne_nil {before after : List FramePiece} {p : FramePiece}
    (h : Opens (before ++ p :: after)) (hp : p.isDescription = true) :
    before.filterMap common? ≠ [] := by
  induction before with
  | nil => cases p <;> simp_all [Opens, isDescription]
  | cons q before ih =>
    cases q with
    | terminator => exact ih h
    | common entry e => simp [common?]
    | description id first size instructions => exact h.elim

/-- What a section says about the program. -/
def index (bias : Addr) (pieces : List FramePiece) : FrameIndex :=
  ⟨pieces.filterMap common?, descriptions bias 0 pieces, bias⟩

end FramePiece

/-- A sum that fits into 64 bits. -/
theorem Addr.add?_of_lt {a : Addr} {n : UInt64} (h : a.toNat + n.toNat < 2 ^ 64) :
    a.add? n = some (a + n) := if_pos h

namespace FrameIndex

/-- Takes the sizes of addresses and segments, which only late versions have. -/
def takeSizes (version : UInt8) : Read Unit := do
  if version ≥ 4 then
    let addressSize ← uint8
    let _segmentSize ← uint8
    if addressSize ≠ 8 then
      throw (.malformedDebugInfo s!"address size {addressSize.toNat} is not supported")

/-- Takes the number of the return address register. -/
def takeRegister (version : UInt8) : Read Nat := do
  let register ← if version = 1 then pure (← uint8).toNat else pure (← uleb128).toNat
  if register ≥ UInt16.size then
    throw (.malformedDebugInfo s!"return address register {register} is out of range")
  return register

/-- A common entry is read field by field. -/
theorem takeCommonEntry_eq : takeCommonEntry = (do
    let version ← uint8
    let text ← string
    takeSizes version
    let codeAlignment ← uleb128
    let dataAlignment ← sleb128
    let returnAddressRegister ← takeRegister version
    let r ← get
    return {
      version, codeAlignment, dataAlignment, returnAddressRegister
      augmentation := Text.Utf8.decode text, initialInstructions := r.rest }) := by
  unfold takeCommonEntry takeSizes takeRegister
  -- what stands behind a condition is, in either branch, behind that branch
  have hite {α β : Type} (c : Prop) [Decidable c] (x y : Read α) (f : α → Read β) :
      (if c then x else y) >>= f = if c then x >>= f else y >>= f := apply_ite (· >>= f) c x y
  simp only [hite, bind_assoc, pure_bind]

theorem takes_sizes {version : UInt8} {bs : List UInt8} (h : CommonEntry.IsSizes version bs) :
    Takes (takeSizes version) bs () := by
  unfold CommonEntry.IsSizes at h
  unfold takeSizes
  by_cases hlate : version ≥ 4
  · rw [if_pos hlate] at h
    obtain ⟨segment, rfl⟩ := h
    rw [if_pos hlate]
    exact (takes_uint8 8).bind ((takes_uint8 segment).map (if_neg (by decide)))
  · rw [if_neg hlate] at h
    subst h
    rw [if_neg hlate]
    exact Takes.pure ()

theorem takes_register {version : UInt8} {register : Nat} {bs : List UInt8}
    (h : CommonEntry.IsRegister version register bs) (hlt : register < UInt16.size) :
    Takes (takeRegister version) bs register := by
  have hsize : UInt16.size < 2 ^ 64 := by decide
  have hcheck : (do
      if register ≥ UInt16.size then
        throw (.malformedDebugInfo s!"return address register {register} is out of range")
      return register : Read Nat) = pure register := if_neg (by omega)
  unfold CommonEntry.IsRegister at h
  unfold takeRegister
  by_cases hfirst : version = 1
  · rw [if_pos hfirst] at h
    obtain ⟨b, rfl, rfl⟩ := h
    simp only [if_pos hfirst, pure_bind]
    exact (takes_uint8 b).map hcheck
  · rw [if_neg hfirst] at h
    have hword : (UInt64.ofNat register).toNat = register := by
      rw [UInt64.toNat_ofNat', Nat.mod_eq_of_lt (by omega)]
    simp only [if_neg hfirst, pure_bind]
    exact (h.takes (by omega)).map (hword.symm ▸ hcheck)

/-- The reader of a common entry takes its fields; what is left are the initial instructions. -/
theorem takeCommonEntry_bytes {entry : CommonEntry} (e : entry.Encoding) (position : Nat) :
    ∃ r, takeCommonEntry ⟨position, e.bytes⟩ = (.ok entry, r) := by
  have hcode := e.isCode.takes entry.codeAlignment.toNat_lt
  have hdata := e.isData.takes
  rw [UInt64.ofNat_toNat] at hcode
  rw [Int64.ofInt_toInt] at hdata
  have hbytes : e.bytes = [entry.version] ++ ((Text.Utf8.encode entry.augmentation ++ [0]) ++
      (e.sizes ++ (e.code ++ (e.data ++ (e.register ++ entry.initialInstructions))))) := by
    simp [CommonEntry.Encoding.bytes]
  -- every reader leaves what is behind its field to the next one
  rw [takeCommonEntry_eq, hbytes, (takes_uint8 _).bind_apply, (takes_string e.text_ne).bind_apply,
    (takes_sizes e.isSizes).bind_apply, hcode.bind_apply, hdata.bind_apply,
    (takes_register e.isRegister e.register_lt).bind_apply, Text.Utf8.decode_encode]
  exact ⟨_, rfl⟩

/-- The body of a common entry adds this entry. -/
theorem addEntry_common (index : FrameIndex) (offset : Nat) (entry : CommonEntry)
    (e : entry.Encoding) :
    index.addEntry (FramePiece.common entry e).body offset =
      .ok { index with commonEntries := index.commonEntries ++ [entry] } := by
  have hmark := takes_uint32 commonEntryMark.toNat_lt
  rw [UInt32.ofNat_toNat] at hmark
  obtain ⟨r, hentry⟩ :=
    takeCommonEntry_bytes e (0 + (toLittleEndian 4 commonEntryMark.toNat).length)
  unfold addEntry FramePiece.body ByteReader.ofList
  simp only [hmark _ _, hentry, bind, Except.bind, if_true]
  rfl

/-- The body of a description adds this description, which belongs to the last common entry. -/
theorem addEntry_description (index : FrameIndex) (offset : Nat) {id : UInt32} {first size : UInt64}
    (instructions : List UInt8) (hid : id ≠ commonEntryMark) (hsome : index.commonEntries ≠ [])
    (hrange : index.bias.toNat + first.toNat + size.toNat < 2 ^ 64) :
    index.addEntry (FramePiece.description id first size instructions).body offset =
      .ok { index with
        descriptions := index.descriptions ++
          [⟨index.bias + first, size, instructions, index.commonEntries.length - 1⟩] } := by
  have hmark := takes_uint32 id.toNat_lt
  have hfirst := takes_uint64 first.toNat_lt
  have hsize := takes_uint64 size.toNat_lt
  rw [UInt32.ofNat_toNat] at hmark
  rw [UInt64.ofNat_toNat] at hfirst hsize
  -- neither sum leaves the address space
  have hsum : index.bias.add? first = some (index.bias + first) := Addr.add?_of_lt (by omega)
  have hlast : (index.bias + first).add? size = some (index.bias + first + size) := by
    refine Addr.add?_of_lt ?_
    rwa [Addr.toNat_add?_of_eq_some hsum]
  have hempty : index.commonEntries.isEmpty = false := by
    rwa [List.isEmpty_eq_false_iff]
  unfold addEntry FramePiece.body ByteReader.ofList
  simp only [hmark _ _, hfirst _ _, hsize _ _, hsum, hlast, hempty, bind, Except.bind,
    Option.bind_some, if_neg hid]
  rfl

/-- A length of zero in front is skipped. -/
theorem addEntries_zero (index : FrameIndex) (offset : Nat) {data : List UInt8}
    (h : 4 ≤ data.length) (hzero : littleEndian (data.take 4) = 0) :
    index.addEntries offset data = index.addEntries (offset + 4) (data.drop 4) := by
  rw [addEntries, dif_neg (by omega), hzero]
  rfl

/-- The entry in front is added before those behind it. -/
theorem addEntries_entry (index : FrameIndex) (offset : Nat) {data : List UInt8} {length : Nat}
    (hlength : littleEndian (data.take 4) = length) (hne : length ≠ 0) (hwide : length ≠ wideLength)
    (h : 4 + length ≤ data.length) :
    index.addEntries offset data =
      match index.addEntry ((data.drop 4).take length) offset with
      | .error e => .error e
      | .ok index => index.addEntries (offset + 4 + length) ((data.drop 4).drop length) := by
  rw [addEntries, dif_neg (by omega), hlength]
  dsimp only
  have hlong : ¬ (data.drop 4).length < length := by
    rw [List.length_drop]
    omega
  rw [if_neg hwide, if_neg hne]
  exact if_neg hlong

/-- An entry behind its length is added before those behind it. -/
theorem addEntries_append (index : FrameIndex) (offset : Nat) {body : List UInt8}
    (rest : List UInt8) (hne : body ≠ []) (hlength : body.length < wideLength) :
    index.addEntries offset (toLittleEndian 4 body.length ++ body ++ rest) =
      match index.addEntry body offset with
      | .error e => .error e
      | .ok index => index.addEntries (offset + 4 + body.length) rest := by
  have htake : (toLittleEndian 4 body.length ++ (body ++ rest)).take 4 =
      toLittleEndian 4 body.length := List.take_left' (length_toLittleEndian 4 _)
  have hdrop : (toLittleEndian 4 body.length ++ (body ++ rest)).drop 4 = body ++ rest :=
    List.drop_left' (length_toLittleEndian 4 _)
  have hword : littleEndian ((toLittleEndian 4 body.length ++ (body ++ rest)).take 4) =
      body.length := by
    rw [htake, littleEndian_toLittleEndian, Nat.mod_eq_of_lt (Nat.lt_trans hlength (by decide))]
  have hlong : 4 + body.length ≤ (toLittleEndian 4 body.length ++ (body ++ rest)).length := by
    rw [List.length_append, List.length_append, length_toLittleEndian]
    omega
  have hpos : body.length ≠ 0 := fun h => hne (List.length_eq_zero_iff.1 h)
  rw [List.append_assoc, addEntries_entry index offset hword hpos hlength.ne hlong, hdrop,
    List.take_left, List.drop_left]

/-- A terminator is skipped. -/
theorem addEntries_terminator (index : FrameIndex) (offset : Nat) (rest : List UInt8) :
    index.addEntries offset (FramePiece.terminator.bytes ++ rest) =
      index.addEntries (offset + 4) rest := by
  have hbytes : FramePiece.terminator.bytes = [0, 0, 0, 0] := rfl
  rw [hbytes, addEntries_zero index offset (by simp) rfl]
  rfl

/-- The entries of a section are added in their order. -/
theorem addEntries_bytes {pieces : List FramePiece} {trailing : List UInt8} {index : FrameIndex}
    (offset : Nat) (hlegal : ∀ p ∈ pieces, p.Legal index.bias)
    (hopens : index.commonEntries = [] → FramePiece.Opens pieces)
    (htrailing : trailing.length < 4) :
    index.addEntries offset (pieces.flatMap FramePiece.bytes ++ trailing) =
      .ok ⟨index.commonEntries ++ pieces.filterMap FramePiece.common?,
        index.descriptions ++ FramePiece.descriptions index.bias index.commonEntries.length pieces,
        index.bias⟩ := by
  -- the index that was built so far goes along, and knows whether there was a common entry
  induction pieces generalizing index offset with
  | nil =>
    rw [List.flatMap_nil, List.nil_append, addEntries, dif_pos htrailing]
    simp [FramePiece.descriptions]
  | cons p pieces ih =>
    obtain ⟨hp, hpieces⟩ := List.forall_mem_cons.1 hlegal
    rw [List.flatMap_cons, List.append_assoc]
    cases p with
    | terminator =>
      rw [addEntries_terminator, ih (offset + 4) hpieces hopens]
      rfl
    | common entry e =>
      have hne : (FramePiece.common entry e).body ≠ [] := by simp [FramePiece.body, toLittleEndian]
      -- from here on a description has a common entry in front of it
      have hrest := @ih { index with commonEntries := index.commonEntries ++ [entry] }
        (offset + 4 + (FramePiece.common entry e).body.length) hpieces (by simp)
      rw [FramePiece.bytes, addEntries_append index offset _ hne hp.length_lt, addEntry_common]
      dsimp only
      rw [hrest]
      simp [FramePiece.common?, FramePiece.descriptions]
    | description id first size instructions =>
      have hne : (FramePiece.description id first size instructions).body ≠ [] := by
        simp [FramePiece.body, toLittleEndian]
      obtain ⟨hid, hrange⟩ := hp.fits
      -- a description opens nothing, so the index has a common entry already
      have hrest := @ih { index with descriptions := index.descriptions ++
          [⟨index.bias + first, size, instructions, index.commonEntries.length - 1⟩] }
        (offset + 4 + (FramePiece.description id first size instructions).body.length) hpieces
        (fun h => (hopens h).elim)
      rw [FramePiece.bytes, addEntries_append index offset _ hne hp.length_lt,
        addEntry_description index offset instructions hid hopens hrange]
      dsimp only
      rw [hrest]
      simp [FramePiece.common?, FramePiece.descriptions, List.filterMap_cons]

/-- Reading a section undoes its layout: the result has the common entries and the descriptions in
their order. The description behind some pieces is moved by the bias, and it belongs to the last
common entry among these pieces. -/
theorem parse_layout {bias : Addr} {pieces : List FramePiece} {trailing : List UInt8}
    (hlegal : ∀ p ∈ pieces, p.Legal bias) (hopens : FramePiece.Opens pieces)
    (htrailing : trailing.length < 4) :
    parse (pieces.flatMap FramePiece.bytes ++ trailing) bias =
        .ok (FramePiece.index bias pieces) ∧
      ∀ before id first size instructions after,
        pieces = before ++ FramePiece.description id first size instructions :: after →
        ∃ d entry,
          (FramePiece.index bias pieces).descriptions[before.countP FramePiece.isDescription]? =
            some d ∧
          d.first.toNat = bias.toNat + first.toNat ∧ d.size = size ∧
          d.instructions = instructions ∧
          (before.filterMap FramePiece.common?).getLast? = some entry ∧
          (FramePiece.index bias pieces).commonEntries[d.commonEntry]? = some entry := by
  have hparse := @addEntries_bytes pieces trailing ⟨[], [], bias⟩ 0 hlegal (fun _ => hopens)
    htrailing
  refine ⟨by simpa [parse, FramePiece.index] using hparse, ?_⟩
  rintro before id first size instructions after rfl
  -- a common entry comes before the description
  have hsome : before.filterMap FramePiece.common? ≠ [] := hopens.filterMap_ne_nil rfl
  obtain ⟨entry, hentry⟩ := Option.isSome_iff_exists.1 (List.getLast?_isSome.2 hsome)
  obtain ⟨-, hrange⟩ := (hlegal (.description id first size instructions) (by simp)).fits
  -- so the number of the last one does not underflow
  refine ⟨⟨bias + first, size, instructions, (before.filterMap FramePiece.common?).length - 1⟩,
    entry, ?_, ?_, rfl, rfl, hentry, ?_⟩
  · rw [FramePiece.index, FramePiece.descriptions_append, Nat.zero_add,
      ← FramePiece.length_descriptions bias 0 before]
    exact List.getElem?_append_right (Nat.le_refl _) |>.trans (by simp [FramePiece.descriptions])
  · exact Addr.toNat_add?_of_eq_some (Addr.add?_of_lt (by omega))
  · have hlt : (before.filterMap FramePiece.common?).length - 1 <
        (before.filterMap FramePiece.common?).length := Nat.sub_one_lt (by simpa using hsome)
    rw [FramePiece.index, List.filterMap_append]
    dsimp only
    rw [List.getElem?_append_left hlt, ← List.getLast?_eq_getElem?, hentry]

/-- Two common entries with a description each, of the first and of the fourth version, with a
separator between them and two bytes behind them. -/
theorem parse_two_versions :
    parse ([12, 0, 0, 0, 255, 255, 255, 255, 1, 0, 1, 0x78, 16, 0x0c, 0x07, 0x08] ++
        [21, 0, 0, 0, 0, 0, 0, 0, 0, 0x10, 0, 0, 0, 0, 0, 0, 0x10, 0, 0, 0, 0, 0, 0, 0, 0x41] ++
        [0, 0, 0, 0] ++
        [13, 0, 0, 0, 255, 255, 255, 255, 4, 0x7a, 0x52, 0, 8, 0, 4, 0x7c, 16] ++
        [20, 0, 0, 0, 16, 0, 0, 0, 0, 0x20, 0, 0, 0, 0, 0, 0, 0x20, 0, 0, 0, 0, 0, 0, 0] ++
        [0, 0]) ⟨0x555500000000⟩ =
      .ok ⟨[⟨1, "", 1, -8, 16, [0x0c, 0x07, 0x08]⟩, ⟨4, "zR", 4, -4, 16, []⟩],
        [⟨⟨0x555500001000⟩, 0x10, [0x41], 0⟩, ⟨⟨0x555500002000⟩, 0x20, [], 1⟩],
        ⟨0x555500000000⟩⟩ := by
  -- the section is one of pieces: their bytes are those above
  have hempty : Text.Utf8.encode "" = [] := by decide
  have htext : Text.Utf8.encode "zR" = [0x7a, 0x52] := by decide
  have number (b : UInt8) (hb : b &&& 0x80 = 0) : IsUnsigned (group b) [b] :=
    ⟨.last hb, by simp [maxLength], rfl⟩
  have signed (b : UInt8) (hb : b &&& 0x80 = 0) : IsSigned (signedValue [b]) [b] :=
    ⟨.last hb, by simp [maxLength], rfl⟩
  obtain ⟨first, hfirst⟩ : ∃ e : CommonEntry.Encoding ⟨1, "", 1, -8, 16, [0x0c, 0x07, 0x08]⟩,
      (FramePiece.common _ e).body =
        [255, 255, 255, 255, 1, 0, 1, 0x78, 16, 0x0c, 0x07, 0x08] := by
    refine ⟨⟨[], [1], [0x78], [16], by simp [CommonEntry.IsSizes], number 1 rfl, signed 0x78 rfl,
      ⟨16, rfl, rfl⟩, by decide, by simp [hempty]⟩, ?_⟩
    simp only [FramePiece.body, CommonEntry.Encoding.bytes, hempty]
    rfl
  obtain ⟨second, hsecond⟩ : ∃ e : CommonEntry.Encoding ⟨4, "zR", 4, -4, 16, []⟩,
      (FramePiece.common _ e).body = [255, 255, 255, 255, 4, 0x7a, 0x52, 0, 8, 0, 4, 0x7c, 16] := by
    refine ⟨⟨[8, 0], [4], [0x7c], [16], ⟨0, rfl⟩, number 4 rfl, signed 0x7c rfl, number 16 rfl,
      by decide, by simp [htext]⟩, ?_⟩
    simp only [FramePiece.body, CommonEntry.Encoding.bytes, htext]
    rfl
  have hlegal : ∀ p ∈ [FramePiece.common _ first, .description 0 0x1000 0x10 [0x41], .terminator,
      .common _ second, .description 16 0x2000 0x20 []], p.Legal ⟨0x555500000000⟩ := by
    simp only [List.forall_mem_cons]
    refine ⟨⟨?_, trivial⟩, ⟨by decide, by decide, by decide⟩, ⟨by decide, trivial⟩,
      ⟨?_, trivial⟩, ⟨by decide, by decide, by decide⟩, by simp⟩
    · rw [hfirst]
      decide
    · rw [hsecond]
      decide
  have hparse := @parse_layout _ _ [0, 0] hlegal trivial (by decide)
  have hbytes := hparse.1
  simp only [List.flatMap_cons, List.flatMap_nil, FramePiece.bytes, hfirst, hsecond] at hbytes
  exact hbytes

end FrameIndex

end SourceDebugger
