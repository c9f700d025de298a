import Mathlib
import SourceDebugger.ObjectFile.Contents
import SourceDebugger.Proofs.Reading

/-!
# Compressed sections

What a compressed section holds, for any decoder of streams. The output of an `Inflater` is read in
parts of any size up to the announced length, and it has to be as long as that.

* `Inflater.compressed_exact`: a section whose stream gives the payload holds it if the length is
  announced that it has, and fails if more is announced; and files in which a section is stored in
  one or the other form hold the same.
* `Inflater.zlib`: the decoder that sections are read with.
-/

namespace SourceDebugger.Compression

open ByteReader

/-! ### Headers -/

/-- The header of a compressed section: the mark and the announced length in eight bytes, the
highest first. -/
def header (n : UInt64) : List UInt8 := sectionMark ++ (toLittleEndian 8 n.toNat).reverse

/-- Data that is long enough for a header and starts with the mark. -/
def Headed (data : List UInt8) : Prop :=
  sectionHeaderLength ≤ data.length ∧ data.take 4 = sectionMark

instance (data : List UInt8) : Decidable (Headed data) := inferInstanceAs (Decidable (_ ∧ _))

/-- Numbers with the highest byte first are those with the lowest byte first, read backwards. -/
theorem bigEndian_eq (bytes : List UInt8) : bigEndian bytes = littleEndian bytes.reverse := by
  induction bytes using List.reverseRecOn with
  | nil => rfl
  | append_singleton bytes b ih =>
    rw [bigEndian, List.foldl_append, List.foldl_cons, List.foldl_nil, ← bigEndian, ih,
      List.reverse_append, List.reverse_singleton, List.singleton_append, littleEndian,
      Nat.add_comm]

variable (n : UInt64) (z : List UInt8)

/-- The header has a fixed length, whatever size it announces. -/
theorem length_header : (header n).length = sectionHeaderLength := by
  simp [header, length_toLittleEndian, sectionMark, sectionHeaderLength]

/-- What starts with a header is recognised as compressed. -/
theorem headed_header : Headed (header n ++ z) := by
  refine ⟨?_, rfl⟩
  rw [List.length_append, length_header]
  exact Nat.le_add_right _ _

/-- Behind the header is the stream. -/
theorem drop_header : (header n ++ z).drop sectionHeaderLength = z := by
  rw [← length_header n, List.drop_left]

/-- The length that is announced. -/
theorem bigEndian_header : bigEndian (((header n ++ z).drop 4).take 8) = n.toNat := by
  have hbytes : ((header n ++ z).drop 4).take 8 = (toLittleEndian 8 n.toNat).reverse := by
    have hlength : (toLittleEndian 8 n.toNat).reverse.length = 8 := by
      rw [List.length_reverse, length_toLittleEndian]
    rw [header, List.append_assoc, List.drop_left' (by rfl), List.take_left' hlength]
  rw [hbytes, bigEndian_eq, List.reverse_reverse, littleEndian_toLittleEndian]
  exact Nat.mod_eq_of_lt n.toNat_lt

/-- Headed data consists of a header and a stream. -/
theorem headed_iff {data : List UInt8} : Headed data ↔ ∃ n z, data = header n ++ z := by
  constructor
  · rintro ⟨hlength, hmark⟩
    unfold sectionHeaderLength at hlength
    have hlengthBytes : ((data.drop 4).take 8).reverse.length = 8 := by
      rw [List.length_reverse, List.length_take, List.length_drop]
      omega
    have hbytes := toLittleEndian_littleEndian ((data.drop 4).take 8).reverse
    have hbound := littleEndian_lt ((data.drop 4).take 8).reverse
    rw [hlengthBytes] at hbytes hbound
    refine ⟨.ofNat (littleEndian ((data.drop 4).take 8).reverse), (data.drop 4).drop 8, ?_⟩
    rw [header, UInt64.toNat_ofNat_of_lt' hbound, hbytes, List.reverse_reverse, ← hmark,
      List.append_assoc, List.take_append_drop, List.take_append_drop]
  · rintro ⟨n, z, rfl⟩
    exact headed_header n z

/-! ### Decoders -/

/-- A decoder of streams, which hands out the output in parts. -/
structure Inflater where
  /-- What is still to be decoded. -/
  State : Type
  /-- The start of a stream. -/
  start : List UInt8 → State
  /-- The next bytes of the output, and the state behind them. No bytes are the end of it. -/
  read : State → Nat → Except String (List UInt8 × State)
  /-- There is room for what is handed out. -/
  length_read {s s' : State} {room : Nat} {bytes : List UInt8} :
    read s room = .ok (bytes, s') → bytes.length ≤ room

namespace Inflater

/-- Reads up to `limit` further bytes behind those that are there. How much room a part has depends
on these; there is always some. -/
def readUpTo (I : Inflater) (room : Nat → Nat) (s : I.State) (output : List UInt8) (limit : Nat) :
    Except String (List UInt8) :=
  if limit = 0 then .ok output
  else
    match I.read s (min (room output.length + 1) limit) with
    | .error text => .error text
    | .ok ([], _) => .ok output
    | .ok (b :: bytes, s') =>
      I.readUpTo room s' (output ++ b :: bytes) (limit - (b :: bytes).length)
termination_by limit
decreasing_by
  rw [List.length_cons]
  omega

/-- The plain contents of a section that may be compressed. -/
def inflateSection (I : Inflater) (room : Nat → Nat) (data : List UInt8) :
    Except DebugError (List UInt8) :=
  if data.length < sectionHeaderLength ∨ data.take 4 ≠ sectionMark then .ok data
  else
    let length := bigEndian ((data.drop 4).take 8)
    match I.readUpTo room (I.start (data.drop sectionHeaderLength)) [] length with
    | .error text => .error (badStream text)
    | .ok output =>
      if output.length ≠ length then
        .error (.malformedDebugInfo <|
          s!"zlib stream inflates to {output.length} bytes, the header announces {length}")
      else .ok output

/-- The plain contents of a section by its name; none if it is in neither form in the file. -/
def loadSection (I : Inflater) (room : Nat → Nat) (file : ObjectFile) (name : String) :
    Except DebugError (Option (List UInt8)) :=
  match file.sectionNamed? name with
  | some s => (ObjectFile.plainContents file.layout s).map some
  | none =>
    match (compressedName? name).bind file.sectionNamed? with
    | none => .ok none
    | some s =>
      match s.data with
      | none => ObjectFile.malformed "Invalid ELF section size or offset"
      | some data => (I.inflateSection room data).map some

/-- A stream gives a payload, and fails behind it if there is a fault. Each part with room for
something is the next part of the payload, and is only empty at the end of it. -/
def Gives (I : Inflater) (stream payload : List UInt8) (fault : Option String) : Prop :=
  ∃ Left : I.State → List UInt8 → Prop, Left (I.start stream) payload ∧
    ∀ s left room, Left s left → 0 < room →
      (∃ bytes rest s', I.read s room = .ok (bytes, s') ∧ bytes ≠ [] ∧ left = bytes ++ rest ∧
        Left s' rest) ∨
      (left = [] ∧ match fault with
        | none => ∃ s', I.read s room = .ok ([], s')
        | some text => I.read s room = .error text)

/-- A stream gives a payload without a fault. -/
def Inflates (I : Inflater) (stream payload : List UInt8) : Prop := I.Gives stream payload none

variable {I : Inflater} {room : Nat → Nat} {n : UInt64} {z p : List UInt8}

/-! ### Reading with a limit -/

/-- What there is up to a limit of a payload with a fault behind it. -/
def upTo (payload : List UInt8) (fault : Option String) (limit : Nat) :
    Except String (List UInt8) :=
  if limit ≤ payload.length then .ok (payload.take limit)
  else match fault with
    | none => .ok payload
    | some text => .error text

/-- A part within the limit goes to the output. -/
theorem upTo_append {bytes : List UInt8} {limit : Nat} (hcount : bytes.length ≤ limit)
    (rest output : List UInt8) (fault : Option String) :
    (upTo (bytes ++ rest) fault limit).map (output ++ ·) =
      (upTo rest fault (limit - bytes.length)).map (output ++ bytes ++ ·) := by
  have hwithin : limit ≤ (bytes ++ rest).length ↔ limit - bytes.length ≤ rest.length := by
    rw [List.length_append]
    omega
  simp only [upTo, hwithin]
  split
  · simp [Except.map, List.take_append, List.take_of_length_le hcount]
  · cases fault <;> simp [Except.map]

/-- The parts that are read make up the payload up to the limit. A fault is met if the limit lies
behind the payload. -/
theorem Gives.readUpTo_eq {fault : Option String} (h : I.Gives z p fault) (limit : Nat) :
    I.readUpTo room (I.start z) [] limit = upTo p fault limit := by
  obtain ⟨Left, hstart, hstep⟩ := h
  -- by induction on the limit, as each part takes its length off it, whatever there is already
  have hread : ∀ (limit : Nat) (s : I.State) (left output : List UInt8), Left s left →
      I.readUpTo room s output limit = (upTo left fault limit).map (output ++ ·) := by
    intro limit
    induction limit using Nat.strongRecOn with
    | ind limit ih =>
      intro s left output hleft
      rw [readUpTo]
      split
      · rename_i hlimit
        simp [hlimit, upTo, Except.map]
      · rename_i hlimit
        rcases hstep s left (min (room output.length + 1) limit) hleft (by omega) with
          ⟨bytes, rest, s', hbytes, hne, rfl, hrest⟩ | ⟨rfl, hend⟩
        · obtain ⟨b, bytes, rfl⟩ := List.exists_cons_of_ne_nil hne
          have hcount : (b :: bytes).length ≤ limit :=
            (I.length_read hbytes).trans (min_le_right _ _)
          -- the limit gets smaller, as the part is not empty
          have hpart : 0 < (b :: bytes).length := Nat.succ_pos _
          rw [hbytes, upTo_append hcount]
          exact ih (limit - (b :: bytes).length) (by omega) s' rest (output ++ b :: bytes) hrest
        · cases fault with
          | none =>
            obtain ⟨s', hnothing⟩ := hend
            simp [upTo, hlimit, hnothing, Except.map]
          | some text =>
            have htext : I.read s _ = .error text := hend
            simp [upTo, hlimit, htext, Except.map]
  rw [hread limit _ _ _ hstart]
  rcases upTo p fault limit with text | output <;> rfl

/-- Without a fault, the payload is cut at the limit. -/
theorem Inflates.readUpTo_eq (h : I.Inflates z p) (limit : Nat) :
    I.readUpTo room (I.start z) [] limit = .ok (p.take limit) := by
  rw [Gives.readUpTo_eq h, upTo]
  split
  · rfl
  · rw [List.take_of_length_le (by omega)]

/-! ### Sections -/

/-- What a section with a header inflates to: the stream is read up to the announced size and at
most one byte further, and must have exactly this size. -/
theorem inflateSection_header : I.inflateSection room (header n ++ z) =
    match I.readUpTo room (I.start z) [] n.toNat with
    | .error text => .error (badStream text)
    | .ok output =>
      if output.length ≠ n.toNat then
        .error (.malformedDebugInfo <|
          s!"zlib stream inflates to {output.length} bytes, the header announces {n.toNat}")
      else .ok output := by
  obtain ⟨hlength, hmark⟩ := headed_header n z
  rw [inflateSection, if_neg (not_or.2 ⟨hlength.not_gt, not_not.2 hmark⟩), drop_header,
    bigEndian_header]

/-- Contents that are given have the size that the header announces. -/
theorem length_of_inflateSection {output : List UInt8}
    (h : I.inflateSection room (header n ++ z) = .ok output) : output.length = n.toNat := by
  rw [inflateSection_header] at h
  split at h
  · cases h
  · split at h
    · cases h
    · rename_i hlength
      cases h
      exact not_not.1 hlength

/-- The payload is cut at the announced length. -/
theorem Inflates.inflateSection_eq_ok (h : I.Inflates z p) (hn : n.toNat ≤ p.length) :
    I.inflateSection room (header n ++ z) = .ok (p.take n.toNat) := by
  rw [inflateSection_header, h.readUpTo_eq]
  simp [hn]

/-- A stream of the announced size inflates to its contents. -/
theorem Inflates.inflateSection_eq_self (h : I.Inflates z p) (hn : n.toNat = p.length) :
    I.inflateSection room (header n ++ z) = .ok p := by
  rw [h.inflateSection_eq_ok hn.le, hn, List.take_length]

/-- A payload that is shorter than the announced length is refused. -/
theorem Inflates.inflateSection_eq_error (h : I.Inflates z p) (hn : p.length < n.toNat) :
    I.inflateSection room (header n ++ z) = .error (.malformedDebugInfo
      s!"zlib stream inflates to {p.length} bytes, the header announces {n.toNat}") := by
  rw [inflateSection_header, h.readUpTo_eq, List.take_of_length_le hn.le]
  simp [hn.ne]

/-! ### Names -/

/-- The name of a section with debug information. -/
def plainName (x : String) : String := ".debug_" ++ x

/-- The name of its compressed form. -/
def compressedName (x : String) : String := ".zdebug_" ++ x

/-- A name has a compressed form if it starts as the names of debug sections do. -/
theorem compressedName?_eq_some_iff {name c : String} :
    compressedName? name = some c ↔ ∃ x, name = plainName x ∧ c = compressedName x := by
  unfold compressedName?
  simp only [Option.ite_none_right_eq_some, Option.some.injEq, List.isPrefixOf_iff_prefix]
  constructor
  · rintro ⟨⟨cs, hcs⟩, rfl⟩
    refine ⟨String.ofList cs, ?_, ?_⟩
    · rw [← String.toList_inj, ← hcs, plainName, String.toList_append,
        String.toList_ofList (l := cs)]
    · rw [← hcs, List.drop_left, compressedName]
  · rintro ⟨x, rfl, rfl⟩
    rw [plainName, String.toList_append]
    refine ⟨List.prefix_append _ _, ?_⟩
    rw [List.drop_left, String.ofList_toList, compressedName]

/-- No plain name is the compressed one of any section. -/
theorem plainName_ne_compressedName (x y : String) : plainName x ≠ compressedName y := by
  intro h
  have hchars := congrArg String.toList h
  simp [plainName, compressedName] at hchars

/-- Different sections have different compressed names. -/
theorem compressedName_inj {x y : String} : compressedName x = compressedName y ↔ x = y := by
  simp [compressedName]

/-! ### Files -/

/-- A file in which a section stands between others. -/
def place (file : ObjectFile) (before : List Section) (s : Section) (after : List Section) :
    ObjectFile := { file with sections := before ++ s :: after }

/-- A section as it is stored plain. -/
def plainSection (s : Section) (x : String) (p : List UInt8) : Section :=
  { s with name := some (plainName x), data := some p }

/-- The same section as it is stored compressed. -/
def compressedSection (s : Section) (x : String) (n : UInt64) (z : List UInt8) : Section :=
  { s with name := some (compressedName x), data := some (header n ++ z) }

/-- No other section shadows one form of a section and not the other: there is a plain one before it,
which is found in either case, or there is no plain one behind it and no compressed one before it. -/
def Unshadowed (before after : List Section) (x : String) : Prop :=
  (∃ t ∈ before, t.name = some (plainName x)) ∨
    ((∀ t ∈ after, t.name ≠ some (plainName x)) ∧ ∀ t ∈ before, t.name ≠ some (compressedName x))

variable {file file' : ObjectFile} {before after : List Section} {s s' : Section} {x name : String}

/-- A section of another name does not matter. -/
theorem sectionNamed?_place_of_ne (hs : s.name ≠ some name) (hs' : s'.name ≠ some name) :
    (place file before s after).sectionNamed? name =
      (place file before s' after).sectionNamed? name := by
  simp [ObjectFile.sectionNamed?, place, List.find?_append, hs, hs']

/-- Nor does one of the same name if there is one before it. -/
theorem sectionNamed?_place_of_mem (file : ObjectFile) (after : List Section)
    (h : ∃ t ∈ before, t.name = some name) :
    ∃ t, ∀ s, (place file before s after).sectionNamed? name = some t := by
  have hfind : (before.find? (·.name == some name)).isSome = true := by
    rw [List.find?_isSome]
    simpa using h
  obtain ⟨t, ht⟩ := Option.isSome_iff_exists.1 hfind
  refine ⟨t, fun s => ?_⟩
  rw [ObjectFile.sectionNamed?, place, List.find?_append, ht, Option.some_or]

/-- A section is found by its name if none before it has the same. -/
theorem sectionNamed?_place_self (hs : s.name = some name)
    (hbefore : ∀ t ∈ before, t.name ≠ some name) :
    (place file before s after).sectionNamed? name = some s := by
  have hnone : before.find? (·.name == some name) = none := by
    rw [List.find?_eq_none]
    simpa using hbefore
  rw [ObjectFile.sectionNamed?, place, List.find?_append, hnone, Option.none_or,
    List.find?_cons_of_pos (by simpa using hs)]

/-- A name that no section has is not found. -/
theorem sectionNamed?_place_none (hs : s.name ≠ some name)
    (hbefore : ∀ t ∈ before, t.name ≠ some name) (hafter : ∀ t ∈ after, t.name ≠ some name) :
    (place file before s after).sectionNamed? name = none := by
  rw [ObjectFile.sectionNamed?, place, List.find?_eq_none]
  intro t ht
  rcases List.mem_append.1 ht with ht | ht
  · simpa using hbefore t ht
  · rcases List.mem_cons.1 ht with rfl | ht
    · simpa using hs
    · simpa using hafter t ht

/-- Only the two sections that are looked up matter, and the second one only if the first one is not
there. -/
theorem loadSection_congr (hlayout : file.layout = file'.layout)
    (hplain : file.sectionNamed? name = file'.sectionNamed? name)
    (hcompressed : file.sectionNamed? name = none → ∀ c, compressedName? name = some c →
      file.sectionNamed? c = file'.sectionNamed? c) :
    I.loadSection room file name = I.loadSection room file' name := by
  unfold loadSection
  rw [← hplain, ← hlayout]
  rcases hfind : file.sectionNamed? name with _ | t
  · rcases hname : compressedName? name with _ | c
    · rfl
    · rw [Option.bind_some, Option.bind_some, hcompressed hfind c hname]
  · rfl

/-- A section that is not marked as compressed has its bytes as contents. -/
theorem plainContents_plainSection (layout : ObjectLayout)
    (hflags : s.flags / ObjectFile.compressedFlag % 2 = 0) :
    ObjectFile.plainContents layout (plainSection s x p) = .ok p := by
  simp [ObjectFile.plainContents, plainSection, hflags, plainName]
  rfl

/-- If there is a section of the plain name, its contents are used. -/
theorem loadSection_plain (hflags : s.flags / ObjectFile.compressedFlag % 2 = 0)
    (hfind : file.sectionNamed? (plainName x) = some (plainSection s x p)) :
    I.loadSection room file (plainName x) = .ok (some p) := by
  rw [loadSection, hfind]
  simp only [plainContents_plainSection file.layout hflags]
  rfl

/-- If there is none, the section of the compressed name is inflated. -/
theorem loadSection_compressed (h : I.Inflates z p) (hn : n.toNat = p.length)
    (hnone : file.sectionNamed? (plainName x) = none)
    (hfind : file.sectionNamed? (compressedName x) = some (compressedSection s x n z)) :
    I.loadSection room file (plainName x) = .ok (some p) := by
  have hname := compressedName?_eq_some_iff.2 ⟨x, rfl, rfl⟩
  rw [loadSection, hnone, hname, Option.bind_some, hfind]
  simp only [compressedSection, h.inflateSection_eq_self hn]
  rfl

/-- In which form a section is stored matters for no name but that of the compressed form. -/
theorem Inflates.loadSection_eq (h : I.Inflates z p) (hn : n.toNat = p.length)
    (hflags : s.flags / ObjectFile.compressedFlag % 2 = 0) (hplace : Unshadowed before after x)
    (hname : name ≠ compressedName x) :
    I.loadSection room (place file before (compressedSection s x n z) after) name =
      I.loadSection room (place file before (plainSection s x p) after) name := by
  by_cases hx : name = plainName x
  · subst hx
    -- a plain section before it is found in both files
    by_cases hmem : ∃ t ∈ before, t.name = some (plainName x)
    · obtain ⟨t, ht⟩ := sectionNamed?_place_of_mem file after hmem
      refine loadSection_congr rfl (by rw [ht, ht]) fun hnone => ?_
      rw [ht] at hnone
      cases hnone
    · obtain ⟨hafter, hcompressed⟩ := hplace.resolve_left hmem
      have hbefore : ∀ t ∈ before, t.name ≠ some (plainName x) := fun t ht hname =>
        hmem ⟨t, ht, hname⟩
      have hother : (compressedSection s x n z).name ≠ some (plainName x) := fun hname =>
        plainName_ne_compressedName x x (Option.some.inj hname).symm
      rw [loadSection_compressed h hn (sectionNamed?_place_none hother hbefore hafter)
          (sectionNamed?_place_self rfl hcompressed),
        loadSection_plain hflags (sectionNamed?_place_self rfl hbefore)]
  · -- neither form is found under another name, nor under the compressed form of one
    have hne : ∀ name, name ≠ plainName x → name ≠ compressedName x →
        (place file before (compressedSection s x n z) after).sectionNamed? name =
          (place file before (plainSection s x p) after).sectionNamed? name := by
      intro name hplain hcompressed
      exact sectionNamed?_place_of_ne (fun h => hcompressed (Option.some.inj h).symm)
        (fun h => hplain (Option.some.inj h).symm)
    refine loadSection_congr rfl (hne name hx hname) fun _ c hc => ?_
    obtain ⟨y, rfl, rfl⟩ := compressedName?_eq_some_iff.1 hc
    refine hne _ (plainName_ne_compressedName x y).symm fun hy => ?_
    exact hx (congrArg plainName (compressedName_inj.1 hy))

/-! ### The decoder that is run -/

/-- What is handed out of a stream before the fault in it, if there is one: whole windows if the
stream is corrupt. -/
def handedOut (stream : List UInt8) : List UInt8 × Option String :=
  let (output, ending) := inflate stream none .zeros
  match ending with
  | .finished | .full => (output, none)
  | .truncated => (output, some "incomplete deflate stream")
  | .corrupt =>
    (output.take (windowSize * (output.length / windowSize)), some "corrupt deflate stream")

/-- The decoder that sections are read with. -/
def zlib : Inflater where
  State := List UInt8 × Option String
  start := handedOut
  read s room :=
    match s with
    | ([], none) => .ok ([], s)
    | ([], some text) => .error text
    | (b :: left, fault) => .ok ((b :: left).take room, ((b :: left).drop room, fault))
  length_read {s s' room bytes} h := by
    rcases s with ⟨_ | ⟨b, left⟩, _ | text⟩ <;> cases h
    · exact Nat.zero_le _
    · exact List.length_take_le _ _
    · exact List.length_take_le _ _

/-- The inflater of the program gives all of its output, part by part, and then how it ended. -/
theorem zlib_gives (stream : List UInt8) :
    zlib.Gives stream (handedOut stream).1 (handedOut stream).2 := by
  refine ⟨fun s left => s = (left, (handedOut stream).2), rfl, ?_⟩
  rintro s left room rfl hroom
  rcases left with _ | ⟨b, left⟩
  · refine .inr ⟨rfl, ?_⟩
    cases (handedOut stream).2 with
    | none => exact ⟨_, rfl⟩
    | some text => rfl
  · refine .inl ⟨(b :: left).take room, (b :: left).drop room, _, rfl, ?_,
      (List.take_append_drop _ _).symm, rfl⟩
    simpa using hroom.ne'

/-- A stream that the program can inflate is one that its inflater inflates. -/
theorem zlib_inflates (h : inflate z none .zeros = (p, .finished)) : zlib.Inflates z p := by
  have hgives := zlib_gives z
  rwa [handedOut, h] at hgives

/-- What a stream holds up to a number of bytes. -/
theorem inflatePrefix_eq (stream : List UInt8) (limit : Nat) :
    inflatePrefix stream limit =
      (upTo (handedOut stream).1 (handedOut stream).2 limit).mapError badStream := by
  rw [inflatePrefix, handedOut]
  rcases inflate stream none .zeros with ⟨output, ending⟩
  rcases Nat.eq_zero_or_pos limit with rfl | hlimit
  · simp [upTo, Except.mapError]
  rw [if_neg hlimit.ne']
  cases ending with
  | finished | full =>
    simp only [upTo]
    split
    · rfl
    · rw [List.take_of_length_le (by omega)]
      rfl
  | truncated =>
    simp only [upTo]
    split <;> rfl
  | corrupt =>
    -- the whole windows are part of what was decoded
    have hwhole : windowSize * (output.length / windowSize) ≤ output.length :=
      Nat.mul_div_le _ _
    simp only [upTo, List.length_take, min_eq_left hwhole, List.take_take]
    split
    · rw [if_neg (by omega)]
      rfl
    · rw [if_pos (by omega), min_eq_left (by omega)]
      rfl

/-- With the inflater of the program, sections are inflated as the program does it. -/
theorem zlib_inflateSection (room : Nat → Nat) :
    zlib.inflateSection room = Compression.inflateSection := by
  funext data
  rw [inflateSection, Compression.inflateSection]
  split
  · rfl
  · simp only [inflatePrefix_eq, (zlib_gives _).readUpTo_eq]
    cases upTo _ _ _ <;> rfl

/-- With the inflater of the program, sections are loaded as the program does it. -/
theorem zlib_loadSection (room : Nat → Nat) :
    zlib.loadSection room = ObjectFile.loadSection := by
  funext file name
  have hsection := congrFun (zlib_inflateSection room)
  unfold loadSection ObjectFile.loadSection
  rcases file.sectionNamed? name with _ | s
  · rcases (compressedName? name).bind file.sectionNamed? with _ | s
    · rfl
    · rcases s with ⟨_, _, _, _ | data⟩
      · rfl
      · exact congrArg (Except.map some) (hsection data)
  · rfl

/-! ### Compressed sections -/

/-- A stream that gives a payload without a fault makes up a section that holds the payload if the
length is announced that it has, and that cannot be read if more is announced. What is read of data
with a header always has the announced length. Whether a section is stored plain or compressed makes
no difference for any name but that of the compressed form, if no other section shadows it. -/
theorem compressed_exact (I : Inflater) (room : Nat → Nat) :
    (∀ {z p : List UInt8} {n : UInt64}, I.Inflates z p →
      (n.toNat = p.length → I.inflateSection room (header n ++ z) = .ok p) ∧
      (p.length < n.toNat →
        ∃ text, I.inflateSection room (header n ++ z) = .error (.malformedDebugInfo text))) ∧
    (∀ data, Headed data ↔ ∃ n z, data = header n ++ z) ∧
    (∀ {n : UInt64} {z output : List UInt8},
      I.inflateSection room (header n ++ z) = .ok output → output.length = n.toNat) ∧
    (∀ {z p : List UInt8} {n : UInt64} {file : ObjectFile} {before after : List Section}
      {s : Section} {x name : String}, I.Inflates z p → n.toNat = p.length →
      s.flags / ObjectFile.compressedFlag % 2 = 0 → Unshadowed before after x →
      name ≠ compressedName x →
      I.loadSection room (place file before (compressedSection s x n z) after) name =
        I.loadSection room (place file before (plainSection s x p) after) name) ∧
    zlib.inflateSection room = Compression.inflateSection ∧
    zlib.loadSection room = ObjectFile.loadSection := by
  refine ⟨fun h => ⟨fun hn => ?_, fun hn => ⟨_, h.inflateSection_eq_error hn⟩⟩,
    fun _ => headed_iff, length_of_inflateSection, Inflates.loadSection_eq,
    zlib_inflateSection room, zlib_loadSection room⟩
  exact h.inflateSection_eq_self hn

/-- A stream with one block, which is stored as it is: the byte `0x61`. -/
def storedByte : List UInt8 :=
  [0x78, 0x01, 0x01, 0x01, 0x00, 0xfe, 0xff, 0x61, 0x00, 0x62, 0x00, 0x62]

/-- A stored block of one byte inflates to it. -/
theorem inflates_storedByte : zlib.Inflates storedByte [0x61] :=
  zlib_inflates (by decide +kernel)

/-- The stream behind headers that announce one byte and two, and the former in a file. -/
theorem compressed_exact_storedByte :
    Compression.inflateSection (header 1 ++ storedByte) = .ok [0x61] ∧
    (∃ text, Compression.inflateSection (header 2 ++ storedByte) =
      .error (.malformedDebugInfo text)) ∧
    ([0x61] : List UInt8).length = (1 : UInt64).toNat ∧
    ObjectFile.loadSection (place default [] (compressedSection default "x" 1 storedByte) [])
        (plainName "x") =
      ObjectFile.loadSection (place default [] (plainSection default "x" [0x61]) [])
        (plainName "x") := by
  obtain ⟨hread, -, hlength, hload, hsection, hfile⟩ := compressed_exact zlib fun _ => 0
  rw [← hsection, ← hfile]
  have hbyte := (hread inflates_storedByte (n := 1)).1 rfl
  exact ⟨hbyte, (hread inflates_storedByte).2 (by decide), hlength hbyte,
    hload inflates_storedByte rfl rfl (.inr ⟨nofun, nofun⟩) (plainName_ne_compressedName _ _)⟩

/-- A plain section of the same name behind it shadows a compressed section, but no plain one. -/
theorem not_loadSection_eq :
    ∃ (z p : List UInt8) (n : UInt64) (before after : List Section) (s : Section) (x name : String),
      zlib.Inflates z p ∧ n.toNat = p.length ∧ s.flags / ObjectFile.compressedFlag % 2 = 0 ∧
      name ≠ compressedName x ∧
      ObjectFile.loadSection (place default before (compressedSection s x n z) after) name ≠
        ObjectFile.loadSection (place default before (plainSection s x p) after) name := by
  refine ⟨storedByte, [0x61], 1, [], [plainSection default "x" [0x62]], default, "x", plainName "x",
    inflates_storedByte, rfl, rfl, plainName_ne_compressedName _ _, ?_⟩
  have hbehind : (place default [] (compressedSection default "x" 1 storedByte)
      [plainSection default "x" [0x62]]).sectionNamed? (plainName "x") =
        some (plainSection default "x" [0x62]) := by decide
  have hfirst : (place default [] (plainSection default "x" [0x61])
      [plainSection default "x" [0x62]]).sectionNamed? (plainName "x") =
        some (plainSection default "x" [0x61]) := by decide
  rw [← zlib_loadSection fun _ => 0, loadSection_plain rfl hbehind,
    loadSection_plain rfl hfirst]
  decide

end Inflater

end SourceDebugger.Compression
