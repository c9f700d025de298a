import SourceDebugger.DebugInfo.Build
import SourceDebugger.Proofs.Leb128

/-!
# The offsets of entries

Entries are told apart by where they start in their section, and types are looked up by it. A reader
that succeeds moves forward, `Read.Advances`, and so do the readers of attributes and of unit
headers: the entries of a unit start one behind the other, and those of the next unit start behind
all of them.

* `DebugInfo.entriesFrom_offsets`: the entries of a unit start in its bytes, in ascending order.
* `DebugInfo.UnitHeader.position_take`: a unit ends where the next one starts.
-/

namespace SourceDebugger

/-- Where the reader succeeds it moves forward over some bytes. -/
def Read.Advances {α : Type} (x : Read α) : Prop :=
  ∀ r a r', x r = (.ok a, r') → ∃ bs, r.rest = bs ++ r'.rest ∧ r'.position = r.position + bs.length

/-- A reader that looks at no more than it takes moves over what it takes. -/
theorem Read.Local.advances {α : Type} {x : Read α} (hx : Local x) : Advances x := by
  intro r a r' h
  obtain ⟨bs, hbs, htakes⟩ := hx r a r' h
  have hread : x r = (.ok a, ⟨r.position + bs.length, r'.rest⟩) := by
    rw [← htakes r.position r'.rest, ← hbs]
  exact ⟨bs, hbs, congrArg (·.2.position) (h.symm.trans hread)⟩

namespace Read.Advances

variable {α β : Type} {x : Read α}

theorem pure (a : α) : Advances (pure a) := (Local.pure a).advances

theorem throw (e : DebugError) : Advances (throw e : Read α) := nofun

theorem get : Advances (get : Read ByteReader) := by
  rintro r _ _ ⟨⟩
  exact ⟨[], rfl, rfl⟩

/-- Readers in a row move over their bytes in a row. -/
theorem bind {f : α → Read β} (hx : Advances x) (hf : ∀ a, Advances (f a)) :
    Advances (x >>= f) := by
  intro r b r' h
  rw [Action.bind_apply] at h
  rcases hr : x r with ⟨e | a, r₁⟩ <;> rw [hr] at h
  · cases h
  obtain ⟨bs, hbs, hposition⟩ := hx r a r₁ hr
  obtain ⟨cs, hcs, hposition'⟩ := hf a r₁ b r' h
  refine ⟨bs ++ cs, by rw [hbs, hcs, List.append_assoc], ?_⟩
  rw [hposition', hposition, List.length_append, Nat.add_assoc]

theorem map {f : α → β} (hx : Advances x) : Advances (do return f (← x)) := hx.bind fun _ => pure _

theorem ite {p : Prop} [Decidable p] {y : Read α} (hx : Advances x) (hy : Advances y) :
    Advances (if p then x else y) := by
  split
  · exact hx
  · exact hy

/-- What the reader moves over are bytes that were left. -/
theorem position_add (h : Advances x) {r r' : ByteReader} {a : α} (hr : x r = (.ok a, r')) :
    r.position ≤ r'.position ∧
      r'.position + r'.rest.length = r.position + r.rest.length := by
  obtain ⟨bs, hbs, hposition⟩ := h r a r' hr
  rw [hbs, List.length_append]
  omega

end Read.Advances

namespace ByteReader

open Leb128 Read

/-- A text moves over its bytes and the NUL behind them. -/
theorem advances_string : Advances string := by
  intro r a r' h
  unfold string at h
  split at h
  · rename_i len hfind
    cases h
    have hlt : len < r.rest.length := (List.findIdx?_eq_some_iff_getElem.1 hfind).1
    refine ⟨r.rest.take (len + 1), (List.take_append_drop _ _).symm, ?_⟩
    rw [skip, List.length_take, Nat.min_eq_left hlt]
  · cases h

/-- A block moves over as many bytes as it gives. -/
theorem position_of_bytes {count : Nat} {r r' : ByteReader} {bs : List UInt8}
    (h : bytes count r = (.ok bs, r')) : r'.position = r.position + bs.length := by
  unfold bytes remaining at h
  split at h
  · cases h
  · cases h
    rw [skip, List.length_take, Nat.min_eq_left (by omega)]

/-- A number takes at least a byte. -/
theorem position_lt_of_uleb128 {r r' : ByteReader} {n : UInt64} (h : uleb128 r = (.ok n, r')) :
    r.position < r'.position := by
  obtain ⟨bs, hbs, htakes⟩ := local_uleb128 r n r' h
  have hread : uleb128 r = (.ok n, ⟨r.position + bs.length, r'.rest⟩) := by
    rw [← htakes r.position r'.rest, ← hbs]
  have hposition : r'.position = r.position + bs.length :=
    congrArg (·.2.position) (h.symm.trans hread)
  rcases bs with _ | ⟨b, bs⟩
  · -- no bytes at all would be a number
    cases htakes 0 []
  · rw [hposition, List.length_cons]
    omega

end ByteReader

namespace DebugInfo

open Leb128 Read ByteReader

/-! ### Attributes -/

/-- A short number has at most three bytes, and one that does not end in them fails. -/
theorem advances_takeShort : Advances takeShort := by
  unfold takeShort
  refine local_uint8.advances.bind fun a => .ite (.pure _) ?_
  refine local_uint8.advances.bind fun b => .ite (.pure _) ?_
  exact local_uint8.advances.bind fun c => .ite (.bind (.throw _) fun _ => .pure _) (.pure _)

/-- The position before is looked at only to refuse numbers that are too long. -/
theorem advances_takeSigned : Advances takeSigned := by
  unfold takeSigned
  refine .bind .get fun before => local_sleb128.advances.bind fun n => ?_
  exact .bind .get fun r => .ite (.bind (.throw _) fun _ => .pure _) (.pure _)

theorem advances_takeUnsigned : Advances takeUnsigned := local_uleb128.advances.map

/-- An address moves over as many bytes as addresses have. -/
theorem advances_takeAddress (size : Nat) : Advances (takeAddress size) :=
  .ite (local_word size).advances.map (.throw _)

theorem advances_takeAddressSize : Advances takeAddressSize :=
  local_uint8.advances.bind fun _ => .ite (.pure _) (.throw _)

/-- An offset has four or eight bytes. -/
theorem advances_takeOffset (wide : Bool) : Advances (takeOffset wide) := (local_word _).advances

theorem advances_takeLength : Advances takeLength :=
  (local_word 4).advances.bind fun _ =>
    .ite (.pure _) (.ite (local_word 8).advances.map (.throw _))

namespace AttributeValue

/-- A block whose length stands in front of it. -/
theorem advances_block {x : Read Nat} (hx : Advances x) {α : Type} (f : List UInt8 → α) :
    Advances (do return f (← bytes (← x))) :=
  hx.bind fun count => (local_bytes count).advances.map

/-- The forms that are read alike in all versions move forward. -/
theorem advances_takeShared (e : Encoding) (form : Nat) : Advances (takeShared e form) := by
  -- each form reads a word, a number or a block, possibly of a length that is read first
  have number : ∀ size, Advances (do return some (unsigned (UInt64.ofNat (← word size)))) :=
    fun size => (local_word size).advances.map
  have sized : ∀ size, Advances (do return some (block (← bytes (← word size)))) :=
    fun size => advances_block (local_word size).advances (some <| block ·)
  have index : Advances (do return some (stringIndex (← takeUnsigned))) := advances_takeUnsigned.map
  have indexOf : ∀ size, Advances (do return some (stringIndex (← word size))) :=
    fun size => (local_word size).advances.map
  have skipped : Advances (do let _ ← takeOffset e.wide; return some other) :=
    (advances_takeOffset e.wide).map
  unfold takeShared
  dsimp only
  split
  exacts [sized 2, sized 4, number 2, number 4, number 8, advances_string.map,
    advances_block advances_takeUnsigned (some <| block ·), sized 1, number 1,
    local_uint8.advances.map, advances_takeSigned.map, (advances_takeOffset e.wide).map,
    local_uleb128.advances.map, (advances_takeOffset e.wide).map, index, index, skipped, skipped,
    (local_bytes 16).advances.map, (advances_takeOffset e.wide).map, indexOf 1, indexOf 2,
    indexOf 3, indexOf 4, .pure none]

/-- So do the other forms, whose widths depend on the unit. -/
theorem advances_takeOther (e : Encoding) (spec : AttributeSpec) (form : Nat) :
    Advances (takeOther e spec form) := by
  -- as for the shared forms: each reader moves forward by what it consumes
  have reference : ∀ size, Advances (do return unitReference (UInt64.ofNat (← word size))) :=
    fun size => (local_word size).advances.map
  have skip : ∀ size, Advances (do let _ ← bytes size; return other) :=
    fun size => (local_bytes size).advances.map
  have index : Advances (do return addressIndex (← takeUnsigned)) := advances_takeUnsigned.map
  have indexOf : ∀ size, Advances (do return addressIndex (← word size)) :=
    fun size => (local_word size).advances.map
  have number : Advances (do let _ ← takeUnsigned; return other) := advances_takeUnsigned.map
  unfold takeOther
  dsimp only
  split
  exacts [(advances_takeAddress e.addressSize).map,
    .ite (advances_takeAddress e.addressSize).map (advances_takeOffset e.wide).map, reference 1,
    reference 2, reference 4, reference 8, local_uleb128.advances.map,
    advances_block advances_takeUnsigned expression, .pure (flag true), index, index, skip 4,
    skip 8, by split <;> [exact .pure _; exact .throw _], number, number, skip 8, indexOf 1, indexOf 2,
    indexOf 3, indexOf 4, (advances_takeOffset e.wide).map, .throw _]

/-- A form that names another one moves over the name first, for any fuel. -/
theorem advances_takeForm (e : Encoding) (spec : AttributeSpec) (fuel form : Nat) :
    Advances (takeForm e spec fuel form) := by
  induction fuel generalizing form with
  | zero => exact .throw _
  | succ fuel ih =>
    rw [takeForm]
    refine .ite (advances_takeShort.bind fun form => ih form) (.ite (advances_takeOffset _).map ?_)
    refine (advances_takeShared e form).bind fun v => ?_
    rcases v with _ | v
    · exact advances_takeOther e spec form
    · exact .pure v

/-- The value of an attribute moves forward, in any of its forms. -/
theorem advances_take (e : Encoding) (spec : AttributeSpec) : Advances (take e spec) :=
  .bind .get fun _ => advances_takeForm e spec _ _

end AttributeValue

/-- Attributes that could all be read are moved over. -/
theorem Attributes.position_take (e : Encoding) (specs : List AttributeSpec) {r r' : ByteReader}
    {as : Attributes} (h : take e specs r = (as, r')) (hall : as.failure = none) :
    r.position ≤ r'.position ∧ r'.position + r'.rest.length = r.position + r.rest.length := by
  -- along the list of attributes, as long as none fails
  induction specs generalizing r as with
  | nil =>
    cases h
    exact ⟨Nat.le_refl _, rfl⟩
  | cons spec specs ih =>
    rw [take] at h
    rcases hvalue : AttributeValue.take e spec r with ⟨err | v, r₁⟩ <;> rw [hvalue] at h
    · cases h
      cases hall
    · rcases hrest : take e specs r₁ with ⟨rest, r₂⟩
      simp only [hrest] at h
      cases h
      obtain ⟨hle, hsum⟩ := (AttributeValue.advances_take e spec).position_add hvalue
      obtain ⟨hle', hsum'⟩ := ih hrest hall
      exact ⟨Nat.le_trans hle hle', hsum'.trans hsum⟩

/-! ### Entries -/

/-- The offsets ascend, from `first` up to, but not including, `behind`. -/
structure AscendsIn (offsets : List Nat) (first behind : Nat) : Prop where
  /-- Each is higher than the one before it. -/
  ascends : offsets.Pairwise (· < ·)
  /-- All of them lie in the range. -/
  bounds : ∀ o ∈ offsets, first ≤ o ∧ o < behind

namespace AscendsIn

variable {xs ys : List Nat} {first middle behind : Nat}

/-- Between any bounds there are no offsets that would have to ascend. -/
theorem nil (first behind : Nat) : AscendsIn [] first behind := ⟨.nil, nofun⟩

/-- A range may begin earlier. -/
theorem mono {first' : Nat} (h : AscendsIn xs first behind) (hle : first' ≤ first) :
    AscendsIn xs first' behind :=
  ⟨h.ascends, fun o ho => ⟨Nat.le_trans hle (h.bounds o ho).1, (h.bounds o ho).2⟩⟩

/-- An offset before the range can be put in front. -/
theorem cons {o : Nat} (h : AscendsIn xs first behind) (ho : o < first) (hbehind : first ≤ behind) :
    AscendsIn (o :: xs) o behind := by
  have hlt : ∀ o' ∈ xs, o < o' := fun o' ho' => Nat.lt_of_lt_of_le ho (h.bounds o' ho').1
  refine ⟨List.pairwise_cons.2 ⟨hlt, h.ascends⟩, fun o' ho' => ?_⟩
  rcases List.mem_cons.1 ho' with rfl | ho'
  · exact ⟨Nat.le_refl _, Nat.lt_of_lt_of_le ho hbehind⟩
  · exact ⟨Nat.le_trans (Nat.le_of_lt ho) (h.bounds o' ho').1, (h.bounds o' ho').2⟩

/-- The offsets behind the first one ascend in the same range. -/
theorem of_cons {o : Nat} (h : AscendsIn (o :: xs) first behind) : AscendsIn xs first behind :=
  ⟨h.ascends.tail, fun o' ho' => h.bounds o' (List.mem_cons_of_mem o ho')⟩

/-- Offsets of two neighbouring ranges ascend in both of them. -/
theorem append (hx : AscendsIn xs first middle) (hy : AscendsIn ys middle behind)
    (hfirst : first ≤ middle) (hbehind : middle ≤ behind) : AscendsIn (xs ++ ys) first behind := by
  constructor
  · rw [List.pairwise_append]
    exact ⟨hx.ascends, hy.ascends, fun a ha b hb =>
      Nat.lt_of_lt_of_le (hx.bounds a ha).2 (hy.bounds b hb).1⟩
  · intro o ho
    rcases List.mem_append.1 ho with ho | ho
    · exact ⟨(hx.bounds o ho).1, Nat.lt_of_lt_of_le (hx.bounds o ho).2 hbehind⟩
    · exact ⟨Nat.le_trans hfirst (hy.bounds o ho).1, (hy.bounds o ho).2⟩

end AscendsIn

/-- The entries of a unit start in its bytes, one behind the other. -/
theorem entriesFrom_offsets (h : UnitHeader) (abbreviations : List Abbreviation) (fuel : Nat)
    (delta : Int) (r : ByteReader) :
    AscendsIn ((entriesFrom h abbreviations fuel delta r).1.map (·.2.offset))
      (h.offset + h.size + r.position) (h.offset + h.size + (r.position + r.rest.length)) := by
  -- every entry takes at least the byte of its code, so the offsets ascend strictly
  induction fuel generalizing delta r with
  | zero => exact .nil _ _
  | succ fuel ih =>
    rw [entriesFrom]
    split
    · exact .nil _ _
    rcases hcode : ByteReader.uleb128 r with ⟨e | code, after⟩
    · exact .nil _ _
    have hlt := position_lt_of_uleb128 hcode
    have hsum := (local_uleb128.advances.position_add hcode).2
    dsimp only
    split
    · -- the end of a row of children
      have hrest := ih (delta - 1) after
      rw [hsum] at hrest
      exact hrest.mono (by omega)
    -- an unknown code ends the entries
    split
    · exact .nil _ _
    rename_i a _
    rcases htake : Attributes.take h.encoding a.attributes after with ⟨as, behind⟩
    rcases hfailure : as.failure with _ | e
    · obtain ⟨hle, hsum'⟩ := Attributes.position_take h.encoding a.attributes htake hfailure
      have hrest := ih (if a.hasChildren then 1 else 0) behind
      rw [hsum', hsum] at hrest
      show AscendsIn ((h.offset + h.size + r.position) :: _) _ _
      exact hrest.cons (by omega) (by omega)
    -- an entry with an attribute that can not be read is the last one
    · show AscendsIn [h.offset + h.size + r.position] _ _
      exact (AscendsIn.nil _ _).cons (Nat.lt_succ_self _) (by omega)

/-- What a kind of unit has in its header besides moves forward. -/
theorem UnitHeader.advances_takeKind (wide : Bool) (kind : Nat) :
    Advances (takeKind wide kind) := by
  unfold takeKind
  split
  · exact .pure _
  · exact .pure _
  · exact local_uint64.advances.bind fun _ => (advances_takeOffset wide).bind fun _ => .pure _
  · exact local_uint64.advances.bind fun _ => (advances_takeOffset wide).bind fun _ => .pure _
  · exact local_uint64.advances.bind fun _ => .pure _
  · exact local_uint64.advances.bind fun _ => .pure _
  · exact .throw _

/-- The fields of a unit header move forward, in the order of either version. -/
theorem UnitHeader.advances_takeFields (wide : Bool) : Advances (takeFields wide) := by
  have behindKind : ∀ version kind, Advances (do
      let addressSize ← takeAddressSize
      let abbreviations ← takeOffset wide
      takeKind wide kind
      return (Encoding.mk wide version addressSize, abbreviations)) := fun version kind =>
    advances_takeAddressSize.bind fun _ => (advances_takeOffset wide).bind fun _ =>
      (advances_takeKind wide kind).bind fun _ => .pure _
  refine local_uint16.advances.bind fun version => .ite ?_ (.ite ?_ (.throw _))
  · exact (advances_takeOffset wide).bind fun _ => advances_takeAddressSize.bind fun _ => .pure _
  · exact local_uint8.advances.bind fun kind =>
      .ite (.bind (.throw _) fun _ => behindKind _ _) (behindKind _ _)

/-- A unit goes from the start of its header to the end of its entries. -/
theorem UnitHeader.position_take {r r' : ByteReader} {h : UnitHeader}
    (hread : UnitHeader.take r = (.ok h, r')) :
    h.offset = r.position ∧ h.offset + h.size + h.entries.length = r'.position ∧
      r'.position + r'.rest.length = r.position + r.rest.length := by
  unfold UnitHeader.take at hread
  rw [Action.bind_apply, Action.get_apply] at hread
  dsimp only at hread
  rw [Action.bind_apply] at hread
  rcases hlength : takeLength r with ⟨e | ⟨length, wide⟩, r₁⟩ <;> rw [hlength] at hread
  · cases hread
  dsimp only at hread
  rw [Action.bind_apply, Action.get_apply] at hread
  dsimp only at hread
  rw [Action.bind_apply] at hread
  rcases hbody : ByteReader.bytes length r₁ with ⟨e | body, r₂⟩ <;> rw [hbody] at hread
  · cases hread
  obtain ⟨hle, hsum⟩ := advances_takeLength.position_add hlength
  have hbehind : r₂.position = r₁.position + body.length := ByteReader.position_of_bytes hbody
  have hsum' := ((local_bytes length).advances.position_add hbody).2
  -- the fields are read in the bytes of the unit, and what is left of them are the entries
  replace hread : (takeFields wide >>= fun fields => get >>= fun inside => set r₂ >>= fun _ =>
      pure (UnitHeader.mk r.position fields.1 fields.2 (r₁.position - r.position + inside.position)
        inside.rest)) (ofList body) = (.ok h, r') := hread
  rw [Action.bind_apply] at hread
  rcases hfields : takeFields wide (ofList body) with ⟨e | fields, inside⟩ <;> rw [hfields] at hread
  · cases hread
  have hinside : inside.position + inside.rest.length = 0 + body.length :=
    ((advances_takeFields wide).position_add hfields).2
  cases hread
  refine ⟨rfl, ?_, by omega⟩
  show r.position + (r₁.position - r.position + inside.position) + inside.rest.length = r'.position
  omega

end DebugInfo

end SourceDebugger
