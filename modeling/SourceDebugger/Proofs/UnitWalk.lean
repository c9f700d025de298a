import SourceDebugger.Proofs.LineProgram

/-!
# Walking over a unit

The entries of a unit form a tree, which is walked depth first with nothing but the differences of
depth between one entry and the next. `Forest` are the trees below the first entry.

* `Forest.ownVariables` and `Forest.functions`: which variables belong to what encloses the trees,
  and which functions are in them, with the variables that belong to each.
* `Walk.foldlM_visit`: a walk over trees adds exactly these.
* `addUnit_forest`: so each function of a unit is added once, and each variable goes to the nearest
  function above it, or to the unit.
-/

namespace SourceDebugger.DebugInfo

/-! ### Trees of entries -/

/-- Trees side by side: the first entry, the trees below it, and the trees beside it. -/
inductive Forest (α : Type) where
  /-- No tree. -/
  | nil
  /-- A tree and those behind it. -/
  | cons (entry : α) (below beside : Forest α)

namespace Forest

variable {α β : Type}

/-- The entries in the order of the document: each one before those below it. -/
def entries : Forest α → List α
  | nil => []
  | cons entry below beside => entry :: (below.entries ++ beside.entries)

/-- The entries with their depths. -/
def depths (depth : Int) : Forest α → List (Int × α)
  | nil => []
  | cons entry below beside => (depth, entry) :: (below.depths (depth + 1) ++ beside.depths depth)

/-- The trees of the values of the entries. -/
def map (f : α → β) : Forest α → Forest β
  | nil => nil
  | cons entry below beside => cons (f entry) (below.map f) (beside.map f)

theorem depths_map (f : α → β) (depth : Int) (forest : Forest α) :
    (forest.map f).depths depth = (forest.depths depth).map fun e => (e.1, f e.2) := by
  induction forest generalizing depth with
  | nil => rfl
  | cons entry below beside ihbelow ihbeside => simp [map, depths, ihbelow, ihbeside]

theorem entries_map (f : α → β) (forest : Forest α) :
    (forest.map f).entries = forest.entries.map f := by
  induction forest with
  | nil => rfl
  | cons entry below beside ihbelow ihbeside => simp [map, entries, ihbelow, ihbeside]

theorem map_depths (depth : Int) (forest : Forest α) :
    (forest.depths depth).map (·.2) = forest.entries := by
  induction forest generalizing depth with
  | nil => rfl
  | cons entry below beside ihbelow ihbeside => simp [depths, entries, ihbelow, ihbeside]

end Forest

/-- Entries as a cursor reports them: each with the difference of its depth to that of the entry
before it. -/
def reported {α : Type} (previous : Int) : List (Int × α) → List (Int × α)
  | [] => []
  | (depth, entry) :: rest => (depth - previous, entry) :: reported depth rest

/-! ### What trees say -/

namespace EntryContent

/-- The function that is described, if one is. -/
def function? : EntryContent → Option FunctionEntry
  | function f => some f
  | _ => none

/-- The variable that is described, if one is. -/
def namedVariable? : EntryContent → Option VariableEntry
  | namedVariable v => some v
  | _ => none

/-- The type that is described, if one is. -/
def type? : EntryContent → Option (UInt64 × TypeEntry)
  | type offset t => some (offset, t)
  | _ => none

/-- The unit that is described; one without a name if none is. -/
def unitOrNone : EntryContent → CompileUnit
  | unit u => u
  | _ => ⟨none, none, [], []⟩

end EntryContent

namespace Forest

/-- The variables that belong to what encloses the trees: those that are not below a function. -/
def ownVariables : Forest EntryContent → List VariableEntry
  | nil => []
  | cons entry below beside =>
    entry.namedVariable?.toList ++ (if entry.function?.isSome then [] else below.ownVariables) ++
      beside.ownVariables

/-- The functions in the trees, each before those below it, with the variables that belong to it. -/
def functions (unit : Nat) : Forest EntryContent → List FunctionEntry
  | nil => []
  | cons entry below beside =>
    (entry.function?.map fun f => { f with unit, locals := below.ownVariables }).toList ++
      below.functions unit ++ beside.functions unit

/-- The types in the trees. -/
def types (forest : Forest EntryContent) : List (UInt64 × TypeEntry) :=
  forest.entries.filterMap EntryContent.type?

/-- The functions are those that the entries describe, in the order of the document. -/
theorem functions_eq (unit : Nat) (forest : Forest EntryContent) :
    (forest.functions unit).map (fun f => { f with locals := [] }) =
      (forest.entries.filterMap EntryContent.function?).map
        fun f => { f with unit, locals := [] } := by
  induction forest with
  | nil => rfl
  | cons entry below beside ihbelow ihbeside =>
    rw [functions, entries, List.filterMap_cons, List.filterMap_append]
    rcases entry.function? with _ | f <;> simp [ihbelow, ihbeside]

/-- Every variable belongs to one function or to what encloses the trees, and only to that. -/
theorem perm_variables (unit : Nat) (forest : Forest EntryContent) :
    ((forest.functions unit).flatMap (·.locals) ++ forest.ownVariables).Perm
      (forest.entries.filterMap EntryContent.namedVariable?) := by
  -- along the forest; the orders differ, so the occurrences of each variable are counted
  induction forest with
  | nil => exact .refl _
  | cons entry below beside ihbelow ihbeside =>
    refine List.perm_iff_count.2 fun v => ?_
    have hbelow := ihbelow.count_eq v
    have hbeside := ihbeside.count_eq v
    rw [List.count_append] at hbelow hbeside
    rw [functions, ownVariables, entries, List.filterMap_cons, List.filterMap_append]
    cases entry <;>
      simp only [EntryContent.function?, EntryContent.namedVariable?, Option.map_none,
        Option.map_some, Option.toList_none, Option.toList_some, Option.isSome_none,
        Option.isSome_some, Bool.false_eq_true, if_false, if_true, List.nil_append,
        List.cons_append, List.flatMap_cons, List.flatMap_append, List.count_append,
        List.count_cons] <;>
      omega

/-- The variables that belong to what encloses the trees are in the order of the document. -/
theorem ownVariables_sublist (forest : Forest EntryContent) :
    forest.ownVariables.Sublist (forest.entries.filterMap EntryContent.namedVariable?) := by
  induction forest with
  | nil => exact .slnil
  | cons entry below beside ihbelow ihbeside =>
    have hinner : (if entry.function?.isSome then [] else below.ownVariables).Sublist
        (below.entries.filterMap EntryContent.namedVariable?) := by
      split
      · exact List.nil_sublist _
      · exact ihbelow
    rw [ownVariables, entries, List.filterMap_cons, List.filterMap_append]
    rcases entry.namedVariable? with _ | v
    · exact hinner.append ihbeside
    · exact (hinner.append ihbeside).cons_cons v

/-- So are those of each function. -/
theorem locals_sublist {unit : Nat} {forest : Forest EntryContent} {f : FunctionEntry}
    (hf : f ∈ forest.functions unit) :
    f.locals.Sublist (forest.entries.filterMap EntryContent.namedVariable?) := by
  induction forest with
  | nil => cases hf
  | cons entry below beside ihbelow ihbeside =>
    have hlater : ((below.entries ++ beside.entries).filterMap EntryContent.namedVariable?).Sublist
        ((entry :: (below.entries ++ beside.entries)).filterMap EntryContent.namedVariable?) :=
      (List.sublist_cons_self _ _).filterMap _
    refine .trans ?_ hlater
    rw [List.filterMap_append]
    rw [functions, List.mem_append, List.mem_append] at hf
    rcases hf with (hf | hf) | hf
    · obtain ⟨g, -, rfl⟩ := Option.map_eq_some_iff.1 (Option.mem_toList.1 hf)
      exact below.ownVariables_sublist.trans (List.sublist_append_left _ _)
    · exact (ihbelow hf).trans (List.sublist_append_left _ _)
    · exact (ihbeside hf).trans (List.sublist_append_right _ _)

end Forest

end SourceDebugger.DebugInfo

namespace SourceDebugger.DebugIndex

open DebugInfo

/-! ### What trees add to an index -/

/-- Gives variables to a function, or to a unit. -/
def attach (index : DebugIndex) (unit : Nat) (owner : Option Nat) (vs : List VariableEntry) :
    DebugIndex :=
  match owner with
  | some f =>
    { index with
      functions := index.functions.modify f fun f => { f with locals := f.locals ++ vs } }
  | none =>
    { index with units := index.units.modify unit fun u => { u with globals := u.globals ++ vs } }

/-- Adds functions to a unit. -/
def register (index : DebugIndex) (unit : Nat) (fs : List FunctionEntry) : DebugIndex :=
  { index with
    units := index.units.modify unit fun u =>
      { u with functions := u.functions ++ List.range' index.functions.length fs.length }
    functions := index.functions ++ fs }

/-- Adds variables of one owner, functions and types. -/
def extend (index : DebugIndex) (unit : Nat) (owner : Option Nat) (vs : List VariableEntry)
    (fs : List FunctionEntry) (types : List (UInt64 × TypeEntry)) : DebugIndex :=
  { (index.attach unit owner vs).register unit fs with types := types.reverse ++ index.types }

variable {index : DebugIndex} {unit : Nat} {owner : Option Nat}

@[simp]
theorem length_functions_attach (vs : List VariableEntry) :
    (index.attach unit owner vs).functions.length = index.functions.length := by
  cases owner <;> simp [attach]

theorem length_units_extend (vs : List VariableEntry) (fs : List FunctionEntry)
    (types : List (UInt64 × TypeEntry)) :
    (index.extend unit owner vs fs types).units.length = index.units.length := by
  cases owner <;> simp [extend, register, attach]

theorem length_functions_extend (vs : List VariableEntry) (fs : List FunctionEntry)
    (types : List (UInt64 × TypeEntry)) :
    (index.extend unit owner vs fs types).functions.length =
      index.functions.length + fs.length := by
  simp [extend, register]

/-- No variables are given. -/
@[simp]
theorem attach_nil : index.attach unit owner [] = index := by
  cases owner with
  | none =>
    have hsame : index.units.modify unit id = index.units := List.modify_id _ _
    simp only [attach, List.append_nil]
    exact congrArg (fun units => { index with units }) hsame
  | some f =>
    have hsame : index.functions.modify f id = index.functions := List.modify_id _ _
    simp only [attach, List.append_nil]
    exact congrArg (fun functions => { index with functions }) hsame

/-- No functions are added. -/
@[simp]
theorem register_nil : index.register unit [] = index := by
  have hsame : index.units.modify unit id = index.units := List.modify_id _ _
  simp only [register, List.length_nil, List.range'_zero, List.append_nil]
  exact congrArg (fun units => { index with units }) hsame

/-- Nothing is added. -/
theorem extend_nil : index.extend unit owner [] [] [] = index := by
  simp [extend]

/-- A change of an early element does not reach the later ones. -/
theorem modify_append {α : Type} (f : α → α) {l : List α} {n : Nat} (h : n < l.length)
    (m : List α) : (l ++ m).modify n f = l.modify n f ++ m := by
  induction l generalizing n with
  | nil => cases h
  | cons a l ih =>
    rcases n with _ | n
    · rfl
    · exact congrArg (a :: ·) (ih (Nat.lt_of_succ_lt_succ h))

/-- What is added in two goes can be added in one. -/
theorem extend_extend (howner : ∀ f ∈ owner, f < index.functions.length)
    (vs vs' : List VariableEntry) (fs fs' : List FunctionEntry)
    (types types' : List (UInt64 × TypeEntry)) :
    (index.extend unit owner vs fs types).extend unit owner vs' fs' types' =
      index.extend unit owner (vs ++ vs') (fs ++ fs') (types ++ types') := by
  cases owner with
  | none =>
    simp only [extend, register, attach, List.modify_modify_eq, List.append_assoc,
      List.reverse_append, List.length_append, Function.comp_def, List.range'_append_1]
  | some f =>
    have hf : f <
        (index.functions.modify f fun f => { f with locals := f.locals ++ vs }).length := by
      rw [List.length_modify]
      exact howner f rfl
    simp only [extend, register, attach, modify_append _ hf, List.modify_modify_eq,
      List.length_modify, List.append_assoc, List.reverse_append, List.length_append,
      Function.comp_def, List.range'_append_1]

/-- A change of the last element. -/
theorem modify_concat {α : Type} (f : α → α) (l : List α) (a : α) :
    (l ++ [a]).modify l.length f = l ++ [f a] := by
  induction l with
  | nil => rfl
  | cons b l ih => exact congrArg (b :: ·) ih

/-- The variables of the function that was added last can be added with it. -/
theorem extend_last (f : FunctionEntry) (vs : List VariableEntry) (fs : List FunctionEntry)
    (types : List (UInt64 × TypeEntry)) :
    (index.extend unit owner [] [f] []).extend unit (some index.functions.length) vs fs types =
      index.extend unit owner [] ({ f with locals := f.locals ++ vs } :: fs) types := by
  simp only [extend, register, attach_nil]
  simp only [attach, modify_concat, List.modify_modify_eq, List.append_assoc, List.length_append,
    List.length_cons, List.length_nil, Function.comp_def,
    List.range'_append_1, List.reverse_nil, List.nil_append, List.cons_append, Nat.zero_add,
    Nat.add_comm fs.length 1]

/-- Adds what trees say: their variables that belong to what encloses them, their functions and
their types. -/
def grow (index : DebugIndex) (unit : Nat) (owner : Option Nat) (forest : Forest EntryContent) :
    DebugIndex :=
  index.extend unit owner forest.ownVariables (forest.functions unit) forest.types

/-- The first entry is no function: what is below it has the same owner as itself. -/
theorem grow_cons {entry : EntryContent} (hentry : entry.function? = none)
    (howner : ∀ f ∈ owner, f < index.functions.length) (below beside : Forest EntryContent) :
    ((index.extend unit owner entry.namedVariable?.toList [] entry.type?.toList).grow unit owner
      below).grow unit owner beside = index.grow unit owner (.cons entry below beside) := by
  have htypes : (Forest.cons entry below beside).types =
      entry.type?.toList ++ below.types ++ beside.types := by
    rw [Forest.types, Forest.entries, List.filterMap_cons, List.filterMap_append]
    cases entry.type? <;> rfl
  rw [grow, grow, extend_extend howner, extend_extend howner, grow, htypes, Forest.ownVariables,
    Forest.functions, hentry]
  rfl

/-- The first entry is a function: it owns what is below it. -/
theorem grow_cons_function {f : FunctionEntry} (hlocals : f.locals = [])
    (howner : ∀ f ∈ owner, f < index.functions.length) (below beside : Forest EntryContent) :
    ((index.extend unit owner [] [{ f with unit }] []).grow unit (some index.functions.length)
      below).grow unit owner beside = index.grow unit owner (.cons (.function f) below beside) := by
  have htypes : (Forest.cons (.function f) below beside).types = below.types ++ beside.types := by
    rw [Forest.types, Forest.entries, List.filterMap_cons, List.filterMap_append]
    rfl
  rw [grow, grow, extend_last, extend_extend howner, grow, htypes, Forest.ownVariables,
    Forest.functions, hlocals]
  rfl

end SourceDebugger.DebugIndex

namespace SourceDebugger.DebugInfo

/-! ### The walk -/

namespace Walk

variable {unit : Nat} {w : Walk}

/-- The functions that enclose an entry at some depth. -/
def above (w : Walk) (depth : Int) : List (Nat × Int) := w.enclosing.dropWhile (·.2 ≥ depth)

/-- The innermost one of them. -/
def owner? (w : Walk) (depth : Int) : Option Nat := (w.above depth).head?.map (·.1)

/-- Goes to an entry at some depth and adds what it says. -/
def visit (unit : Nat) (w : Walk) (e : Int × EntryContent) : Except DebugError Walk :=
  ({ w with depth := e.1, enclosing := w.above e.1 } : Walk).add unit e.2

/-- The unit and the functions of a walk are in its index. -/
structure Bound (unit : Nat) (w : Walk) : Prop where
  unit_lt : unit < w.index.units.length
  enclosing_lt : ∀ e ∈ w.enclosing, e.1 < w.index.functions.length

theorem Bound.above_lt (h : w.Bound unit) (depth : Int) :
    ∀ e ∈ w.above depth, e.1 < w.index.functions.length :=
  fun e he => h.enclosing_lt e (List.dropWhile_sublist _ |>.mem he)

theorem Bound.owner_lt (h : w.Bound unit) (depth : Int) :
    ∀ f ∈ w.owner? depth, f < w.index.functions.length := by
  intro f hf
  obtain ⟨e, he, rfl⟩ := Option.map_eq_some_iff.1 hf
  exact h.above_lt depth e (List.mem_of_head? he)

/-- What encloses an entry of less depth is not changed by leaving deeper functions. -/
theorem above_of_le {w' : Walk} {depth depth' : Int} (hle : depth ≤ depth')
    (h : w'.above depth' = w.above depth') : w'.above depth = w.above depth := by
  have hdrop : ∀ l : List (Nat × Int), (l.dropWhile (·.2 ≥ depth')).dropWhile (·.2 ≥ depth) =
      l.dropWhile (·.2 ≥ depth) := by
    intro l
    induction l with
    | nil => rfl
    | cons e l ih =>
      by_cases hdeep : e.2 ≥ depth'
      · have hdeep' : e.2 ≥ depth := hle.trans hdeep
        rw [List.dropWhile_cons_of_pos (by simpa using hdeep), ih,
          List.dropWhile_cons_of_pos (by simpa using hdeep')]
      · rw [List.dropWhile_cons_of_neg (by simpa using hdeep)]
  rw [above, above, ← hdrop w'.enclosing, ← hdrop w.enclosing]
  exact congrArg _ h

/-- The functions that enclose an entry lie higher, so none of them is left at its depth or
below. -/
theorem dropWhile_above (w : Walk) {depth depth' : Int} (hle : depth ≤ depth') :
    (w.above depth).dropWhile (·.2 ≥ depth') = w.above depth := by
  rcases habove : w.above depth with _ | ⟨e, rest⟩
  · rfl
  · have hhigher := List.head?_dropWhile_not (fun e : Nat × Int => decide (e.2 ≥ depth)) w.enclosing
    have hhead : (w.above depth).head? = some e := by rw [habove, List.head?_cons]
    rw [above] at hhead
    rw [hhead] at hhigher
    rw [List.dropWhile_cons_of_neg (by simp at hhigher ⊢; omega)]

/-- At a function: it is added, and encloses what is below it. -/
theorem visit_function (h : w.Bound unit) (depth : Int) (f : FunctionEntry) :
    w.visit unit (depth, .function f) =
      .ok ⟨w.index.extend unit (w.owner? depth) [] [{ f with unit }] [], depth,
        (w.index.functions.length, depth) :: w.above depth⟩ := by
  simp only [visit, add, DebugIndex.addFunction?, if_pos h.unit_lt, DebugIndex.extend,
    DebugIndex.attach_nil]
  rfl

/-- At another entry that is not a unit: what it says is added, a variable to the innermost function
that encloses it, or to the unit. -/
theorem visit_other (h : w.Bound unit) (depth : Int) {entry : EntryContent}
    (hfunction : entry.function? = none) (hunit : ∀ u, entry ≠ .unit u) :
    w.visit unit (depth, entry) =
      .ok ⟨w.index.extend unit (w.owner? depth) entry.namedVariable?.toList [] entry.type?.toList,
        depth, w.above depth⟩ := by
  -- three kinds of entries are left, of which a variable goes to the innermost open function
  cases entry with
  | unit u => exact absurd rfl (hunit u)
  | function f => cases hfunction
  | namedVariable v =>
    -- the owner has been registered before, hence the addition can not fail
    have howner := h.owner_lt depth
    simp only [visit, add, DebugIndex.extend, owner?] at howner ⊢
    rcases habove : w.above depth with _ | ⟨⟨f, d⟩, rest⟩
    · simp only [DebugIndex.addGlobal?, if_pos h.unit_lt]
      exact congrArg (fun index => Except.ok (Walk.mk index depth [])) DebugIndex.register_nil.symm
    · rw [habove] at howner
      simp only [DebugIndex.addVariable?, if_pos (howner f rfl)]
      exact congrArg (fun index => Except.ok (Walk.mk index depth ((f, d) :: rest)))
        DebugIndex.register_nil.symm
  | type offset t =>
    simp only [DebugIndex.extend, EntryContent.namedVariable?, Option.toList_none,
      DebugIndex.attach_nil, DebugIndex.register_nil]
    rfl
  | other =>
    simp only [DebugIndex.extend, EntryContent.namedVariable?, Option.toList_none,
      DebugIndex.attach_nil, DebugIndex.register_nil]
    rfl

/-- The first entry of some trees is added, and what is below it has it as its owner, or the same
owner as itself. -/
theorem visit_first {entry : EntryContent} (hunit : ∀ u, entry ≠ .unit u)
    (hlocals : ∀ f, entry = .function f → f.locals = []) (h : w.Bound unit) (depth : Int)
    (below beside : Forest EntryContent) :
    ∃ w', w.visit unit (depth, entry) = .ok w' ∧ w'.Bound unit ∧ w'.above depth = w.above depth ∧
      (w'.index.grow unit (w'.owner? (depth + 1)) below).grow unit (w.owner? depth) beside =
        w.index.grow unit (w.owner? depth) (.cons entry below beside) := by
  -- an entry that is no function leaves the owner as it is, a function becomes the owner of what is
  -- below it
  rcases hfunction : entry.function? with _ | f
  · refine ⟨_, visit_other h depth hfunction hunit, ⟨?_, fun e he => ?_⟩, ?_, ?_⟩
    · rw [DebugIndex.length_units_extend]
      exact h.unit_lt
    · rw [DebugIndex.length_functions_extend]
      exact h.above_lt depth e he
    · exact dropWhile_above w (Int.le_refl depth)
    · have howner : ∀ index, owner? ⟨index, depth, w.above depth⟩ (depth + 1) = w.owner? depth :=
        fun _ => congrArg (fun l => l.head?.map (·.1)) (dropWhile_above w (by omega))
      rw [howner]
      exact DebugIndex.grow_cons hfunction (h.owner_lt depth) below beside
  · obtain rfl : entry = .function f := by
      cases entry <;> cases hfunction
      rfl
    refine ⟨_, visit_function h depth f, ⟨?_, fun e he => ?_⟩, ?_, ?_⟩
    · rw [DebugIndex.length_units_extend]
      exact h.unit_lt
    · rw [DebugIndex.length_functions_extend]
      rcases List.mem_cons.1 he with rfl | he
      · exact Nat.lt_succ_self _
      · exact Nat.lt_succ_of_lt (h.above_lt depth e he)
    · rw [above, List.dropWhile_cons_of_pos (by simp)]
      exact dropWhile_above w (Int.le_refl depth)
    · have howner : ∀ index number, owner? ⟨index, depth, (number, depth) :: w.above depth⟩
          (depth + 1) = some number := fun _ _ => by simp [owner?, above]
      rw [howner]
      exact DebugIndex.grow_cons_function (hlocals f rfl) (h.owner_lt depth) below beside

/-- A walk over trees adds what they say, and is behind them where it was before. -/
theorem foldlM_visit {contents : Forest EntryContent}
    (hunits : ∀ entry ∈ contents.entries, ∀ u, entry ≠ .unit u)
    (hlocals : ∀ f, .function f ∈ contents.entries → f.locals = []) (h : w.Bound unit)
    (depth : Int) :
    ∃ w', (contents.depths depth).foldlM (visit unit) w = .ok w' ∧
      w'.index = w.index.grow unit (w.owner? depth) contents ∧ w'.above depth = w.above depth ∧
      w'.Bound unit := by
  -- along the forest: first the entry, then what is below it, then what stands beside it
  induction contents generalizing w depth with
  | nil => exact ⟨w, rfl, DebugIndex.extend_nil.symm, rfl, h⟩
  | cons entry below beside ihbelow ihbeside =>
    have hbelow : ∀ e ∈ below.entries, e ∈ (Forest.cons entry below beside).entries :=
      fun e he => List.mem_cons_of_mem _ (List.mem_append_left _ he)
    have hbeside : ∀ e ∈ beside.entries, e ∈ (Forest.cons entry below beside).entries :=
      fun e he => List.mem_cons_of_mem _ (List.mem_append_right _ he)
    obtain ⟨w₁, hvisit, hbound, habove, hgrow⟩ :=
      visit_first (hunits entry List.mem_cons_self)
        (fun f hf => hlocals f (hf ▸ List.mem_cons_self)) h depth below beside
    obtain ⟨w₂, hfold₂, hindex₂, habove₂, hbound₂⟩ :=
      ihbelow (fun e he => hunits e (hbelow e he)) (fun f hf => hlocals f (hbelow _ hf)) hbound
        (depth + 1)
    obtain ⟨w₃, hfold₃, hindex₃, habove₃, hbound₃⟩ :=
      ihbeside (fun e he => hunits e (hbeside e he)) (fun f hf => hlocals f (hbeside _ hf)) hbound₂
        depth
    -- what was opened below is closed again by the depth of the entries beside
    have hback : w₂.above depth = w.above depth :=
      (above_of_le (by omega) habove₂).trans habove
    have howner : w₂.owner? depth = w.owner? depth := by rw [owner?, owner?, hback]
    refine ⟨w₃, ?_, ?_, habove₃.trans hback, hbound₃⟩
    · rw [Forest.depths, List.foldlM_cons, hvisit]
      show List.foldlM _ w₁ _ = _
      rw [List.foldlM_append, hfold₂]
      exact hfold₃
    · rw [hindex₃, howner, hindex₂, hgrow]

/-- No unit is added below another one. -/
theorem ne_unit_of_foldlM_visit {xs : List (Int × EntryContent)} {w' : Walk}
    (h : xs.foldlM (visit unit) w = .ok w') : ∀ x ∈ xs, ∀ u, x.2 ≠ .unit u := by
  induction xs generalizing w with
  | nil => simp
  | cons first xs ih =>
    obtain ⟨depth, entry⟩ := first
    rw [List.foldlM_cons] at h
    rcases hvisit : w.visit unit (depth, entry) with e | next <;> rw [hvisit] at h
    · cases h
    · intro x hx u hu
      rcases List.mem_cons.1 hx with rfl | hx
      · obtain rfl : entry = .unit u := hu
        cases hvisit
      · exact ih h x hx u hu

/-- Adding something does not move. -/
theorem depth_of_add {entry : EntryContent} {w' : Walk} (h : w.add unit entry = .ok w') :
    w'.depth = w.depth := by
  cases entry with
  | unit u => cases h
  | function f =>
    simp only [add] at h
    split at h <;> cases h <;> rfl
  | namedVariable v | type offset t | other =>
    cases h
    rfl

end Walk

/-- What an entry says; nothing if that cannot be read. -/
def Entry.said (u : UnitContext) (unitOffset : Nat) (bias : Addr) (e : Entry) : EntryContent :=
  ((e.content u unitOffset bias).toOption).getD .other

/-- What is said of an entry that can be read. -/
theorem Entry.said_of_content {u : UnitContext} {unitOffset : Nat} {bias : Addr} {e : Entry}
    {content : EntryContent} (hcontent : e.content u unitOffset bias = .ok content) :
    e.said u unitOffset bias = content := by
  rw [Entry.said, hcontent]
  rfl

/-- A walk with differences of depths is a walk with depths over what the entries say, if all of
them can be read. -/
theorem Walk.foldlM_step_iff {u : UnitContext} {unitOffset : Nat} {bias : Addr} {unit : Nat}
    {xs : List (Int × Entry)} {w w' : Walk} :
    (reported w.depth xs).foldlM (Walk.step u unitOffset bias unit) w = .ok w' ↔
      (∀ x ∈ xs, ∃ content, x.2.content u unitOffset bias = .ok content) ∧
        (xs.map fun x => (x.1, x.2.said u unitOffset bias)).foldlM (visit unit) w = .ok w' := by
  -- along the entries; the depth that a step computes is the one that the entry was reported with
  induction xs generalizing w with
  | nil => simp [reported]
  | cons first xs ih =>
    obtain ⟨depth, entry⟩ := first
    have hdepth : w.depth + (depth - w.depth) = depth := by omega
    rw [reported, List.foldlM_cons, List.map_cons, List.foldlM_cons, List.forall_mem_cons]
    -- an entry that can not be read ends both sides
    rcases hcontent : entry.content u unitOffset bias with e | content
    · have hstep : Walk.step u unitOffset bias unit w (depth - w.depth, entry) = .error e := by
        rw [Walk.step, hcontent]
        rfl
      rw [hstep]
      exact iff_of_false nofun (fun h => by simp at h)
    · have hstep : Walk.step u unitOffset bias unit w (depth - w.depth, entry) =
          w.visit unit (depth, content) := by
        rw [Walk.step, hcontent, visit, above, descend, hdepth]
        rfl
      rw [hstep, Entry.said_of_content hcontent]
      rcases hvisit : w.visit unit (depth, content) with e | next
      · exact iff_of_false nofun fun h => nomatch h.2
      · obtain rfl : next.depth = depth := depth_of_add hvisit
        refine (ih (w := next)).trans ?_
        exact ⟨fun ⟨hall, hfold⟩ => ⟨⟨⟨content, rfl⟩, hall⟩, hfold⟩,
          fun ⟨⟨_, hall⟩, hfold⟩ => ⟨hall, hfold⟩⟩

theorem exists_of_map_toOption {α β : Type} {x : Except DebugError α} {f : α → β} {b : β}
    (h : x.toOption.map f = some b) : ∃ a, x = .ok a ∧ f a = b := by
  rcases x with e | a
  · cases h
  · exact ⟨a, rfl, Option.some.inj h⟩

/-- A computation in two steps succeeds if both do. -/
theorem bind_eq_ok {α β : Type} {x : Except DebugError α} {f : α → Except DebugError β} {b : β} :
    (x >>= f) = .ok b ↔ ∃ a, x = .ok a ∧ f a = .ok b := by
  rcases x with e | a
  · exact iff_of_false nofun nofun
  · exact ⟨fun h => ⟨a, rfl, h⟩, fun ⟨_, h, h'⟩ => Except.ok.inj h ▸ h'⟩

/-- A function of a unit comes without variables. -/
theorem locals_of_subprogram {u : UnitContext} {bias : Addr} {e : Entry} {f : FunctionEntry}
    (h : e.subprogram u bias = .ok f) : f.locals = [] := by
  rw [Entry.subprogram, bind_eq_ok] at h
  obtain ⟨d, -, h⟩ := h
  split at h
  · cases h
  unfold SubprogramDraft.function at h
  split at h
  · cases h
    rfl
  · obtain ⟨high, -, h⟩ := bind_eq_ok.1 h
    split at h
    · cases h
    · obtain ⟨low', -, h⟩ := bind_eq_ok.1 h
      obtain ⟨high', -, h⟩ := bind_eq_ok.1 h
      cases h
      rfl

/-- What an entry can describe: functions, which are those of subprograms, and units without
functions and variables. -/
theorem content_cases {u : UnitContext} {unitOffset : Nat} {bias : Addr} {e : Entry}
    {content : EntryContent} (h : e.content u unitOffset bias = .ok content) :
    (∀ f, content = .function f → e.subprogram u bias = .ok f) ∧
      ∀ unit, content = .unit unit → unit.functions = [] ∧ unit.globals = [] := by
  -- one branch for each tag that is looked for
  unfold Entry.content at h
  split at h
  · obtain ⟨name, -, h⟩ := bind_eq_ok.1 h
    obtain ⟨compDir, -, h⟩ := bind_eq_ok.1 h
    cases h
    exact ⟨nofun, fun unit hunit => by cases hunit; exact ⟨rfl, rfl⟩⟩
  split at h
  · obtain ⟨f, hf, h⟩ := bind_eq_ok.1 h
    cases h
    exact ⟨fun g hg => by cases hg; exact hf, nofun⟩
  split at h
  · obtain ⟨v, -, h⟩ := bind_eq_ok.1 h
    cases v <;> cases h <;> exact ⟨nofun, nofun⟩
  split at h
  · obtain ⟨t, -, h⟩ := bind_eq_ok.1 h
    cases h
    exact ⟨nofun, nofun⟩
  · cases h
    exact ⟨nofun, nofun⟩

/-- Subprograms are functions, and variables and parameters that have a name are variables. -/
theorem kind_of_content {u : UnitContext} {unitOffset : Nat} {bias : Addr} {e : Entry}
    {content : EntryContent} (h : e.content u unitOffset bias = .ok content) :
    (content.function?.isSome ↔ e.tag = Tag.subprogram) ∧
      (content.namedVariable?.isSome ↔
        (e.tag = Tag.plainVariable ∨ e.tag = Tag.formalParameter) ∧
          ∃ name, u.textAttribute? e.attributes AttributeName.name = .ok (some name)) := by
  -- the kinds of entries have different tags
  have hother : ∀ {tag : Nat}, e.tag = tag → tag ∉ [Tag.subprogram, Tag.plainVariable,
      Tag.formalParameter] → e.tag ≠ Tag.subprogram ∧
        ¬ (e.tag = Tag.plainVariable ∨ e.tag = Tag.formalParameter) := by
    rintro tag rfl hmem
    simpa using hmem
  unfold Entry.content at h
  split at h
  · rename_i htag
    obtain ⟨name, -, h⟩ := bind_eq_ok.1 h
    obtain ⟨compDir, -, h⟩ := bind_eq_ok.1 h
    cases h
    obtain ⟨hsub, hvar⟩ : e.tag ≠ Tag.subprogram ∧
        ¬ (e.tag = Tag.plainVariable ∨ e.tag = Tag.formalParameter) :=
      htag.elim (hother · (by decide)) (hother · (by decide))
    exact ⟨iff_of_false nofun hsub, iff_of_false nofun fun h => hvar h.1⟩
  split at h
  · rename_i htag
    obtain ⟨f, -, h⟩ := bind_eq_ok.1 h
    cases h
    refine ⟨iff_of_true rfl htag, iff_of_false nofun fun h => ?_⟩
    rw [htag] at h
    exact absurd h.1 (by decide)
  rename_i hsub
  split at h
  · rename_i htag
    obtain ⟨v, hv, h⟩ := bind_eq_ok.1 h
    unfold Entry.namedVariable? at hv
    obtain ⟨name, hname, hv⟩ := bind_eq_ok.1 hv
    rcases name with _ | name
    · cases hv
      cases h
      exact ⟨iff_of_false nofun hsub, iff_of_false nofun fun h =>
        nomatch (hname.symm.trans h.2.choose_spec : Except.ok none = _)⟩
    · obtain ⟨location, -, hv⟩ := bind_eq_ok.1 hv
      obtain ⟨type, -, hv⟩ := bind_eq_ok.1 hv
      cases hv
      cases h
      exact ⟨iff_of_false nofun hsub, iff_of_true rfl ⟨htag, name, hname⟩⟩
  rename_i hvar
  split at h
  · obtain ⟨t, -, h⟩ := bind_eq_ok.1 h
    cases h
    exact ⟨iff_of_false nofun hsub, iff_of_false nofun fun h => hvar h.1⟩
  · cases h
    exact ⟨iff_of_false nofun hsub, iff_of_false nofun fun h => hvar h.1⟩

/-- The unit of a first entry comes without functions and variables. -/
theorem unitOrNone_of_content {u : UnitContext} {unitOffset : Nat} {bias : Addr} {e : Entry}
    {content : EntryContent} (h : e.content u unitOffset bias = .ok content) :
    content.unitOrNone.functions = [] ∧ content.unitOrNone.globals = [] := by
  cases content with
  | unit unit => exact (content_cases h).2 unit rfl
  | function f | namedVariable v | type offset t | other => exact ⟨rfl, rfl⟩

/-- What is known of a unit before it is walked over. -/
structure UnitRead (sections : Sections) (h : UnitHeader) (root : Entry) (forest : Forest Entry)
    (failure : Option DebugError) (r : UnitRoot) : Prop where
  /-- The entries are the first one and the trees below it, reported with the true differences of
  their depths, and `failure` is why there are no more. -/
  steps : ∃ bytes abbreviations delta,
    Sections.bytesFrom sections.abbreviations h.abbreviationOffset = .ok bytes ∧
      Abbreviation.readAll bytes = .ok abbreviations ∧
      h.steps abbreviations = ((delta, root) :: reported delta (forest.depths (delta + 1)), failure)
  /-- What the first entry says about the whole unit. -/
  root : UnitRoot.ofEntry sections h.encoding root = .ok r

/-- What a walk comes to that ends with a failure or without one. -/
def Walk.ended (w : Walk) (failure : Option DebugError) : Except DebugError DebugIndex :=
  failure.elim (.ok w.index) .error

/-- What becomes of an index by the line table of a unit, if it has one. -/
def UnitRoot.addLines (r : UnitRoot) (bias : Addr) (index : DebugIndex) :
    Except DebugError DebugIndex :=
  match r.lineTable with
  | some table => addLineTable r.context bias index table
  | none => .ok index

theorem UnitRoot.addLines_keeps {r : UnitRoot} {bias : Addr} {index lines : DebugIndex}
    (h : r.addLines bias index = .ok lines) :
    lines.functions = index.functions ∧ lines.units = index.units ∧ lines.types = index.types := by
  unfold addLines at h
  split at h
  · exact addLineTable_keeps h
  · cases h
    exact ⟨rfl, rfl, rfl⟩

section AddUnit

variable {sections : Sections} {bias : Addr} {index index' : DebugIndex} {h : UnitHeader}
  {root : Entry} {forest : Forest Entry} {failure : Option DebugError} {r : UnitRoot}

/-- Walking over the trees below the first entry of a unit adds what they say, if all of it can be
read and there is no other unit. -/
theorem foldlM_step_forest {unit unitOffset : Nat} {u : UnitContext} {lines : DebugIndex}
    (hunit : unit < lines.units.length) (depth : Int) :
    (∃ w, (reported depth (forest.depths (depth + 1))).foldlM (Walk.step u unitOffset bias unit)
        ⟨lines, depth, []⟩ = .ok w ∧ index' = w.index) ↔
      (∀ e ∈ forest.entries, ∃ content, e.content u unitOffset bias = .ok content ∧
        ∀ v, content ≠ .unit v) ∧
        index' = lines.grow unit none (forest.map (·.said u unitOffset bias)) := by
  have hstep : ∀ w, (reported depth (forest.depths (depth + 1))).foldlM
      (Walk.step u unitOffset bias unit) ⟨lines, depth, []⟩ = .ok w ↔
      (∀ e ∈ forest.entries, ∃ content, e.content u unitOffset bias = .ok content) ∧
        ((forest.map (·.said u unitOffset bias)).depths (depth + 1)).foldlM (Walk.visit unit)
          ⟨lines, depth, []⟩ = .ok w := by
    intro w
    rw [Forest.depths_map, ← forest.map_depths (depth + 1), List.forall_mem_map]
    exact Walk.foldlM_step_iff (w := ⟨lines, depth, []⟩)
  -- what a walk over entries that can be read, none of them a unit, does
  have hwalk : (∀ e ∈ forest.entries, ∃ content, e.content u unitOffset bias = .ok content ∧
      ∀ v, content ≠ .unit v) →
      ∃ w, ((forest.map (·.said u unitOffset bias)).depths (depth + 1)).foldlM (Walk.visit unit)
        ⟨lines, depth, []⟩ = .ok w ∧
        w.index = lines.grow unit none (forest.map (·.said u unitOffset bias)) := by
    intro hall
    have hcontents : ∀ entry ∈ (forest.map (·.said u unitOffset bias)).entries,
        (∀ v, entry ≠ .unit v) ∧ ∀ f, entry = .function f → f.locals = [] := by
      rw [Forest.entries_map, List.forall_mem_map]
      intro e he
      obtain ⟨content, hcontent, hne⟩ := hall e he
      rw [Entry.said_of_content hcontent]
      exact ⟨hne, fun f hf => locals_of_subprogram ((content_cases hcontent).1 f hf)⟩
    obtain ⟨w, hfold, hindex, -, -⟩ := Walk.foldlM_visit (w := ⟨lines, depth, []⟩)
      (fun entry he => (hcontents entry he).1) (fun f hf => (hcontents _ hf).2 f rfl)
      ⟨hunit, by simp⟩ (depth + 1)
    exact ⟨w, hfold, hindex⟩
  constructor
  · rintro ⟨w, hfold, rfl⟩
    obtain ⟨hall, hfold⟩ := (hstep w).1 hfold
    have hne : ∀ e ∈ forest.entries, ∃ content, e.content u unitOffset bias = .ok content ∧
        ∀ v, content ≠ .unit v := by
      intro e he
      obtain ⟨content, hcontent⟩ := hall e he
      refine ⟨content, hcontent, ?_⟩
      have hmem : content ∈
          ((forest.map (·.said u unitOffset bias)).depths (depth + 1)).map (·.2) := by
        rw [Forest.map_depths, Forest.entries_map]
        exact List.mem_map.2 ⟨e, he, Entry.said_of_content hcontent⟩
      obtain ⟨x, hx, rfl⟩ := List.mem_map.1 hmem
      exact Walk.ne_unit_of_foldlM_visit hfold x hx
    obtain ⟨w', hfold', hindex⟩ := hwalk hne
    obtain rfl : w = w' := Except.ok.inj (hfold.symm.trans hfold')
    exact ⟨hne, hindex⟩
  · rintro ⟨hall, rfl⟩
    obtain ⟨w, hfold, hindex⟩ := hwalk hall
    exact ⟨w, (hstep w).2 ⟨fun e he => (hall e he).imp fun _ => And.left, hfold⟩, hindex.symm⟩

/-- A unit is added if its entries can be read to their end, its line table can be, and no other
unit is described below it. -/
theorem addUnit_eq_ok_iff (hread : UnitRead sections h root forest failure r) :
    addUnit sections bias index h = .ok index' ↔
      ∃ content lines, root.content r.context h.offset bias = .ok content ∧
        r.addLines bias (index.addUnit content.unitOrNone) = .ok lines ∧ failure = none ∧
        (∀ e ∈ forest.entries, ∃ content, e.content r.context h.offset bias = .ok content ∧
          ∀ u, content ≠ .unit u) ∧
        index' =
          lines.grow index.units.length none (forest.map (·.said r.context h.offset bias)) := by
  obtain ⟨⟨bytes, abbreviations, delta, hbytes, habbreviations, hsteps⟩, hroot⟩ := hread
  -- the readers answer as `hread` says; what is left is the walk over what they gave
  have hunfold : addUnit sections bias index h = (do
      let content ← root.content r.context h.offset bias
      let lines ← r.addLines bias (index.addUnit content.unitOrNone)
      let w ← (reported delta (forest.depths (delta + 1))).foldlM
        (Walk.step r.context h.offset bias index.units.length) ⟨lines, delta, []⟩
      w.ended failure) := by
    unfold addUnit UnitRoot.addLines
    simp only [hbytes, habbreviations, hsteps, hroot, bind, Except.bind]
    rcases root.content r.context h.offset bias with e | content
    · rfl
    · cases content <;> cases r.lineTable <;> cases failure <;> rfl
  rw [hunfold, bind_eq_ok]
  refine exists_congr fun content => ?_
  rw [bind_eq_ok, ← exists_and_left]
  refine exists_congr fun lines => and_congr_right fun _ => and_congr_right fun hlines => ?_
  have hunit : index.units.length < lines.units.length := by
    rw [(UnitRoot.addLines_keeps hlines).2.1, DebugIndex.addUnit, List.length_append]
    exact Nat.lt_succ_self _
  rw [bind_eq_ok, ← foldlM_step_forest hunit delta]
  -- a cursor that fails at the end fails the unit, also if every entry was added
  rcases failure with _ | e
  · simp only [true_and]
    exact exists_congr fun w => and_congr_right fun _ =>
      ⟨fun hok => (Except.ok.inj hok).symm, fun hindex => hindex ▸ rfl⟩
  · refine iff_of_false ?_ ?_
    · rintro ⟨_, _, hok⟩
      cases hok
    · rintro ⟨hend, -⟩
      cases hend

/-- A unit that is added brings its functions, and one unit with their numbers and the variables
outside of them. -/
theorem tables_of_addUnit (hread : UnitRead sections h root forest failure r)
    (hadd : addUnit sections bias index h = .ok index') :
    let contents := forest.map (·.said r.context h.offset bias)
    let functions := contents.functions index.units.length
    index'.functions = index.functions ++ functions ∧
      index'.units = index.units ++
        [{ (root.said r.context h.offset bias).unitOrNone with
            functions := List.range' index.functions.length functions.length
            globals := contents.ownVariables }] := by
  obtain ⟨content, lines, hcontent, hlines, -, hall, rfl⟩ := (addUnit_eq_ok_iff hread).1 hadd
  obtain ⟨hfunctions, hunits, -⟩ := UnitRoot.addLines_keeps hlines
  obtain ⟨hnone, hnone'⟩ := unitOrNone_of_content hcontent
  refine ⟨congrArg (· ++ _) hfunctions, ?_⟩
  simp only [DebugIndex.grow, DebugIndex.extend, DebugIndex.register, DebugIndex.attach, hunits,
    hfunctions, DebugIndex.addUnit, DebugIndex.modify_concat, hnone, hnone', List.nil_append,
    Entry.said_of_content hcontent]

/-- A unit cannot be added if and only if its entries cannot be read to their end, or what one of
them says cannot be, or the line table cannot be, or another unit is described below the first
entry. -/
theorem addUnit_eq_error_iff (hread : UnitRead sections h root forest failure r) :
    (∃ e, addUnit sections bias index h = .error e) ↔
      failure ≠ none ∨
      (∃ e ∈ root :: forest.entries, ∃ err, e.content r.context h.offset bias = .error err) ∨
      (∃ err, r.addLines bias
        (index.addUnit (root.said r.context h.offset bias).unitOrNone) = .error err) ∨
      ∃ e ∈ forest.entries, ∃ v, e.content r.context h.offset bias = .ok (.unit v) := by
  have herror : (∃ e, addUnit sections bias index h = .error e) ↔
      ¬ ∃ index', addUnit sections bias index h = .ok index' := by
    rcases addUnit sections bias index h with e | index'
    · exact iff_of_true ⟨e, rfl⟩ nofun
    · exact iff_of_false nofun (fun h => h ⟨index', rfl⟩)
  rw [herror]
  constructor
  -- without a reason to fail, all that is read for the unit is there
  · intro hfails
    by_contra hnone
    push Not at hnone
    obtain ⟨hend, hread', hlines, hunits⟩ := hnone
    have hcontent : ∀ e ∈ root :: forest.entries, ∃ content,
        e.content r.context h.offset bias = .ok content := by
      intro e he
      rcases hcontent : e.content r.context h.offset bias with err | content
      · exact absurd hcontent (hread' e he err)
      · exact ⟨content, rfl⟩
    obtain ⟨content, hroot⟩ := hcontent root List.mem_cons_self
    rw [Entry.said_of_content hroot] at hlines
    rcases hadded : r.addLines bias (index.addUnit content.unitOrNone) with err | lines
    · exact hlines err hadded
    · refine hfails ⟨_, (addUnit_eq_ok_iff hread).2 ⟨content, lines, hroot, hadded, hend,
        fun e he => ?_, rfl⟩⟩
      obtain ⟨c, hc⟩ := hcontent e (List.mem_cons_of_mem _ he)
      exact ⟨c, hc, fun v hv => hunits e he v (hv ▸ hc)⟩
  · rintro hreason ⟨index', hadd⟩
    obtain ⟨content, lines, hroot, hlines, hend, hall, -⟩ := (addUnit_eq_ok_iff hread).1 hadd
    rcases hreason with hfailure | ⟨e, he, err, herr⟩ | ⟨err, herr⟩ | ⟨e, he, v, hv⟩
    · exact hfailure hend
    · rcases List.mem_cons.1 he with rfl | he
      · cases hroot.symm.trans herr
      · obtain ⟨c, hc, -⟩ := hall e he
        cases hc.symm.trans herr
    · rw [Entry.said_of_content hroot] at herr
      cases hlines.symm.trans herr
    · obtain ⟨c, hc, hne⟩ := hall e he
      exact hne v (Except.ok.inj (hc.symm.trans hv))

/-- Adding a unit adds its functions in the order of the document, one for each subprogram below the
first entry, and gives each variable and parameter that has a name to the nearest function above it,
or to the unit if there is none, also in the order of the document. It fails if and only if the
entries cannot be read to their end, or what one of them says cannot be, or the line table cannot
be, or another unit is described below the first entry. -/
theorem addUnit_forest (hread : UnitRead sections h root forest failure r) (index : DebugIndex) :
    let contents := forest.map (·.said r.context h.offset bias)
    let unit := (root.said r.context h.offset bias).unitOrNone
    let functions := contents.functions index.units.length
    let named := contents.entries.filterMap EntryContent.namedVariable?
    (∀ index', addUnit sections bias index h = .ok index' →
      index'.functions = index.functions ++ functions ∧
      index'.units = index.units ++
        [{ unit with
            functions := List.range' index.functions.length functions.length
            globals := contents.ownVariables }] ∧
      functions.map (fun f => { f with locals := [] }) =
        (contents.entries.filterMap EntryContent.function?).map
          (fun f => { f with unit := index.units.length, locals := [] }) ∧
      (functions.flatMap (·.locals) ++ contents.ownVariables).Perm named ∧
      contents.ownVariables.Sublist named ∧ (∀ f ∈ functions, f.locals.Sublist named) ∧
      ∀ e ∈ forest.entries,
        ((e.said r.context h.offset bias).function?.isSome ↔ e.tag = Tag.subprogram) ∧
        ((e.said r.context h.offset bias).namedVariable?.isSome ↔
          (e.tag = Tag.plainVariable ∨ e.tag = Tag.formalParameter) ∧
            ∃ name, r.context.textAttribute? e.attributes AttributeName.name = .ok (some name))) ∧
    ((∃ e, addUnit sections bias index h = .error e) ↔
      failure ≠ none ∨
      (∃ e ∈ root :: forest.entries, ∃ err, e.content r.context h.offset bias = .error err) ∨
      (∃ err, r.addLines bias (index.addUnit unit) = .error err) ∨
      ∃ e ∈ forest.entries, ∃ v, e.content r.context h.offset bias = .ok (.unit v)) := by
  intro contents unit functions named
  refine ⟨fun index' hadd => ?_, addUnit_eq_error_iff hread⟩
  obtain ⟨hfunctions, hunits⟩ := tables_of_addUnit hread hadd
  refine ⟨hfunctions, hunits, contents.functions_eq _, contents.perm_variables _,
    contents.ownVariables_sublist, fun f hf => Forest.locals_sublist hf, fun e he => ?_⟩
  obtain ⟨content, lines, -, -, -, hall, -⟩ := (addUnit_eq_ok_iff hread).1 hadd
  obtain ⟨content, hcontent, -⟩ := hall e he
  rw [Entry.said_of_content hcontent]
  exact kind_of_content hcontent

end AddUnit

/-! ### A unit with nested functions -/

/-- Descriptions of entries: a unit, a function and a block, all with children, and a variable. Each
but the block has a name. -/
def nestedAbbreviations : List UInt8 :=
  [1, 0x11, 1, 3, 8, 0, 0, 2, 0x2e, 1, 3, 8, 0, 0, 3, 0x0b, 1, 0, 0, 4, 0x34, 0, 3, 8, 0, 0, 0]

/-- The entries of a unit `u` with a function `f` and a variable `w` behind it. In the function are
a variable `x` and a block, and in the block a function `g` with a variable `y`, and a variable
`z`. -/
def nestedEntries : List UInt8 :=
  [1, 0x75, 0, 2, 0x66, 0, 4, 0x78, 0, 3, 2, 0x67, 0, 4, 0x79, 0, 0, 4, 0x7a, 0, 0, 0, 4, 0x77, 0,
    0]

def nestedSections : Sections :=
  ⟨.empty, ⟨nestedAbbreviations.toArray⟩, .empty, .empty, .empty, .empty, .empty⟩

def nestedHeader : UnitHeader := ⟨0, ⟨false, 4, 8⟩, 0, 11, nestedEntries⟩

/-- An entry with a name. -/
def namedEntry (offset tag : Nat) (name : UInt8) : Entry :=
  ⟨offset, tag, ⟨[⟨AttributeName.name, .text [name]⟩], none⟩⟩

/-- The trees below the first entry. -/
def nestedForest : Forest Entry :=
  .cons (namedEntry 14 Tag.subprogram 0x66)
    (.cons (namedEntry 17 Tag.plainVariable 0x78) .nil
      (.cons ⟨20, 0x0b, ⟨[], none⟩⟩
        (.cons (namedEntry 21 Tag.subprogram 0x67)
          (.cons (namedEntry 24 Tag.plainVariable 0x79) .nil .nil)
          (.cons (namedEntry 28 Tag.plainVariable 0x7a) .nil .nil)) .nil))
    (.cons (namedEntry 33 Tag.plainVariable 0x77) .nil .nil)

theorem unitRead_nested :
    UnitRead nestedSections nestedHeader (namedEntry 11 Tag.compileUnit 0x75) nestedForest none
      ⟨⟨nestedSections, ⟨false, 4, 8⟩, ⟨0, 0⟩⟩, none⟩ where
  steps := ⟨nestedAbbreviations, _, 0, by decide +kernel, rfl, by decide +kernel⟩
  root := rfl

/-- The variable behind the inner function belongs to the outer one, and the one behind both to the
unit. -/
theorem addUnit_forest_nested :
    UnitRead nestedSections nestedHeader (namedEntry 11 Tag.compileUnit 0x75) nestedForest none
        ⟨⟨nestedSections, ⟨false, 4, 8⟩, ⟨0, 0⟩⟩, none⟩ ∧
      ∃ index, addUnit nestedSections .null (.empty "") nestedHeader = .ok index ∧
        index.functions.map (fun f => (f.name, f.locals.map (·.name))) =
          [("f", ["x", "z"]), ("g", ["y"])] ∧
        index.units.map (fun u => (u.functions, u.globals.map (·.name))) = [([0, 1], ["w"])] := by
  refine ⟨unitRead_nested, ?_⟩
  obtain ⟨index, hadd, -⟩ := exists_of_map_toOption
    (by decide +kernel : (addUnit nestedSections .null (.empty "") nestedHeader).toOption.map
      (fun _ => ()) = some ())
  obtain ⟨hfunctions, hunits, -⟩ := (addUnit_forest unitRead_nested _).1 index hadd
  refine ⟨index, hadd, ?_, ?_⟩
  · rw [hfunctions]
    decide +kernel
  · rw [hunits]
    decide +kernel

end SourceDebugger.DebugInfo
