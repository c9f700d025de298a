import Mathlib.Order.Defs.Unbundled
import SourceDebugger.Index.SortedMap

/-!
# Looking up in sorted maps

What is found in a map after a change. That the keys are in order is needed only where the new value
depends on the old one, `Ascending.find?_update`.
-/

namespace SourceDebugger.SortedMap

variable {κ υ : Type} [DecidableEq κ] [LT κ] [DecidableRel (fun a b : κ => a < b)]

omit [LT κ] [DecidableRel (fun a b : κ => a < b)] in
/-- The first key that matches decides. -/
theorem find?_cons (k k' : κ) (v : υ) (m : SortedMap κ υ) :
    find? ((k', v) :: m) k = if k' = k then some v else find? m k := by
  by_cases h : k' = k <;> simp [find?, h]

omit [LT κ] [DecidableRel (fun a b : κ => a < b)] in
/-- What is found under a key is in the map. -/
theorem mem_of_find? {m : SortedMap κ υ} {k : κ} {v : υ} (h : find? m k = some v) : (k, v) ∈ m := by
  obtain ⟨e, he, rfl⟩ := Option.map_eq_some_iff.1 h
  have hkey : e.1 = k := by simpa using List.find?_some he
  exact hkey ▸ List.mem_of_find?_eq_some he

/-- What was entered is found, whatever was there before. -/
theorem find?_update_self (m : SortedMap κ υ) (k : κ) (v : υ) :
    find? (m.update k v fun _ => v) k = some v := by
  induction m with
  | nil => simp [update, find?_cons]
  | cons entry rest ih =>
    obtain ⟨k', v'⟩ := entry
    rw [update]
    -- the key is here, or it comes later, or it is entered here
    split
    · simp [find?_cons]
    · split
      · rename_i hne _
        rw [find?_cons, if_neg hne, ih]
      · simp [find?_cons]

/-- Nothing else has changed. -/
theorem find?_update_of_ne (m : SortedMap κ υ) {k k' : κ} (v : υ) (f : υ → υ) (h : k' ≠ k) :
    find? (m.update k v f) k' = find? m k' := by
  induction m with
  | nil => simp [update, Ne.symm h, find?]
  | cons entry rest ih =>
    obtain ⟨j, w⟩ := entry
    rw [update]
    -- in each case `k` is entered or changed, and not `k'`
    split
    · rename_i hj
      rw [find?_cons, find?_cons, if_neg (Ne.symm h), if_neg (hj ▸ Ne.symm h)]
    · split
      · rw [find?_cons, find?_cons, ih]
      · rw [find?_cons, if_neg (Ne.symm h)]

omit [LT κ] [DecidableRel (fun a b : κ => a < b)] in
/-- A key that was taken away is not found, and the others are found as before. -/
theorem find?_filter (m : SortedMap κ υ) (k k' : κ) :
    find? (m.filter (·.1 != k)) k' = if k' = k then none else find? m k' := by
  induction m with
  | nil => simp [find?]
  | cons entry rest ih =>
    obtain ⟨j, w⟩ := entry
    -- an entry that is taken away has no other key
    by_cases hj : j = k
    · rw [List.filter_cons_of_neg (by simp [hj]), ih, find?_cons]
      by_cases hk : k' = k
      · rw [if_pos hk, if_pos hk]
      · rw [if_neg hk, if_neg hk, if_neg (hj ▸ Ne.symm hk)]
    · rw [List.filter_cons_of_pos (by simpa using hj), find?_cons, find?_cons, ih]
      by_cases hk : k' = k
      · rw [if_neg (hk ▸ hj), if_pos hk, if_pos hk]
      · rw [if_neg hk, if_neg hk]

/-! ### Maps in key order -/

/-- The keys of a map are in order, and each of them is there once. -/
def Ascending (m : SortedMap κ υ) : Prop := m.Pairwise (·.1 < ·.1)

/-- What a map has after a change it had before, or it has it by the change. -/
theorem mem_update {m : SortedMap κ υ} {k : κ} {default : υ} {f : υ → υ} {e : κ × υ}
    (he : e ∈ m.update k default f) :
    e ∈ m ∨ e.1 = k ∧ (e.2 = f default ∨ ∃ v, (k, v) ∈ m ∧ e.2 = f v) := by
  induction m with
  | nil =>
    cases List.mem_singleton.1 he
    exact .inr ⟨rfl, .inl rfl⟩
  | cons entry rest ih =>
    obtain ⟨k', v⟩ := entry
    rw [update] at he
    -- the entry that changes is here, or it comes later, or it is a new one
    split at he
    · rename_i hk
      subst hk
      rcases List.mem_cons.1 he with rfl | he
      · exact .inr ⟨rfl, .inr ⟨v, List.mem_cons_self, rfl⟩⟩
      · exact .inl (List.mem_cons_of_mem _ he)
    · split at he
      · rcases List.mem_cons.1 he with rfl | he
        · exact .inl List.mem_cons_self
        · rcases ih he with h | ⟨hkey, h | ⟨w, hw, h⟩⟩
          · exact .inl (List.mem_cons_of_mem _ h)
          · exact .inr ⟨hkey, .inl h⟩
          · exact .inr ⟨hkey, .inr ⟨w, List.mem_cons_of_mem _ hw, h⟩⟩
      · rcases List.mem_cons.1 he with rfl | he
        · exact .inr ⟨rfl, .inl rfl⟩
        · exact .inl he

/-- Updating a key adds it, if it was not there, and no other. -/
theorem mem_keys_update {m : SortedMap κ υ} {k k' : κ} {default : υ} {f : υ → υ} :
    k' ∈ (m.update k default f).keys ↔ k' = k ∨ k' ∈ m.keys := by
  induction m with
  | nil => simp [update, keys]
  | cons entry rest ih =>
    obtain ⟨j, v⟩ := entry
    simp only [keys] at ih ⊢
    rw [update]
    split
    · rename_i hj
      simp [hj]
    · split
      · rw [List.map_cons, List.mem_cons, ih, List.map_cons, List.mem_cons]
        exact or_left_comm
      · simp

/-- What is listed of a map after a change of one value is what was listed before and what the
change brings. -/
theorem perm_flatMap_update {γ : Type} {g : κ × υ → List γ} {k : κ} {default : υ} {f : υ → υ}
    {added : List γ}
    (hchange : ∀ v, (g (k, f v)).Perm (g (k, v) ++ added)) (hdefault : g (k, default) = [])
    (m : SortedMap κ υ) : ((m.update k default f).flatMap g).Perm (m.flatMap g ++ added) := by
  -- a key that is new starts from the default, which contributes nothing
  have hnew : (g (k, f default)).Perm added := by simpa [hdefault] using hchange default
  induction m with
  | nil => simpa [update] using hnew
  | cons entry rest ih =>
    obtain ⟨k', v⟩ := entry
    rw [update]
    split
    · rename_i hk
      subst hk
      rw [List.flatMap_cons, List.flatMap_cons]
      refine ((hchange v).append_right _).trans ?_
      rw [List.append_assoc, List.append_assoc]
      exact (List.perm_append_comm).append_left _
    · split
      · rw [List.flatMap_cons, List.flatMap_cons, List.append_assoc]
        exact ih.append_left _
      · rw [List.flatMap_cons]
        exact (hnew.append_right _).trans List.perm_append_comm

namespace Ascending

variable {m : SortedMap κ υ} [IsStrictTotalOrder κ (· < ·)]

/-- The keys ascend after an update. -/
theorem update (h : m.Ascending) (k : κ) (default : υ) (f : υ → υ) :
    (m.update k default f).Ascending := by
  induction m with
  | nil => exact List.pairwise_singleton _ _
  | cons entry rest ih =>
    obtain ⟨k', v⟩ := entry
    obtain ⟨hfirst, hrest⟩ := List.pairwise_cons.1 h
    rw [SortedMap.update]
    split
    · rename_i hk
      subst hk
      exact List.pairwise_cons.2 ⟨hfirst, hrest⟩
    rename_i hne
    split
    -- what comes behind the first key is the old rest or the key `k`
    · rename_i hlt
      refine List.pairwise_cons.2 ⟨fun e he => ?_, ih hrest⟩
      rcases mem_update he with he | ⟨hkey, -⟩
      · exact hfirst e he
      · exact hkey ▸ hlt
    · rename_i hnlt
      have hlt : k < k' := ((trichotomous_of (· < ·) k' k).resolve_left hnlt).resolve_left hne
      refine List.pairwise_cons.2 ⟨fun e he => ?_, h⟩
      rcases List.mem_cons.1 he with rfl | he
      · exact hlt
      · exact Trans.trans hlt (hfirst e he)

/-- What is found at a key after its value was changed. -/
theorem find?_update (h : m.Ascending) (k : κ) (default : υ) (f : υ → υ) :
    find? (m.update k default f) k = some (f ((find? m k).getD default)) := by
  induction m with
  | nil => simp [SortedMap.update, find?]
  | cons entry rest ih =>
    obtain ⟨k', v⟩ := entry
    obtain ⟨hfirst, hrest⟩ := List.pairwise_cons.1 h
    rw [SortedMap.update]
    split
    · rename_i hk
      simp [find?_cons, hk]
    rename_i hne
    split
    · rw [find?_cons, if_neg hne, ih hrest, find?_cons, if_neg hne]
    -- the key is new, as all keys behind this place are greater
    · rename_i hnlt
      have hlt : k < k' := ((trichotomous_of (· < ·) k' k).resolve_left hnlt).resolve_left hne
      have habsent : find? ((k', v) :: rest) k = none := by
        rw [find?, Option.map_eq_none_iff, List.find?_eq_none]
        intro e he
        have hgt : k < e.1 := by
          rcases List.mem_cons.1 he with rfl | he
          · exact hlt
          · exact Trans.trans hlt (hfirst e he)
        have hne : e.1 ≠ k := fun heq => irrefl_of (· < ·) k (heq ▸ hgt)
        simpa using hne
      rw [habsent, find?_cons, if_pos rfl]
      rfl

end Ascending

/-! ### Other values -/

section MapValues

variable {υ' : Type} (g : υ → υ')

/-- The map with other values at the same keys. -/
def mapValues (m : SortedMap κ υ) : SortedMap κ υ' := m.map fun (k, v) => (k, g v)

omit [DecidableEq κ] [LT κ] [DecidableRel (fun a b : κ => a < b)] in
/-- Changing the values keeps the keys. -/
@[simp] theorem keys_mapValues (m : SortedMap κ υ) : keys (mapValues g m) = keys m := by
  simp [keys, mapValues, Function.comp_def]

omit [LT κ] [DecidableRel (fun a b : κ => a < b)] in
/-- Changing the values changes what is found under each key. -/
@[simp] theorem find?_mapValues (m : SortedMap κ υ) (k : κ) :
    find? (mapValues g m) k = (find? m k).map g := by
  induction m with
  | nil => rfl
  | cons entry rest ih =>
    obtain ⟨k', v⟩ := entry
    rw [mapValues, List.map_cons, find?_cons, find?_cons, ← mapValues, ih]
    split <;> rfl

/-- A change of the old values is the one of the new values that goes with it. -/
theorem update_mapValues {f : υ → υ} {f' : υ' → υ'} (h : ∀ v, f' (g v) = g (f v))
    (m : SortedMap κ υ) (k : κ) (default : υ) :
    update (mapValues g m) k (g default) f' = mapValues g (update m k default f) := by
  induction m with
  | nil => simp [update, mapValues, h]
  | cons entry rest ih =>
    obtain ⟨k', v⟩ := entry
    have hrest : mapValues g ((k', v) :: rest) = (k', g v) :: mapValues g rest := rfl
    rw [hrest, update, update, ih]
    split
    · simp [mapValues, h]
    · split <;> simp [mapValues, h]

end MapValues

end SourceDebugger.SortedMap
