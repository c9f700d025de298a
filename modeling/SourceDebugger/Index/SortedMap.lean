/-!
# Maps in key order

A map as a list of keys and values in ascending order of the keys.
-/

namespace SourceDebugger

/-- A map as a list of keys and values in ascending order of the keys. -/
abbrev SortedMap (κ υ : Type) := List (κ × υ)

namespace SortedMap

variable {κ υ : Type} [DecidableEq κ] [LT κ] [DecidableRel (fun a b : κ => a < b)]

/-- The value at a key. -/
def find? (m : SortedMap κ υ) (k : κ) : Option υ :=
  (List.find? (·.1 == k) m).map (·.2)

/-- Changes the value at a key, or enters the key with the change of `default`. -/
def update (m : SortedMap κ υ) (k : κ) (default : υ) (f : υ → υ) : SortedMap κ υ :=
  match m with
  | [] => [(k, f default)]
  | (k', v) :: rest =>
    if k' = k then (k, f v) :: rest
    else if k' < k then (k', v) :: update rest k default f
    else (k, f default) :: (k', v) :: rest

/-- The keys in ascending order. -/
def keys (m : SortedMap κ υ) : List κ := m.map (·.1)

end SortedMap

end SourceDebugger
