import Mathlib.Data.List.Nodup
import Mathlib.Tactic.SplitIfs

/-!
# Tables

A table is a list of keys and values, looked up from its front. While no key stands in it twice, a
selection by values selects what each key finds.
-/

namespace CodeTidy.Table

variable {α β : Type}

/-- No key stands twice in the table. -/
def Distinct (table : List (α × β)) : Prop := (table.map Prod.fst).Nodup

/-- A selection of a table has no key twice. -/
theorem Distinct.filter {table : List (α × β)} (h : Distinct table) (keep : α × β → Bool) :
    Distinct (table.filter keep) :=
  h.sublist (List.filter_sublist.map Prod.fst)

variable [BEq α] [LawfulBEq α]

/-- A key finds the first entry of a table if it is the key of it. -/
theorem lookup_cons [DecidableEq α] (entry : α × β) (table : List (α × β)) (key : α) :
    (entry :: table).lookup key = if key = entry.1 then some entry.2 else table.lookup key := by
  rw [List.lookup_cons]
  split_ifs with h
  · rw [beq_iff_eq.mpr h]
  · rw [beq_eq_false_iff_ne.mpr h]

/-- What a key finds stands in the table with it. -/
theorem mem_of_lookup {table : List (α × β)} {key : α} {value : β}
    (h : table.lookup key = some value) : (key, value) ∈ table := by
  obtain ⟨l₁, l₂, heq, -⟩ := List.lookup_eq_some_iff.mp h
  rw [heq]
  exact List.mem_append_right _ List.mem_cons_self

/-- A key that does not stand in the table finds nothing. -/
theorem lookup_eq_none_of_notMem {table : List (α × β)} {key : α}
    (h : key ∉ table.map Prod.fst) : table.lookup key = none := by
  rw [List.lookup_eq_none_iff]
  intro entry hentry
  rw [bne_iff_ne]
  rintro rfl
  exact h (List.mem_map.mpr ⟨entry, hentry, rfl⟩)

/-- A key finds what stands in the table with it. -/
theorem Distinct.lookup_of_mem [DecidableEq α] {table : List (α × β)} (h : Distinct table)
    {entry : α × β} (hmem : entry ∈ table) : table.lookup entry.1 = some entry.2 := by
  unfold Distinct at h
  induction table with
  | nil => exact absurd hmem List.not_mem_nil
  | cons first rest ih =>
    rw [List.map_cons, List.nodup_cons] at h
    rw [lookup_cons]
    rcases List.mem_cons.mp hmem with rfl | hrest
    · rw [if_pos rfl]
    · have hne : entry.1 ≠ first.1 := fun heq =>
        h.1 (List.mem_map.mpr ⟨entry, hrest, heq⟩)
      rw [if_neg hne]
      exact ih h.2 hrest

/-- The order in which a table is written makes no difference to what a key finds. -/
theorem Distinct.lookup_perm [DecidableEq α] {table other : List (α × β)} (h : Distinct table)
    (hperm : table.Perm other) (key : α) : table.lookup key = other.lookup key := by
  have hother : Distinct other := (hperm.map Prod.fst).nodup_iff.mp h
  ext value
  constructor
  · intro hvalue
    exact hother.lookup_of_mem (hperm.mem_iff.mp (mem_of_lookup hvalue))
  · intro hvalue
    exact h.lookup_of_mem (hperm.mem_iff.mpr (mem_of_lookup hvalue))

/-- The table of the keys that have a value, each with its value. -/
def ofKeys (keys : List α) (value : α → Option β) : List (α × β) :=
  keys.filterMap fun key => (value key).map fun v => (key, v)

omit [BEq α] [LawfulBEq α] in
/-- The table holds the values of its keys. -/
theorem mem_ofKeys {keys : List α} {value : α → Option β} {key : α} {v : β} :
    (key, v) ∈ ofKeys keys value ↔ key ∈ keys ∧ value key = some v := by
  unfold ofKeys
  rw [List.mem_filterMap]
  constructor
  · rintro ⟨k, hk, hv⟩
    obtain ⟨w, hw, heq⟩ := Option.map_eq_some_iff.mp hv
    obtain ⟨rfl, rfl⟩ := Prod.mk.inj heq
    exact ⟨hk, hw⟩
  · rintro ⟨hkey, hv⟩
    exact ⟨key, hkey, by rw [hv, Option.map_some]⟩

omit [BEq α] [LawfulBEq α] in
/-- No key stands twice in the table if none does in the list of keys. -/
theorem distinct_ofKeys {keys : List α} (h : keys.Nodup) (value : α → Option β) :
    Distinct (ofKeys keys value) := by
  have hkeys : (ofKeys keys value).map Prod.fst = keys.filter fun key => (value key).isSome := by
    unfold ofKeys
    rw [List.map_filterMap, ← List.filterMap_eq_filter]
    congr 1
    funext key
    cases hv : value key <;> simp [Option.guard, hv]
  unfold Distinct
  rw [hkeys]
  exact h.filter _

/-- Each key in the list of keys finds its value. -/
theorem lookup_ofKeys [DecidableEq α] {keys : List α} (h : keys.Nodup) (value : α → Option β)
    {key : α} (hkey : key ∈ keys) : (ofKeys keys value).lookup key = value key := by
  ext v
  constructor
  · intro hv
    exact (mem_ofKeys.mp (mem_of_lookup hv)).2
  · intro hv
    exact (distinct_ofKeys h value).lookup_of_mem (mem_ofKeys.mpr ⟨hkey, hv⟩)

/-- In a selection by values a key finds its value if the value is selected. -/
theorem Distinct.lookup_filter [DecidableEq α] {table : List (α × β)} (h : Distinct table)
    (keep : β → Bool) (key : α) :
    (table.filter fun entry => keep entry.2).lookup key = (table.lookup key).filter keep := by
  unfold Distinct at h
  induction table with
  | nil => rfl
  | cons entry rest ih =>
    rw [List.map_cons, List.nodup_cons] at h
    rw [List.filter_cons, lookup_cons]
    split_ifs with hkeep hkey hkey
    · rw [lookup_cons, if_pos hkey, Option.filter_some, if_pos hkeep]
    · rw [lookup_cons, if_neg hkey]
      exact ih h.2
    · -- The key does not stand a second time behind the entry that goes.
      rw [← hkey] at h
      rw [ih h.2, lookup_eq_none_of_notMem h.1, Option.filter_none, Option.filter_some,
        if_neg hkeep]
    · exact ih h.2

end CodeTidy.Table
