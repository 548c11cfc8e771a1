import CodeTidy.Memo.Basic
import CodeTidy.Proofs.Table
import Mathlib.Data.Finset.Card

/-!
# The cells of a memo

What `get?` finds under a key is decided by the one cell of the key. Giving a key a cell changes
nothing that can be seen, filling the cell of a key is seen under this key only, and `count` is the
number of keys under which something is found.
-/

namespace CodeTidy.Memo

open Table

variable {κ α σ ε : Type} [DecidableEq κ]

/-- A value is found under a key if it is in the cell of the key. -/
theorem get?_eq_some_iff {m : Memo κ α} {key : κ} {a : α} :
    m.get? key = some a ↔ (key, some a) ∈ m.cells := by
  unfold get?
  rw [Option.join_eq_some_iff]
  constructor
  · exact mem_of_lookup
  · intro hmem
    have hdistinct : Distinct m.cells := m.distinct
    exact hdistinct.lookup_of_mem hmem

/-- Two memos that hold the same values find the same values. -/
theorem get?_congr {m m' : Memo κ α} {key key' : κ}
    (h : ∀ a, (key, some a) ∈ m.cells ↔ (key', some a) ∈ m'.cells) :
    m.get? key = m'.get? key' := by
  ext a
  rw [get?_eq_some_iff, get?_eq_some_iff]
  exact h a

/-! ## Giving a key a cell -/

/-- A new cell is empty, so nothing more is found. -/
@[simp]
theorem get?_enter (m : Memo κ α) (key other : κ) : (m.enter key).get? other = m.get? other := by
  apply get?_congr
  intro a
  unfold enter
  split_ifs with h
  · rfl
  · simp

/-- A key that was given a cell has one. -/
theorem mem_enter (m : Memo κ α) (key : κ) : key ∈ (m.enter key).cells.map Prod.fst := by
  unfold enter
  split_ifs with h
  · exact h
  · simp

/-- A key with a value has a cell already. -/
theorem enter_of_get? {m : Memo κ α} {key : κ} {a : α} (h : m.get? key = some a) :
    m.enter key = m := by
  have hmem := get?_eq_some_iff.mp h
  unfold enter
  rw [dif_pos (List.mem_map.mpr ⟨_, hmem, rfl⟩)]

/-! ## Filling a cell -/

/-- Filling the cell of a key is seen under this key and under no other. -/
theorem get?_fill {m : Memo κ α} {key : κ} (h : key ∈ m.cells.map Prod.fst) (a : α) (other : κ) :
    (m.fill key a).get? other = if other = key then some a else m.get? other := by
  split_ifs with hkey
  · subst hkey
    rw [get?_eq_some_iff]
    obtain ⟨cell, hcell, rfl⟩ := List.mem_map.mp h
    exact List.mem_map.mpr ⟨cell, hcell, by simp⟩
  · apply get?_congr
    intro b
    -- The cells of other keys are where they were.
    constructor
    · intro hmem
      obtain ⟨⟨k, v⟩, hcell, heq⟩ := List.mem_map.mp hmem
      obtain ⟨rfl, hv⟩ := Prod.mk.inj heq
      rw [if_neg hkey] at hv
      exact hv ▸ hcell
    · intro hmem
      refine List.mem_map.mpr ⟨_, hmem, ?_⟩
      dsimp only
      rw [if_neg hkey]

/-! ## Obtaining a value -/

/-- A value that is there is obtained, and nothing changes. -/
theorem obtain_found {m : Memo κ α} {key : κ} {a : α} (h : m.get? key = some a)
    (init : Initializer σ ε α) (world : σ) : m.obtain key init world = (.ok a, m, world) := by
  unfold Memo.obtain
  simp only [enter_of_get? h, h]

/-- A value that is not there is set up, and kept if this succeeds. -/
theorem obtain_missing {m : Memo κ α} {key : κ} (h : m.get? key = none)
    (init : Initializer σ ε α) (world : σ) :
    m.obtain key init world =
      match init world with
      | (.ok a, world) => (.ok a, (m.enter key).fill key a, world)
      | (.error e, world) => (.error e, m.enter key, world) := by
  have hentered : (m.enter key).get? key = none := by rw [get?_enter, h]
  rcases hinit : init world with ⟨e | a, world'⟩ <;> simp only [Memo.obtain, hentered, hinit]

/-! ## Counting and clearing -/

/-- As many values are counted as there are keys that have one. -/
theorem count_eq_card (m : Memo κ α) :
    ∃ keys : Finset κ, (∀ key, key ∈ keys ↔ (m.get? key).isSome) ∧ m.count = keys.card := by
  have hnodup : ((m.cells.filter (·.2.isSome)).map Prod.fst).Nodup :=
    m.distinct.sublist (List.filter_sublist.map Prod.fst)
  refine ⟨((m.cells.filter (·.2.isSome)).map Prod.fst).toFinset, ?_, ?_⟩
  · intro key
    rw [Option.isSome_iff_exists, List.mem_toFinset, List.mem_map]
    constructor
    · rintro ⟨⟨k, v⟩, hmem, rfl⟩
      obtain ⟨hcell, hfull⟩ := List.mem_filter.mp hmem
      obtain ⟨a, rfl⟩ := Option.isSome_iff_exists.mp hfull
      exact ⟨a, get?_eq_some_iff.mpr hcell⟩
    · rintro ⟨a, ha⟩
      exact ⟨_, List.mem_filter.mpr ⟨get?_eq_some_iff.mp ha, rfl⟩, rfl⟩
  · rw [List.toFinset_card_of_nodup hnodup, List.length_map]
    exact List.countP_eq_length_filter

/-- Nothing is found in a cleared memo. -/
theorem get?_clear (m : Memo κ α) (key : κ) : m.clear.get? key = none := rfl

end CodeTidy.Memo
