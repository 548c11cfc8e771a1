import CodeTidy.Proofs.Cache.Store
import Mathlib.Data.Nat.Notation

/-!
# How long a result is held

The oldest entry makes room first, so how long a result is held depends on the number of entries
behind it alone. A result has none behind it when it comes in, each result written under a key that
is not held adds at most one, and nothing else adds any. So the result is held until as many others
have come in as the store has places.
-/

namespace CodeTidy.Cache

variable {κ : Type} [DecidableEq κ]

/-- A look-up leaves the capacity alone. -/
theorem get_capacity (c : Cache κ) (key : κ) : (c.get key).2.capacity = c.capacity := by
  unfold get
  cases c.find? key <;> rfl

/-- A write leaves the capacity alone. -/
theorem insert_capacity (c : Cache κ) (key : κ) (text : String) :
    (c.insert key text).capacity = c.capacity := by
  unfold insert
  dsimp only
  split_ifs <;> rfl

/-- A write counts no look-ups. -/
theorem insert_lookUps (c : Cache κ) (key : κ) (text : String) :
    (c.insert key text).stats.hits = c.stats.hits ∧
      (c.insert key text).stats.misses = c.stats.misses := by
  unfold insert
  dsimp only
  split_ifs <;> exact ⟨rfl, rfl⟩

/-- A look-up that finds a result gives it and counts a hit. -/
theorem get_hit {c : Cache κ} {key : κ} {text : String} (h : c.find? key = some text) :
    c.get key = (some text, { c with stats := { c.stats with hits := c.stats.hits + 1 } }) := by
  unfold get
  rw [h]

/-- A look-up that finds nothing counts a miss. -/
theorem get_miss {c : Cache κ} {key : κ} (h : c.find? key = none) :
    c.get key = (none, { c with stats := { c.stats with misses := c.stats.misses + 1 } }) := by
  unfold get
  rw [h]

/-- A result that comes in under a key that is not held goes to the end, behind the entries for
which there is room. -/
theorem insert_entries {c : Cache κ} {key : κ} (hnew : c.find? key = none) (hroom : 0 < c.capacity)
    (text : String) :
    (c.insert key text).entries = c.entries.drop (c.size + 1 - c.capacity) ++ [(key, text)] := by
  have hmissing : ¬c.contains key = true := by
    unfold contains
    rw [hnew]
    simp
  unfold insert
  rw [if_neg (Nat.ne_of_gt hroom), if_neg hmissing]

/-- The result under a key is held, and at most `k` entries came in behind it. -/
def Resident (key : κ) (text : String) (k : ℕ) (c : Cache κ) : Prop :=
  ∃ older newer, c.entries = older ++ (key, text) :: newer ∧ (∀ p ∈ older, p.1 ≠ key) ∧
    newer.length ≤ k

section

variable {c : Cache κ} {key key' : κ} {text text' : String} {k : ℕ}

/-- What is held is found. -/
theorem Resident.find? (h : Resident key text k c) : c.find? key = some text := by
  obtain ⟨older, newer, hentries, holder, -⟩ := h
  refine List.lookup_eq_some_iff.mpr ⟨older, newer, hentries, ?_⟩
  intro p hp
  simpa using (holder p hp).symm

/-- A look-up changes nothing about what is held. -/
theorem Resident.get (h : Resident key text k c) (key' : κ) :
    Resident key text k (c.get key').2 := by
  obtain ⟨older, newer, hentries, hrest⟩ := h
  exact ⟨older, newer, (c.get_entries key').trans hentries, hrest⟩

/-- While there is room behind a result, it is held also behind another that comes in. -/
theorem Resident.insert (h : Resident key text k c) (hnew : c.find? key' = none)
    (hroom : k + 1 < c.capacity) : Resident key text (k + 1) (c.insert key' text') := by
  obtain ⟨older, newer, hentries, holder, hnewer⟩ := h
  -- What makes room are entries older than this one.
  have hsurplus : c.size + 1 - c.capacity ≤ older.length := by
    have hsize : c.size = older.length + (newer.length + 1) := by
      unfold size
      rw [hentries, List.length_append, List.length_cons]
    omega
  refine ⟨older.drop (c.size + 1 - c.capacity), newer ++ [(key', text')], ?_, ?_, ?_⟩
  · rw [insert_entries hnew (by omega), hentries, List.drop_append_of_le_length hsurplus]
    simp
  · exact fun p hp => holder p (List.mem_of_mem_drop hp)
  · rw [List.length_append, List.length_singleton]
    omega

/-- A result that comes in is held with nothing behind it. -/
theorem resident_insert (hnew : c.find? key = none) (hroom : 0 < c.capacity) :
    Resident key text 0 (c.insert key text) := by
  refine ⟨c.entries.drop (c.size + 1 - c.capacity), [], insert_entries hnew hroom text, ?_,
    Nat.le.refl⟩
  intro p hp heq
  have habsent := List.lookup_eq_none_iff.mp hnew p (List.mem_of_mem_drop hp)
  simp [heq] at habsent

end

end CodeTidy.Cache
