import CodeTidy.Cache.Basic
import Mathlib.Tactic.SplitIfs

/-!
# What a store holds

Every entry of a store was written: looking up changes the counters only, writing adds the entry
written and may drop others, and clearing drops them all. So a property of all entries holds after
a write if it holds before and of the entry written.
-/

namespace CodeTidy.Cache

variable {κ : Type} [DecidableEq κ]

/-- A result found is an entry. -/
theorem mem_of_find? {c : Cache κ} {key : κ} {text : String} (h : c.find? key = some text) :
    (key, text) ∈ c.entries := by
  unfold find? at h
  obtain ⟨l₁, l₂, heq, -⟩ := List.lookup_eq_some_iff.mp h
  rw [heq]
  exact List.mem_append_right _ List.mem_cons_self

/-- A look-up leaves the entries alone. -/
theorem get_entries (c : Cache κ) (key : κ) : (c.get key).2.entries = c.entries := by
  unfold get
  cases c.find? key <;> rfl

/-- A look-up writes nothing. -/
theorem get_writes (c : Cache κ) (key : κ) : (c.get key).2.stats.writes = c.stats.writes := by
  unfold get
  cases c.find? key <;> rfl

/-- A look-up evicts nothing. -/
theorem get_evictions (c : Cache κ) (key : κ) :
    (c.get key).2.stats.evictions = c.stats.evictions := by
  unfold get
  cases c.find? key <;> rfl

/-- The entries with another text under a key are the entry for that key or were there. -/
theorem mem_replace {key : κ} {text : String} {p : κ × String} :
    ∀ {entries : List (κ × String)}, p ∈ replace key text entries → p = (key, text) ∨ p ∈ entries
  | [], h => by simp [replace] at h
  | (k, t) :: rest, h => by
    unfold replace at h
    split_ifs at h with hk
    · subst hk
      rcases List.mem_cons.mp h with rfl | hrest
      · exact .inl rfl
      · exact .inr (List.mem_cons_of_mem _ hrest)
    · rcases List.mem_cons.mp h with rfl | hrest
      · exact .inr List.mem_cons_self
      · rcases mem_replace hrest with hnew | hold
        · exact .inl hnew
        · exact .inr (List.mem_cons_of_mem _ hold)

/-- An entry behind a write is the entry written or was there. -/
theorem mem_insert {c : Cache κ} {key : κ} {text : String} {p : κ × String}
    (h : p ∈ (c.insert key text).entries) : p = (key, text) ∨ p ∈ c.entries := by
  unfold insert at h
  split_ifs at h with hzero hthere
  · exact .inr h
  · exact mem_replace h
  · rcases List.mem_append.mp h with hold | hnew
    · exact .inr (List.mem_of_mem_drop hold)
    · exact .inl (List.mem_singleton.mp hnew)

/-- A property holds of every entry. -/
def Holds (P : κ → String → Prop) (c : Cache κ) : Prop := ∀ p ∈ c.entries, P p.1 p.2

/-- A look-up keeps what holds. -/
theorem Holds.get {P : κ → String → Prop} {c : Cache κ} (h : c.Holds P) (key : κ) :
    (c.get key).2.Holds P := by
  intro p hp
  rw [get_entries] at hp
  exact h p hp

/-- A write keeps what holds of the entry written. -/
theorem Holds.insert {P : κ → String → Prop} {c : Cache κ} (h : c.Holds P) {key : κ} {text : String}
    (hnew : P key text) : (c.insert key text).Holds P := by
  intro p hp
  rcases mem_insert hp with rfl | hold
  · exact hnew
  · exact h p hold

omit [DecidableEq κ] in
/-- Anything holds of the entries of a cleared store. -/
theorem holds_clear (P : κ → String → Prop) (c : Cache κ) : c.clear.Holds P := by
  intro p hp
  simp [clear] at hp

end CodeTidy.Cache
