import CodeTidy.Proofs.Table
import CodeTidy.Registry
import Mathlib.Data.String.Basic

/-!
# Bindings

The bindings of a registry are a table of languages in ascending order. Binding a language changes
what that language finds and nothing else, and keeps the order. So binding a list of languages binds
just those, and binding them if they are free leaves alone what is bound.
-/

namespace CodeTidy.Registry

/-- The languages of the bindings are ascending, each once. -/
def Ascending (bindings : List (String × String)) : Prop := bindings.Pairwise fun x y => x.1 < y.1

/-- Ascending bindings have no language twice. -/
theorem Ascending.distinct {bindings : List (String × String)} (h : Ascending bindings) :
    Table.Distinct bindings := by
  unfold Table.Distinct List.Nodup
  rw [List.pairwise_map]
  exact h.imp fun hlt => hlt.ne

/-- A binding behind a new one is the new one or was there. -/
theorem mem_bind {language id : String} {entry : String × String} :
    ∀ {bindings : List (String × String)}, entry ∈ bind language id bindings →
      entry = (language, id) ∨ entry ∈ bindings
  | [], h => .inl (List.mem_singleton.mp h)
  | (l, i) :: rest, h => by
    unfold bind at h
    split_ifs at h with hlt heq
    · exact List.mem_cons.mp h
    · subst heq
      rcases List.mem_cons.mp h with hnew | hrest
      · exact .inl hnew
      · exact .inr (List.mem_cons_of_mem _ hrest)
    · rcases List.mem_cons.mp h with rfl | hrest
      · exact .inr List.mem_cons_self
      · exact (mem_bind hrest).imp_right (List.mem_cons_of_mem _)

/-- Binding a language keeps the order. -/
theorem Ascending.bind {bindings : List (String × String)} (h : Ascending bindings)
    (language id : String) : Ascending (bind language id bindings) := by
  unfold Ascending at *
  induction bindings with
  | nil => exact List.pairwise_singleton _ _
  | cons entry rest ih =>
    obtain ⟨l, i⟩ := entry
    obtain ⟨hfirst, hrest⟩ := List.pairwise_cons.mp h
    unfold Registry.bind
    split_ifs with hlt heq
    · refine List.pairwise_cons.mpr ⟨?_, h⟩
      intro entry hentry
      rcases List.mem_cons.mp hentry with rfl | hmem
      · exact hlt
      · exact hlt.trans (hfirst entry hmem)
    · exact List.pairwise_cons.mpr ⟨hfirst, hrest⟩
    · refine List.pairwise_cons.mpr ⟨?_, ih hrest⟩
      intro entry hentry
      rcases mem_bind hentry with rfl | hmem
      · exact lt_of_le_of_ne (not_lt.mp hlt) (Ne.symm heq)
      · exact hfirst entry hmem

/-- A language that is bound finds what it is bound to, and the others find what they found. -/
theorem lookup_bind (language id : String) (bindings : List (String × String)) (other : String) :
    (bind language id bindings).lookup other =
      if other = language then some id else bindings.lookup other := by
  induction bindings with
  | nil => exact Table.lookup_cons (language, id) [] other
  | cons entry rest ih =>
    obtain ⟨l, i⟩ := entry
    unfold bind
    by_cases hlt : language < l
    · rw [if_pos hlt, Table.lookup_cons]
    · rw [if_neg hlt]
      split_ifs with hl hother hother
      · subst hl
        rw [Table.lookup_cons, if_pos hother]
      · subst hl
        rw [Table.lookup_cons, Table.lookup_cons, if_neg hother, if_neg hother]
      · -- The binding in front is that of another language.
        have hne : other ≠ l := fun heq => hl (hother.symm.trans heq)
        rw [Table.lookup_cons, if_neg hne, ih, if_pos hother]
      · rw [Table.lookup_cons, Table.lookup_cons, ih, if_neg hother]

/-- A language keeps what it is bound to, and takes the new binding if it is free. -/
theorem lookup_bindIfFree (language id : String) (bindings : List (String × String))
    (other : String) :
    (bindIfFree language id bindings).lookup other =
      (bindings.lookup other).or (if other = language then some id else none) := by
  unfold bindIfFree
  split_ifs with hbound hother hother
  · rw [hother, Option.or_of_isSome hbound]
  · rw [Option.or_none]
  · rw [Option.not_isSome_iff_eq_none] at hbound
    rw [hother, lookup_bind, if_pos rfl, hbound, Option.none_or]
  · rw [lookup_bind, if_neg hother, Option.or_none]

/-- Binding a language if it is free keeps the order. -/
theorem Ascending.bindIfFree {bindings : List (String × String)} (h : Ascending bindings)
    (language id : String) : Ascending (bindIfFree language id bindings) := by
  unfold Registry.bindIfFree
  split_ifs
  · exact h
  · exact h.bind language id

/-! ## Many languages -/

/-- Binding many languages keeps the order. -/
theorem Ascending.foldl_bind {bindings : List (String × String)} (h : Ascending bindings)
    (languages : List String) (id : String) :
    Ascending (languages.foldl (fun bs l => Registry.bind l id bs) bindings) := by
  induction languages generalizing bindings with
  | nil => exact h
  | cons l ls ih => exact ih (h.bind l id)

/-- Binding many languages if they are free keeps the order. -/
theorem Ascending.foldl_bindIfFree {bindings : List (String × String)} (h : Ascending bindings)
    (languages : List String) (id : String) :
    Ascending (languages.foldl (fun bs l => Registry.bindIfFree l id bs) bindings) := by
  induction languages generalizing bindings with
  | nil => exact h
  | cons l ls ih => exact ih (h.bindIfFree l id)

/-- Binding many languages binds just these. -/
theorem lookup_foldl_bind (languages : List String) (id : String)
    (bindings : List (String × String)) (other : String) :
    (languages.foldl (fun bs l => bind l id bs) bindings).lookup other =
      if other ∈ languages then some id else bindings.lookup other := by
  induction languages generalizing bindings with
  | nil => rw [if_neg List.not_mem_nil, List.foldl_nil]
  | cons l ls ih =>
    rw [List.foldl_cons, ih, lookup_bind]
    by_cases hls : other ∈ ls
    · rw [if_pos hls, if_pos (List.mem_cons_of_mem l hls)]
    · rw [if_neg hls]
      by_cases hl : other = l
      · rw [if_pos hl, if_pos (List.mem_cons.mpr (.inl hl))]
      · rw [if_neg hl, if_neg fun h => (List.mem_cons.mp h).elim hl hls]

/-- Binding many languages if they are free binds just those that are. -/
theorem lookup_foldl_bindIfFree (languages : List String) (id : String)
    (bindings : List (String × String)) (other : String) :
    (languages.foldl (fun bs l => bindIfFree l id bs) bindings).lookup other =
      (bindings.lookup other).or (if other ∈ languages then some id else none) := by
  induction languages generalizing bindings with
  | nil => rw [if_neg List.not_mem_nil, List.foldl_nil, Option.or_none]
  | cons l ls ih =>
    rw [List.foldl_cons, ih, lookup_bindIfFree, Option.or_assoc]
    congr 1
    by_cases hls : other ∈ ls
    · rw [if_pos hls, if_pos (List.mem_cons_of_mem l hls)]
      split_ifs <;> rfl
    · rw [if_neg hls, Option.or_none]
      by_cases hl : other = l
      · rw [if_pos hl, if_pos (List.mem_cons.mpr (.inl hl))]
      · rw [if_neg hl, if_neg fun h => (List.mem_cons.mp h).elim hl hls]

end CodeTidy.Registry
