import CodeTidy.Proofs.Language.Normalize
import CodeTidy.Proofs.Table
import Mathlib.Tactic.SplitIfs

/-!
# The canonical languages

The list of canonical languages holds the names that the table of aliases gives, each once. These
are just the names that are known and their own canonical names, so `normalize` is a projection of
the known names onto them (`normalize_projects`). The tables of file names and extensions give
nothing else, so a language told from a path is a canonical one.
-/

namespace CodeTidy.Language

/-- A name put into a list is in it, with the names that were. -/
theorem mem_insertSorted {name other : String} {names : List String} :
    other ∈ insertSorted name names ↔ other = name ∨ other ∈ names := by
  induction names with
  | nil => exact List.mem_singleton.trans (by simp)
  | cons first rest ih =>
    unfold insertSorted
    split_ifs with hlt heq
    · exact List.mem_cons
    · rw [beq_iff_eq] at heq
      rw [heq, List.mem_cons, ← or_assoc, or_self]
    · rw [List.mem_cons, ih, List.mem_cons, or_left_comm]

/-- Sorting names keeps them. -/
theorem mem_sorted {name : String} {names : List String} : name ∈ sorted names ↔ name ∈ names := by
  unfold sorted
  induction names with
  | nil => rfl
  | cons first rest ih => rw [List.foldr_cons, mem_insertSorted, ih, List.mem_cons]

/-- The canonical languages are those that the table of aliases gives. -/
theorem mem_canonical {name : String} : name ∈ canonical ↔ name ∈ aliases.map Prod.snd :=
  mem_sorted

/-- Every language that the table gives is known by its own name. -/
theorem isKnown_of_mem_aliases {name : String} (h : name ∈ aliases.map Prod.snd) :
    isKnown name = true := by
  unfold isKnown
  rw [lookup_canonical name h, Option.isSome_some]

/-- The canonical languages are the names that are known and their own canonical names. -/
theorem mem_canonical_iff {name : String} :
    name ∈ canonical ↔ normalize name = name ∧ isKnown name = true := by
  rw [mem_canonical]
  refine ⟨fun h => ⟨normalize_canonical h, isKnown_of_mem_aliases h⟩, ?_⟩
  rintro ⟨hself, hknown⟩
  obtain ⟨language, hlookup⟩ := Option.isSome_iff_exists.mp hknown
  rw [← hself, normalize_of_lookup hlookup]
  exact List.mem_map.mpr ⟨_, Table.mem_of_lookup hlookup, rfl⟩

/-! ## Projecting names -/

/-- A name and its canonical name are both known or both unknown. -/
theorem isKnown_normalize (name : String) : isKnown (normalize name) = isKnown name := by
  cases h : aliases.lookup (fold name) with
  | none =>
    have hknown : isKnown name = (aliases.lookup (fold name)).isSome := rfl
    rw [normalize_of_unknown h, hknown]
    unfold isKnown
    rw [fold_fold]
  | some language =>
    have hmem : language ∈ aliases.map Prod.snd :=
      List.mem_map.mpr ⟨_, Table.mem_of_lookup h, rfl⟩
    rw [normalize_of_lookup h, isKnown_of_mem_aliases hmem]
    unfold isKnown
    rw [h, Option.isSome_some]

/-- A name is known if its canonical name is the canonical name of some language. -/
theorem isKnown_iff_normalize_mem (name : String) :
    isKnown name = true ↔ normalize name ∈ canonical := by
  rw [mem_canonical_iff, normalize_normalize, isKnown_normalize]
  exact (and_iff_right rfl).symm

/-- No name stands in the table for two languages, and each one stands there as it is looked up. -/
theorem lookup_alias : ∀ entry ∈ aliases, aliases.lookup (fold entry.1) = some entry.2 := by
  decide +kernel

/-- Normalizing is a projection onto the canonical names: doing it twice is doing it once, just the
known names go to canonical ones, and no name becomes known or unknown by it. Each name of the table
goes to its language. -/
theorem normalize_projects :
    (∀ name, normalize (normalize name) = normalize name ∧
      (isKnown name = true ↔ normalize name ∈ canonical) ∧
      isKnown (normalize name) = isKnown name) ∧
    ∀ entry ∈ aliases, normalize entry.1 = entry.2 := by
  refine ⟨fun name => ⟨?_, ?_, ?_⟩, ?_⟩
  · exact normalize_normalize name
  · exact isKnown_iff_normalize_mem name
  · exact isKnown_normalize name
  · intro entry hentry
    exact normalize_of_lookup (lookup_alias entry hentry)

/-- The table has `c++`, which goes to `cpp`, and so do other spellings of it, which are known. -/
theorem normalize_projects_cpp :
    ("c++", "cpp") ∈ aliases ∧ normalize "c++" = "cpp" ∧
      (isKnown " C++ " = true ↔ normalize " C++ " ∈ canonical) := by
  have hmem : ("c++", "cpp") ∈ aliases := by decide
  have htable := normalize_projects.2 ("c++", "cpp") hmem
  have hknown := (normalize_projects.1 " C++ ").2.1
  exact ⟨hmem, htable, hknown⟩

/-! ## Languages of paths -/

/-- What a table gives is canonical if all its languages are. -/
theorem mem_canonical_of_lookup {table : List (String × String)}
    (htable : ∀ name ∈ table.map Prod.snd, name ∈ aliases.map Prod.snd) {key language : String}
    (h : table.lookup key = some language) : language ∈ canonical :=
  mem_canonical.mpr (htable language (List.mem_map.mpr ⟨_, Table.mem_of_lookup h, rfl⟩))

/-- The table of file names gives canonical languages. -/
theorem fileNames_canonical : ∀ name ∈ fileNames.map Prod.snd, name ∈ aliases.map Prod.snd := by
  decide +kernel

/-- The table of extensions gives canonical languages. -/
theorem extensions_canonical : ∀ name ∈ extensions.map Prod.snd, name ∈ aliases.map Prod.snd := by
  decide +kernel

/-- A language told from a path is canonical. -/
theorem ofPath?_canonical {path language : String} (h : ofPath? path = some language) :
    language ∈ canonical := by
  unfold ofPath? at h
  dsimp only at h
  split_ifs at h with hempty
  split at h
  next l hname =>
    obtain rfl := Option.some.inj h
    exact mem_canonical_of_lookup fileNames_canonical hname
  next =>
    split at h
    next => cases h
    next =>
      rcases Option.or_eq_some_iff.mp h with hext | ⟨-, halias⟩
      · exact mem_canonical_of_lookup extensions_canonical hext
      · exact mem_canonical_of_lookup (fun _ hname => hname) halias

end CodeTidy.Language
