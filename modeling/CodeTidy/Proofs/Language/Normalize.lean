import CodeTidy.Language
import CodeTidy.Proofs.Text.Lowercase

/-!
# Canonical names are stable

Folding a name twice folds it once, because lower case is stable and keeps a trimmed text trimmed.
Every canonical name of the table is its own canonical name, so `normalize` is stable too.
-/

namespace CodeTidy.Language

open Text

/-- Folding is stable. -/
theorem fold_fold (name : String) : fold (fold name) = fold name := by
  have htrim : trim (lowercase (trim name.toList)) = lowercase (trim name.toList) :=
    trim_eq_self (lowercase_trimmed (trim_trimmed name.toList))
  unfold fold
  rw [String.toList_ofList, htrim, lowercase_lowercase]

/-- A name that the table holds means what the table says. -/
theorem normalize_of_lookup {name canonical : String}
    (h : aliases.lookup (fold name) = some canonical) : normalize name = canonical := by
  show (aliases.lookup (fold name)).getD (fold name) = canonical
  rw [h, Option.getD_some]

/-- A name that the table does not hold is only folded. -/
theorem normalize_of_unknown {name : String} (h : aliases.lookup (fold name) = none) :
    normalize name = fold name := by
  show (aliases.lookup (fold name)).getD (fold name) = fold name
  rw [h, Option.getD_none]

/-- The canonical names of the table stand in it for themselves. -/
theorem lookup_canonical :
    ∀ canonical ∈ aliases.map Prod.snd, aliases.lookup (fold canonical) = some canonical := by
  decide +kernel

/-- The canonical names of the table are stable. -/
theorem normalize_canonical {canonical : String} (h : canonical ∈ aliases.map Prod.snd) :
    normalize canonical = canonical :=
  normalize_of_lookup (lookup_canonical canonical h)

/-- The canonical name of a language is its own canonical name. -/
theorem normalize_normalize (name : String) : normalize (normalize name) = normalize name := by
  -- The table does not rename what it gives, and what it does not hold is folded already.
  cases h : aliases.lookup (fold name) with
  | none =>
    rw [normalize_of_unknown h]
    exact (normalize_of_unknown (by rw [fold_fold, h])).trans (fold_fold name)
  | some canonical =>
    rw [normalize_of_lookup h]
    obtain ⟨l₁, l₂, heq, -⟩ := List.lookup_eq_some_iff.mp h
    have hmem : canonical ∈ aliases.map Prod.snd := by
      rw [heq]
      simp
    exact normalize_canonical hmem

end CodeTidy.Language
