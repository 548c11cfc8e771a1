import CodeTidy.Backend.Builtin
import CodeTidy.Proofs.Language.Canonical
import CodeTidy.Proofs.Registry.Coverage

/-!
# The languages of the built-in backends

The built-in backends are registered one after the other, so what holds behind any history of
registrations holds of their registry. The last of them takes every canonical language that the
others leave free. So all canonical languages are bound, whatever the host, the loader and the place
of the files.
-/

namespace CodeTidy.Registry

variable {ω : Type} (host : Host ω) (loader : Plugin.Loader ω) (base : String)

/-- The built-in backends that lay code out, in the order in which they are registered. -/
def layouters : List (Registration (Workbench ω)) :=
  [.full .beautifier, .full (.plugins loader), .full (.ofModule host base .ruff),
    .full (.ofModule host base .taplo)]

/-- Behind the backends that lay code out, white space is tidied for the languages left. -/
theorem builtin_eq : builtin host loader base =
    (ofHistory (layouters host loader base)).enroll (.fallback .whitespace) :=
  rfl

/-- The registry of the built-in backends is sound. -/
theorem builtin_sound : (builtin host loader base).Sound := by
  rw [builtin_eq]
  exact (ofHistory_sound _).enroll _

/-- Tidying white space is declared for every canonical language. -/
theorem mem_declared_whitespace {σ : Type} {l : String} (hl : l ∈ Language.canonical) :
    l ∈ declared (.whitespace : Backend σ) :=
  List.mem_map.mpr ⟨l, hl, (Language.mem_canonical_iff.mp hl).1⟩

/-- Every canonical language is bound to a built-in backend that declares it. -/
theorem builtin_bound {l : String} (hl : l ∈ Language.canonical) :
    ∃ b ∈ (builtin host loader base).backends, l ∈ declared b ∧
      (builtin host loader base).backend? l = some b := by
  have hlookup := lookup_registerFallback (ofHistory_sound (layouters host loader base)).ascending
    .whitespace l
  rw [if_pos (mem_declared_whitespace hl)] at hlookup
  obtain ⟨id, hid⟩ : ∃ id, (builtin host loader base).bindings.lookup l = some id := by
    rw [builtin_eq]
    refine Option.isSome_iff_exists.mp ((congrArg Option.isSome hlookup).trans ?_)
    rw [Option.isSome_or, Option.isSome_some, Bool.or_true]
  obtain ⟨b, hmem, -, hdeclared, hb⟩ := (builtin_sound host loader base).exists_backend? hid
  exact ⟨b, hmem, hdeclared, hb⟩

/-- A built-in backend is one of those that lay code out, or tidies white space. -/
theorem mem_builtin_backends {b : Backend (Workbench ω)}
    (hb : b ∈ (builtin host loader base).backends) :
    (∃ x ∈ layouters host loader base, x.backend = b) ∨ b = .whitespace := by
  rw [builtin_eq, enroll_backends] at hb
  rcases List.mem_append.mp hb with hfront | hlast
  · exact .inl (exists_registration (List.mem_of_mem_filter hfront))
  · exact .inr (List.mem_singleton.mp hlast)

end CodeTidy.Registry
