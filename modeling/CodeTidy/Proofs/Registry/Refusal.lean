import CodeTidy.Proofs.Registry.Builtin
import CodeTidy.Proofs.Service.Failing

/-!
# The built-in backends refuse no language that is theirs

A backend may fail for many reasons, but that it does not support the language is none of them as
long as it is asked for a language that it declares. The beautifier and the plugins fail because of
the code, a binary module does not run without a host, and tidying white space never fails.
-/

namespace CodeTidy

/-- The beautifier fails because it has no layout. -/
theorem Backend.beautified_kind {r : Request} {f : Failure} (h : Backend.beautified r = .error f) :
    f.kind = .backendFormatFailure := by
  unfold Backend.beautified at h
  dsimp only at h
  split at h <;> cases h
  rfl

namespace Plugin

/-- The plugins at hand fail because of the code. -/
theorem builtin_kind {p : Plugin} (hp : p ∈ builtin) {r : Request} {f : Failure}
    (h : p.format r = .error f) : f.kind = .backendFormatFailure := by
  simp only [builtin, List.mem_cons, List.not_mem_nil, or_false] at hp
  rcases hp with rfl | rfl | rfl
  · unfold json at h
    dsimp only at h
    split at h <;> cases h
    rfl
  · unfold yaml at h
    dsimp only at h
    split at h <;> cases h <;> rfl
  · unfold sql at h
    dsimp only at h
    split at h <;> cases h
    rfl

/-- Where no plugin has been loaded yet, code is formatted by the plugin at hand that is named like
its language. -/
theorem formatWith_builtin {ω : Type} {p : Plugin} (hp : p ∈ builtin) (code : String)
    (settings : Settings) (world : ω) :
    (formatWith builtinLoader ⟨code, p.name, settings⟩ {} world).1 =
      p.format ⟨code, p.name, settings⟩ := by
  simp only [builtin, List.mem_cons, List.not_mem_nil, or_false] at hp
  rcases hp with rfl | rfl | rfl <;> rfl

end Plugin

/-- A backend whose answer is that the language is not supported was called and said so itself. -/
theorem Backend.format_of_unsupported {σ : Type} {b : Backend σ} {q : Request} {world : σ}
    {f : Failure} (h : (b.answer q world).1.failure = some f)
    (hkind : f.kind = .unsupportedLanguage) :
    b.isAvailable world = true ∧ (b.format q world).1 = .failed f := by
  have hanswer : (b.answer q world).1 = ⟨(b.answer q world).1.code, some f⟩ := by rw [← h]
  obtain ⟨c, hc, hattempt⟩ := (answer_failed hanswer).2 (.inr (.inr (.inl hkind)))
  unfold callsOf at hc
  split_ifs at hc with havailable
  · obtain rfl := List.mem_singleton.mp hc
    exact ⟨havailable, hattempt⟩
  · exact absurd hc List.not_mem_nil

/-- An attempt without a breakdown fails if its result is a failure. -/
theorem Attempt.ofExcept_eq_failed {result : Except Failure String} {f : Failure}
    (h : Attempt.ofExcept result = .failed f) : result = .error f := by
  cases result with
  | ok text => cases h
  | error f' => cases h; rfl

namespace Registry

/-- The plugins are declared for JSON, YAML and SQL. -/
theorem declared_plugins {ω : Type} (loader : Plugin.Loader ω) :
    declared (.plugins loader) = Plugin.builtin.map Plugin.name := by
  show (Plugin.table.map Prod.fst).map Language.normalize = _
  decide +kernel

/-- Without a host for binary modules, a built-in backend that is asked for the first time does not
fail because of the language, if it declares the language. -/
theorem answer_builtin_kind (base : String) {b : Backend (Workbench Unit)}
    (hb : b ∈ (builtin .none Plugin.builtinLoader base).backends) {l : String} (hl : l ∈ declared b)
    {code : String} {settings : Settings} {f : Failure}
    (h : (b.answer ⟨code, l, settings⟩ { world := () }).1.failure = some f) :
    f.kind ≠ .unsupportedLanguage := by
  intro hkind
  obtain ⟨havailable, hformat⟩ := Backend.format_of_unsupported h hkind
  rcases mem_builtin_backends .none Plugin.builtinLoader base hb with ⟨x, hx, rfl⟩ | rfl
  · simp only [layouters, List.mem_cons, List.not_mem_nil, or_false] at hx
    rcases hx with rfl | rfl | rfl | rfl
    · -- The beautifier.
      have hfailed := Backend.beautified_kind (Attempt.ofExcept_eq_failed hformat)
      rw [hfailed] at hkind
      cases hkind
    · -- The plugins.
      rw [Registration.backend, declared_plugins] at hl
      obtain ⟨p, hp, rfl⟩ := List.mem_map.mp hl
      have hresult :
          (Plugin.formatWith Plugin.builtinLoader ⟨code, p.name, settings⟩ {} ()).1 = .error f :=
        Attempt.ofExcept_eq_failed hformat
      rw [Plugin.formatWith_builtin hp] at hresult
      rw [Plugin.builtin_kind hp hresult] at hkind
      cases hkind
    · -- The modules, which are not available.
      cases havailable
    · cases havailable
  · have hresult : Backend.tidied ⟨code, l, settings⟩ = .error f :=
      Attempt.ofExcept_eq_failed hformat
    cases hresult

end Registry

end CodeTidy
