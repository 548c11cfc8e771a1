import CodeTidy.Proofs.Brace.Conservation
import CodeTidy.Proofs.Json.Fidelity
import CodeTidy.Proofs.Json.Layout

/-!
# The plugin and the beautifier on JSON

The plugin reads a value and writes its indented form, and the beautifier lays the text out without
reading a value. `beautified_agrees` says that both write the same text for the compact form of a
value, and that the beautifier leaves this text as it is.
-/

namespace CodeTidy.Json

/-- The beautifier writes the indented form of a value, whatever form of the value it reads. -/
theorem beautified_spaced {s : Spacing} (hs : s.Sparse) {gap : List Char} (hgap : Spaces gap)
    (hbreaks : gap.count '\n' ≤ 1) (v : Json) (settings : Settings) :
    Backend.beautified ⟨String.ofList (spaced s 0 v ++ gap), "json", settings⟩ =
      .ok (String.ofList (pretty settings.indentUnit 0 v ++ ['\n'])) := by
  have hlayout : Brace.layout (.ofSettings .data settings) (spaced s 0 v ++ gap) =
      pretty settings.indentUnit 0 v ++ ['\n'] := Brace.layout_spaced rfl hs hgap hbreaks v
  have hmode : ("json", Brace.Mode.data) ∈ Brace.Mode.languages := by decide
  rw [Brace.beautified_eq hmode]
  dsimp only
  rw [String.toList_ofList, hlayout]

/-- The beautifier writes the indented form of a value for its compact form. -/
theorem beautified_toText (v : Json) (settings : Settings) :
    Backend.beautified ⟨toText v, "json", settings⟩ =
      .ok (String.ofList (pretty settings.indentUnit 0 v ++ ['\n'])) := by
  have hspaced := beautified_spaced Spacing.sparse_compact spaces_nil (by decide) v settings
  rwa [List.append_nil, ← compact_eq] at hspaced

/-- The beautifier leaves the indented form of a value as it is. -/
theorem beautified_pretty (v : Json) (settings : Settings) :
    Backend.beautified
        ⟨String.ofList (pretty settings.indentUnit 0 v ++ ['\n']), "json", settings⟩ =
      .ok (String.ofList (pretty settings.indentUnit 0 v ++ ['\n'])) := by
  have hs := Spacing.sparse_indented (spaces_indentUnit settings)
    settings.lineBreak_not_mem_indentUnit
  have hspaced := beautified_spaced hs spaces_lineBreak (by decide) v settings
  rwa [← pretty_eq] at hspaced

/-- A plain value is read from its compact form. -/
theorem eq_of_parse_compact {v w : Json} (hv : v.Plain) (h : parse (compact v) = .ok w) :
    w = v := by
  -- The text spells one document only, so the one that was read is that of `v`.
  obtain ⟨d, hd, rfl⟩ := parse_spec h
  rw [hd.unique (written_compact v), read_document hv]

/-- The plugin writes the indented form of a plain value for its compact form, if it accepts it. -/
theorem eq_of_format_toText {v : Json} (hv : v.Plain) {language out : String} {settings : Settings}
    (h : Plugin.json.format ⟨toText v, language, settings⟩ = .ok out) :
    out = String.ofList (pretty settings.indentUnit 0 v ++ ['\n']) := by
  unfold Plugin.json toText at h
  dsimp only at h
  rw [String.toList_ofList] at h
  split at h
  · rename_i w hw
    rw [eq_of_parse_compact hv hw] at h
    exact (Except.ok.inj h).symm
  · exact absurd h nofun

/-- The plugin and the beautifier agree on the compact form of a value whose numbers are integers
of 64 bits and whose objects have no key twice, if the plugin accepts it. The beautifier leaves as
it is what the plugin writes. -/
theorem beautified_agrees {v : Json} (hv : v.Plain) {settings : Settings} {out : String}
    (h : Plugin.json.format ⟨toText v, "json", settings⟩ = .ok out) :
    Backend.beautified ⟨toText v, "json", settings⟩ = .ok out ∧
      Backend.beautified ⟨out, "json", settings⟩ = .ok out := by
  obtain rfl := eq_of_format_toText hv h
  exact ⟨beautified_toText v settings, beautified_pretty v settings⟩

/-- They agree on a value with empty and nested containers and with brackets in a string. -/
theorem beautified_agrees_nested :
    ∃ out, Plugin.json.format
        ⟨"\x7b\"a\":[1,\x7b\x7d,[]],\"b\":\"\x7d,[\"\x7d", "json", Settings.usual⟩ = .ok out ∧
      Backend.beautified
        ⟨"\x7b\"a\":[1,\x7b\x7d,[]],\"b\":\"\x7d,[\"\x7d", "json", Settings.usual⟩ = .ok out ∧
      Backend.beautified ⟨out, "json", Settings.usual⟩ = .ok out ∧
      out =
        "\x7b\n  \"a\": [\n    1,\n    \x7b\x7d,\n    []\n  ],\n  \"b\": \"\x7d,[\"\n\x7d\n" := by
  have htext : toText (.obj [("a", .arr [.ofNat 1, .obj [], .arr []]), ("b", .str "\x7d,[")]) =
      "\x7b\"a\":[1,\x7b\x7d,[]],\"b\":\"\x7d,[\"\x7d" := by decide +kernel
  have hplain :
      (obj [("a", .arr [.ofNat 1, .obj [], .arr []]), ("b", .str "\x7d,[")]).Plain := by
    simp [Plain, ofNat]
  have hformat : Plugin.json.format
      ⟨toText (.obj [("a", .arr [.ofNat 1, .obj [], .arr []]), ("b", .str "\x7d,[")]), "json",
        Settings.usual⟩ =
      .ok "\x7b\n  \"a\": [\n    1,\n    \x7b\x7d,\n    []\n  ],\n  \"b\": \"\x7d,[\"\n\x7d\n" :=
    eq_ok_of_toOption (by decide +kernel)
  obtain ⟨hcompact, hpretty⟩ := beautified_agrees hplain hformat
  rw [htext] at hformat hcompact
  exact ⟨_, hformat, hcompact, hpretty, rfl⟩

end CodeTidy.Json
