import CodeTidy.Cli.Run
import Mathlib.Data.List.Infix

/-!
# Which configuration holds for a directory

The search for a configuration goes up from a directory. `Governs` says without a search where it
has to end: at a directory with a configuration, near enough, such that nothing on the way up to it
ends the search before. `nearest_eq_some_iff` says that the search ends there and nowhere else, and
`Cli.Surroundings.discovered_governs` says it of the files around a run.
`Cli.Surroundings.configuration_eq_ok_iff` goes on to the bytes of the file that is found or given.
-/

namespace CodeTidy.Configuration

/-- The directory `d` governs `start`: it is `start` or lies above it, at a distance less than
`depth`, it has a configuration, and no directory that is passed on the way up to it has one or is a
repository. -/
structure Governs (hasFile isRepository : Directory → Bool) (depth : ℕ) (d start : Directory) :
    Prop where
  atOrAbove : d <:+ start
  near : start.length - d.length < depth
  configured : hasFile d = true
  passed : ∀ e, e <:+ start → d <:+ e → e ≠ d → hasFile e = false ∧ isRepository e = false

variable {hasFile isRepository : Directory → Bool} {depth : ℕ} {d start parent : Directory}
  {name : String}

/-! ## One step up -/

/-- One step of the search: it ends at a configuration, fails at a repository or at the root, and
else goes on one directory above with one directory less to look at. -/
theorem nearest_succ : nearest (m := Id) hasFile isRepository (depth + 1) d =
    if hasFile d then some d
    else if isRepository d then none
    else match d with
      | [] => none
      | _ :: parent => nearest (m := Id) hasFile isRepository depth parent := by
  cases d <;> rfl

/-- Where no directory is looked at none governs. -/
theorem not_governs_zero : ¬Governs hasFile isRepository 0 d start :=
  fun h => Nat.not_lt_zero _ h.near

/-- A directory with a configuration is governed by itself alone, whether or not it is a
repository. -/
theorem governs_of_hasFile (h : hasFile start = true) :
    Governs hasFile isRepository (depth + 1) d start ↔ d = start := by
  constructor
  · intro hd
    by_contra hne
    have hpassed := hd.passed start List.suffix_rfl hd.atOrAbove (Ne.symm hne)
    rw [h] at hpassed
    exact Bool.noConfusion hpassed.1
  · rintro rfl
    refine ⟨List.suffix_rfl, by omega, h, ?_⟩
    intro e he hde hne
    exact absurd (he.eq_of_length_le hde.length_le) hne

/-- A directory without a configuration does not govern itself. -/
theorem Governs.ne_start (hd : Governs hasFile isRepository depth d start)
    (h : hasFile start = false) : d ≠ start := by
  rintro rfl
  rw [hd.configured] at h
  exact Bool.noConfusion h

/-- No directory governs a repository without a configuration. -/
theorem not_governs_of_isRepository (h : hasFile start = false)
    (hrepo : isRepository start = true) : ¬Governs hasFile isRepository depth d start := by
  intro hd
  have hpassed := hd.passed start List.suffix_rfl hd.atOrAbove (hd.ne_start h).symm
  rw [hrepo] at hpassed
  exact Bool.noConfusion hpassed.2

/-- No directory governs a root without a configuration. -/
theorem not_governs_root (h : hasFile [] = false) :
    ¬Governs hasFile isRepository depth d [] :=
  fun hd => hd.ne_start h (List.suffix_nil.mp hd.atOrAbove)

/-- A directory that does not end the search is governed by what governs the one above it. -/
theorem governs_cons (h : hasFile (name :: parent) = false)
    (hrepo : isRepository (name :: parent) = false) :
    Governs hasFile isRepository (depth + 1) d (name :: parent) ↔
      Governs hasFile isRepository depth d parent := by
  constructor
  · intro hd
    have habove : d <:+ parent :=
      (List.suffix_cons_iff.mp hd.atOrAbove).resolve_left (hd.ne_start h)
    have hnear := hd.near
    rw [List.length_cons] at hnear
    refine ⟨habove, by have := habove.length_le; omega, hd.configured, ?_⟩
    intro e he
    exact hd.passed e (he.trans (List.suffix_cons name parent))
  · intro hd
    have hnear := hd.near
    refine ⟨hd.atOrAbove.trans (List.suffix_cons name parent), ?_, hd.configured, ?_⟩
    · rw [List.length_cons]
      omega
    · intro e he hde hne
      rcases List.suffix_cons_iff.mp he with rfl | he
      · exact ⟨h, hrepo⟩
      · exact hd.passed e he hde hne

/-! ## The search -/

/-- The search ends at the directory that governs the one where it starts, if there is one. -/
theorem nearest_eq_some_iff :
    nearest (m := Id) hasFile isRepository depth start = some d ↔
      Governs hasFile isRepository depth d start := by
  -- by induction on the directories left to look at, where each step goes one directory up
  induction depth generalizing start with
  | zero => exact iff_of_false nofun not_governs_zero
  | succ depth ih =>
    rw [nearest_succ]
    cases hfile : hasFile start with
    | true => rw [if_pos rfl, governs_of_hasFile hfile, Option.some_inj, eq_comm]
    | false =>
      rw [if_neg Bool.false_ne_true]
      cases hrepo : isRepository start with
      | true => exact iff_of_false nofun (not_governs_of_isRepository hfile hrepo)
      | false =>
        rw [if_neg Bool.false_ne_true]
        cases start with
        | nil => exact iff_of_false nofun (not_governs_root hfile)
        | cons name parent => rw [governs_cons hfile hrepo, ih]

/-- A configuration next to a repository is found. -/
example : discover (m := Id) (· == ["p"]) (· == ["p"]) ["b", "a", "p"] = some ["p"] := rfl

/-- A configuration above a repository is not found. -/
example : discover (m := Id) (· == []) (· == ["p"]) ["b", "a", "p"] = none := rfl

end CodeTidy.Configuration

namespace CodeTidy.Cli.Surroundings

open CodeTidy.Configuration

/-! ## The configuration of a run -/

section directories

variable (s : Surroundings Id)

/-- Does the directory hold a file with a configuration? -/
def hasConfiguration (d : Directory) : Bool := s.isFile (pathIn d ".codeview.toml")

/-- Is the directory the top of a repository? -/
def isRepository (d : Directory) : Bool := s.isThere (pathIn d ".git")

/-- The directory whose configuration a run in `start` finds. -/
def discovered (start : Directory) : Option Directory :=
  discover (m := Id) s.hasConfiguration s.isRepository start

/-- The directory is found that governs `start`. -/
theorem discovered_eq_some_iff {start d : Directory} :
    s.discovered start = some d ↔ Governs s.hasConfiguration s.isRepository 100 d start :=
  nearest_eq_some_iff

/-- None is found if none governs `start`. -/
theorem discovered_eq_none_iff {start : Directory} : s.discovered start = none ↔
    ∀ d, ¬Governs s.hasConfiguration s.isRepository 100 d start := by
  rw [Option.eq_none_iff_forall_ne_some]
  exact forall_congr' fun d => not_congr s.discovered_eq_some_iff

/-- A run finds the configuration of the directory that governs the one it is in, among the nearest
hundred, and none if no directory governs it. Where no file is given this is the configuration of
the run, and without one the run has the usual configuration. -/
theorem discovered_governs (start : Directory) :
    (∀ d, s.discovered start = some d ↔
      Governs s.hasConfiguration s.isRepository 100 d start) ∧
    (s.discovered start = none ↔
      ∀ d, ¬Governs s.hasConfiguration s.isRepository 100 d start) ∧
    { s with workingDirectory := some start }.configuration none =
      match s.discovered start with
      | none => .ok {}
      | some d => s.configurationAt (pathIn d ".codeview.toml") :=
  ⟨fun _ => s.discovered_eq_some_iff, s.discovered_eq_none_iff, rfl⟩

/-- The file at the path says the configuration: its bytes are a text in UTF-8 that is read as the
configuration. -/
def Says (path : String) (c : Configuration) : Prop :=
  ∃ bytes text, s.fileBytes path = .ok bytes ∧ Text.ofUtf8 bytes = .ok text ∧
    Configuration.parse text = .ok c

/-- A run has the configuration, where the file may be given on its command line. -/
inductive Configured : Option String → Configuration → Prop
  /-- It is what the file given says. -/
  | given {path : String} {c : Configuration} (h : s.Says path c) : Configured (some path) c
  /-- It is what the file says in the directory that governs the one where the run is. -/
  | governed {start d : Directory} {c : Configuration} (hstart : s.workingDirectory = some start)
    (hd : Governs s.hasConfiguration s.isRepository 100 d start)
    (h : s.Says (pathIn d ".codeview.toml") c) : Configured none c
  /-- It is the usual one if no directory governs the one where the run is. -/
  | ungoverned {start : Directory} (hstart : s.workingDirectory = some start)
    (hnone : ∀ d, ¬Governs s.hasConfiguration s.isRepository 100 d start) : Configured none {}
  /-- It is the usual one if it is not known where the run is. -/
  | nowhere (h : s.workingDirectory = none) : Configured none {}

end directories

variable {s : Surroundings Id} {path : String} {c : Configuration}

/-- The text of a file is the one of which its bytes are the UTF-8. -/
theorem readText_eq_ok_iff {text : List Char} : s.readText path = .ok text ↔
    ∃ bytes, s.fileBytes path = .ok bytes ∧ Text.ofUtf8 bytes = .ok text := by
  unfold readText
  dsimp only [bind, pure]
  constructor
  · intro h
    cases hbytes : s.fileBytes path with
    | error fault =>
      rw [hbytes] at h
      cases h
    | ok bytes =>
      rw [hbytes] at h
      dsimp only at h
      cases hread : Text.ofUtf8 bytes with
      | error fault =>
        rw [hread] at h
        cases h
      | ok read =>
        rw [hread] at h
        cases h
        exact ⟨bytes, rfl, hread⟩
  · rintro ⟨bytes, hbytes, hread⟩
    rw [hbytes]
    dsimp only
    rw [hread]

/-- The configuration in a file is the one that the file says. -/
theorem configurationAt_eq_ok_iff : s.configurationAt path = .ok c ↔ s.Says path c := by
  unfold configurationAt
  dsimp only [bind, pure]
  constructor
  · intro h
    cases htext : s.readText path with
    | error fault =>
      rw [htext] at h
      cases h
    | ok text =>
      rw [htext] at h
      dsimp only at h
      obtain ⟨bytes, hbytes, hread⟩ := readText_eq_ok_iff.mp htext
      cases hparse : Configuration.parse text with
      | error rejection =>
        rw [hparse] at h
        cases h
      | ok found =>
        rw [hparse] at h
        cases h
        exact ⟨bytes, text, hbytes, hread, hparse⟩
  · rintro ⟨bytes, text, hbytes, hread, hparse⟩
    rw [readText_eq_ok_iff.mpr ⟨bytes, hbytes, hread⟩]
    dsimp only
    rw [hparse]

/-- The configuration of a run is the one that it has by what the files around it say. -/
theorem configuration_eq_ok_iff {given : Option String} :
    s.configuration given = .ok c ↔ s.Configured given c := by
  cases given with
  | some path =>
    have hat : s.configuration (some path) = s.configurationAt path := rfl
    rw [hat, configurationAt_eq_ok_iff]
    constructor
    · exact .given
    · rintro ⟨h⟩
      exact h
  | none =>
    unfold configuration
    dsimp only [bind, pure]
    cases hstart : s.workingDirectory with
    | none =>
      dsimp only
      constructor
      · rintro ⟨⟩
        exact .nowhere hstart
      · intro h
        cases h with
        | governed hstart' _ _ =>
          rw [hstart] at hstart'
          cases hstart'
        | ungoverned _ _ => rfl
        | nowhere _ => rfl
    | some start =>
      show (match s.discovered start with
        | none => .ok {}
        | some d => s.configurationAt (pathIn d ".codeview.toml")) = Except.ok c ↔ _
      constructor
      · intro h
        cases hfound : s.discovered start with
        | none =>
          rw [hfound] at h
          cases h
          exact .ungoverned hstart (s.discovered_eq_none_iff.mp hfound)
        | some d =>
          rw [hfound] at h
          exact .governed hstart (s.discovered_eq_some_iff.mp hfound)
            (configurationAt_eq_ok_iff.mp h)
      · intro h
        cases h with
        | governed hstart' hd h =>
          obtain rfl := Option.some.inj (hstart.symm.trans hstart')
          rw [s.discovered_eq_some_iff.mpr hd]
          exact configurationAt_eq_ok_iff.mpr h
        | ungoverned hstart' hnone =>
          obtain rfl := Option.some.inj (hstart.symm.trans hstart')
          rw [s.discovered_eq_none_iff.mpr hnone]
        | nowhere h =>
          rw [hstart] at h
          cases h

end CodeTidy.Cli.Surroundings
