import CodeTidy.Proofs.Cli.Given
import CodeTidy.Proofs.Configuration.Discovery
import CodeTidy.Proofs.Detect.Languages
import CodeTidy.Proofs.Registry.Refusal

/-!
# What a run that formats prints

`FormatEnding` lists the five ways in which a run that formats can end, each with its condition and
its report, and `run?_format` says that there is no other. The exit code tells which of them it was,
so whoever reads the standard output knows what it is: the answer of the service, the input as it
was, or nothing.
-/

namespace CodeTidy.Cli

variable {s : Surroundings Id} {config : Option String} {a : FormatArguments}

/-- The language in which code is to be formatted: the one given, or else the one detected. -/
def FormatArguments.languageOf? (a : FormatArguments) (code : String) : Option String :=
  a.language.or ((Detect.detectFile (fileNameOf a.path) code.toList).map (·.language))

/-- The workbench of a run, on which nothing has been set up yet. -/
def freshBench : Workbench Unit where
  plugins := ⟨[], List.nodup_nil⟩
  modules := ⟨[], List.nodup_nil⟩
  world := ()

/-- What the service of a configuration answers if it is asked for the first time. -/
def firstAnswer (c : Configuration) (user : Overrides) (language code : String) : Outcome :=
  ((serviceOf c).format Service.anonymous code language user ((serviceOf c).start freshBench)).1

/-- The warning that no language is known. -/
def undetectedLine : String := "Warning: Could not detect the language; pass --language\n"

/-- The warning of a failure. -/
def failureLine (f : Failure) : String := "Warning [" ++ f.kind.name ++ "]: " ++ f.message ++ "\n"

/-! ## The input -/

/-- The input of a run is a text: it arrives in time, and its bytes are the UTF-8 of the text. -/
inductive Surroundings.Receives (s : Surroundings Id) : Option String → String → Prop
  /-- It comes from a file. -/
  | file {path : String} {bytes : ByteArray} {text : List Char}
    (htime : s.isLate (some path) = false) (hbytes : s.fileBytes path = .ok bytes)
    (htext : Text.ofUtf8 bytes = .ok text) : Receives s (some path) (String.ofList text)
  /-- It comes from the standard input, which can be read to its end. -/
  | piped {text : List Char} (htime : s.isLate none = false) (hwhole : s.inputFault = none)
    (htext : Text.ofUtf8 s.inputBytes = .ok text) : Receives s none (String.ofList text)

/-- The input of a run is the text that it receives. -/
theorem Surroundings.input_eq_ok_iff {path : Option String} {code : String} :
    s.input path = .ok code ↔ s.Receives path code := by
  unfold Surroundings.input
  dsimp only [bind, pure]
  cases htime : s.isLate path with
  | true =>
    refine iff_of_false nofun fun h => ?_
    have hfalse : s.isLate path = false := by
      cases h with
      | file htime' _ _ => exact htime'
      | piped htime' _ _ => exact htime'
    rw [htime] at hfalse
    cases hfalse
  | false =>
    rw [if_neg Bool.false_ne_true]
    cases path with
    | some path =>
      dsimp only
      constructor
      · intro h
        cases hread : s.readText path with
        | error fault =>
          rw [hread] at h
          cases h
        | ok text =>
          rw [hread] at h
          cases h
          obtain ⟨bytes, hbytes, htext⟩ := Surroundings.readText_eq_ok_iff.mp hread
          exact .file htime hbytes htext
      · intro h
        cases h with
        | file _ hbytes htext => rw [Surroundings.readText_eq_ok_iff.mpr ⟨_, hbytes, htext⟩]
    | none =>
      dsimp only
      constructor
      · intro h
        cases hwhole : s.inputFault with
        | some fault =>
          rw [hwhole] at h
          cases h
        | none =>
          rw [hwhole] at h
          dsimp only at h
          cases htext : Text.ofUtf8 s.inputBytes with
          | error fault =>
            rw [htext] at h
            cases h
          | ok text =>
            rw [htext] at h
            cases h
            exact .piped htime hwhole htext
      · intro h
        cases h with
        | piped _ hwhole htext =>
          rw [hwhole]
          dsimp only
          rw [htext]

/-! ## The ways in which a run ends -/

/-- The ways in which a run that formats can end. -/
inductive FormatEnding (s : Surroundings Id) (config : Option String) (a : FormatArguments) :
    Report → Prop
  /-- There is no configuration. -/
  | unconfigured {t : Trouble} (h : s.configuration config = .error t) :
    FormatEnding s config a (.ofTrouble t)
  /-- There is no input. -/
  | unread {c : Configuration} {t : Trouble} (hc : s.configuration config = .ok c)
    (h : s.input a.path = .error t) : FormatEnding s config a (.ofTrouble t)
  /-- The settings given are malformed. -/
  | unset {c : Configuration} {code : String} {e : Overrides.BagError}
    (hc : s.configuration config = .ok c) (hi : s.input a.path = .ok code)
    (h : Overrides.ofJson a.bag = .error e) : FormatEnding s config a (.ofTrouble (.settings e))
  /-- No language is given or detected. -/
  | undetected {c : Configuration} {code : String} (hc : s.configuration config = .ok c)
    (hi : s.input a.path = .ok code) (h : a.languageOf? code = none) :
    FormatEnding s config a ⟨1, code, undetectedLine⟩
  /-- The service answers. -/
  | answered {c : Configuration} {code language : String} {user : Overrides}
    (hc : s.configuration config = .ok c) (hi : s.input a.path = .ok code)
    (hu : a.Overlays c.settings user) (hl : a.languageOf? code = some language) :
    FormatEnding s config a (formatCode c a.stats user language code)

/-- With the configuration and the input at hand, a run ends in one of the other ways. -/
theorem ofFormat_ending {c : Configuration} {code : String} (hc : s.configuration config = .ok c)
    (hi : s.input a.path = .ok code) : FormatEnding s config a (.ofFormat a c code) := by
  unfold Report.ofFormat
  cases hbag : Overrides.ofJson a.bag with
  | error e => exact .unset hc hi hbag
  | ok given =>
    have hu : a.Overlays c.settings (c.settings.mergedWith given) :=
      (FormatArguments.gives_of_bag hbag).overlays c.settings
    cases hgiven : a.language with
    | some language =>
      have hl : a.languageOf? code = some language := by
        unfold FormatArguments.languageOf?
        rw [hgiven, Option.some_or]
      exact .answered hc hi hu hl
    | none =>
      have hl : a.languageOf? code =
          (Detect.detectFile (fileNameOf a.path) code.toList).map (·.language) := by
        unfold FormatArguments.languageOf?
        rw [hgiven, Option.none_or]
      cases hfound : Detect.detectFile (fileNameOf a.path) code.toList with
      | none =>
        rw [hfound] at hl
        exact .undetected hc hi hl
      | some found =>
        rw [hfound] at hl
        exact .answered hc hi hu hl

/-- A run that formats ends in one of these ways. -/
theorem run?_format {args : List String}
    (h : Task.ofArguments? args = some (.run config (.format a))) :
    ∃ r, run? s args = some r ∧ FormatEnding s config a r := by
  have hrun : run? s args = some (match s.configuration config with
      | .error t => .ofTrouble t
      | .ok c => match s.input a.path with
        | .error t => .ofTrouble t
        | .ok code => .ofFormat a c code) := by
    unfold run?
    rw [h]
    rfl
  refine ⟨_, hrun, ?_⟩
  cases hc : s.configuration config with
  | error t => exact .unconfigured hc
  | ok c =>
    cases hi : s.input a.path with
    | error t => exact .unread hc hi
    | ok code => exact ofFormat_ending hc hi

/-! ## The answer of the service -/

/-- A first answer is that of a way to handle the request. -/
theorem firstAnswer_handling (c : Configuration) (user : Overrides) (language code : String) :
    ∃ st calls, Service.Handling (serviceOf c) ((serviceOf c).start freshBench)
      ⟨Service.anonymous, code, language, .ok user⟩ (firstAnswer c user language code) st
      calls := by
  obtain ⟨o, st, calls, hstep, -, hhandling⟩ := (serviceOf c).step_handling
    (e := .format Service.anonymous code language user) rfl ((serviceOf c).start freshBench)
  have ho : firstAnswer c user language code = o :=
    Option.some.inj (congrArg Prod.fst hstep)
  exact ⟨st, calls, ho ▸ hhandling⟩

/-- If the service fails, it gives the code back. -/
theorem firstAnswer_failed {c : Configuration} {user : Overrides} {language code text : String}
    {f : Failure} (h : firstAnswer c user language code = ⟨text, some f⟩) : text = code := by
  obtain ⟨st, calls, hhandling⟩ := firstAnswer_handling c user language code
  rw [h] at hhandling
  exact hhandling.failed.1

/-- The service supports every canonical language. -/
theorem firstAnswer_supported {c : Configuration} {user : Overrides} {language code text : String}
    {f : Failure} (hl : language ∈ Language.canonical)
    (h : firstAnswer c user language code = ⟨text, some f⟩) : f.kind ≠ .unsupportedLanguage := by
  intro hkind
  obtain ⟨st, calls, hhandling⟩ := firstAnswer_handling c user language code
  rw [h] at hhandling
  obtain ⟨b, hmem, hdeclared, hbound⟩ : ∃ b ∈ (serviceOf c).registry.backends,
      language ∈ Registry.declared b ∧ (serviceOf c).registry.backend? language = some b :=
    Registry.builtin_bound .none Plugin.builtinLoader c.service.wasmBase hl
  have hreason := hhandling.of_unsupported rfl hkind
  unfold Service.Submission.request Service.Submission.canonical at hreason
  dsimp only at hreason
  rw [(Language.mem_canonical_iff.mp hl).1, hbound] at hreason
  -- The language is bound, so the backend itself would have refused a language that it declares.
  rcases hreason with hnone | ⟨b', hb', hanswer⟩
  · cases hnone
  · obtain rfl := Option.some.inj hb'
    exact Registry.answer_builtin_kind c.service.wasmBase hmem hdeclared hanswer hkind

/-- A success of the service is printed with the exit code 0. -/
theorem formatCode_of_success {c : Configuration} {user : Overrides} {language code text : String}
    (stats : Bool) (h : firstAnswer c user language code = ⟨text, none⟩) :
    ∃ counted, formatCode c stats user language code = ⟨0, text, counted⟩ := by
  unfold firstAnswer freshBench at h
  unfold formatCode
  dsimp only
  rw [h]
  exact ⟨_, rfl⟩

/-- A failure of the service is printed with the exit code 1 and a warning. -/
theorem formatCode_of_failure {c : Configuration} {user : Overrides} {language code text : String}
    {f : Failure} (stats : Bool) (h : firstAnswer c user language code = ⟨text, some f⟩) :
    ∃ counted, formatCode c stats user language code = ⟨1, text, counted ++ failureLine f⟩ := by
  unfold firstAnswer freshBench at h
  unfold formatCode failureLine
  dsimp only
  rw [h]
  dsimp only
  generalize (if stats then statsLine _ else "") = counted
  exact ⟨counted, by simp only [String.append_assoc]⟩

/-! ## What the exit code tells -/

/-- The input of the run is answered with `o` by the service that the configuration asks for, under
the settings of the configuration with those of the command line laid over them. -/
def ServiceAnswers (s : Surroundings Id) (config : Option String) (a : FormatArguments)
    (o : Outcome) : Prop :=
  ∃ c code user language, s.configuration config = .ok c ∧ s.input a.path = .ok code ∧
    a.Overlays c.settings user ∧ a.languageOf? code = some language ∧
    firstAnswer c user language code = o

/-- What a reader of a report on formatting can rely on. -/
structure Report.Tells (r : Report) (s : Surroundings Id) (config : Option String)
    (a : FormatArguments) : Prop where
  exit : r.exit = 0 ∨ r.exit = 1 ∨ r.exit = 2
  /-- With 0, the service succeeded, and its result is printed. -/
  formatted : r.exit = 0 → ServiceAnswers s config a ⟨r.stdout, none⟩
  /-- With 1, the input is printed as it is. -/
  unchanged : r.exit = 1 → s.input a.path = .ok r.stdout
  /-- With 1, no language is known or the service failed, and a warning says so. -/
  warned : r.exit = 1 → (a.languageOf? r.stdout = none ∧ r.stderr = undetectedLine) ∨
    ∃ f counted, ServiceAnswers s config a ⟨r.stdout, some f⟩ ∧
      r.stderr = counted ++ failureLine f
  /-- With 2, nothing is printed. -/
  silent : r.exit = 2 → r.stdout = ""
  /-- With 2, the configuration, the input or the settings given cannot be read. -/
  troubled : r.exit = 2 → ∃ t, r = .ofTrouble t ∧ (s.configuration config = .error t ∨
    s.input a.path = .error t ∨ ∃ e, t = .settings e ∧ Overrides.ofJson a.bag = .error e)

/-- A report on trouble tells of it. -/
theorem Report.ofTrouble_tells {t : Trouble} (h : s.configuration config = .error t ∨
    s.input a.path = .error t ∨ ∃ e, t = .settings e ∧ Overrides.ofJson a.bag = .error e) :
    (Report.ofTrouble t).Tells s config a where
  exit := .inr (.inr rfl)
  formatted := nofun
  unchanged := nofun
  warned := nofun
  silent _ := rfl
  troubled _ := ⟨t, rfl, h⟩

/-- In whichever way a run that formats ends, its report tells. -/
theorem FormatEnding.tells {r : Report} (h : FormatEnding s config a r) : r.Tells s config a := by
  cases h with
  | unconfigured h => exact Report.ofTrouble_tells (.inl h)
  | unread hc h => exact Report.ofTrouble_tells (.inr (.inl h))
  | unset hc hi h => exact Report.ofTrouble_tells (.inr (.inr ⟨_, rfl, h⟩))
  | undetected hc hi h =>
    exact ⟨.inr (.inl rfl), nofun, fun _ => hi, fun _ => .inl ⟨h, rfl⟩, nofun, nofun⟩
  | @answered c code language user hc hi hu hl =>
    rcases hfirst : firstAnswer c user language code with ⟨text, failure?⟩
    have hanswers : ServiceAnswers s config a ⟨text, failure?⟩ :=
      ⟨c, code, user, language, hc, hi, hu, hl, hfirst⟩
    cases failure? with
    | none =>
      obtain ⟨counted, hreport⟩ := formatCode_of_success a.stats hfirst
      rw [hreport]
      exact ⟨.inl rfl, fun _ => hanswers, nofun, nofun, nofun, nofun⟩
    | some f =>
      obtain ⟨counted, hreport⟩ := formatCode_of_failure a.stats hfirst
      -- A failure gives the code back, so what is printed is the input.
      obtain rfl := firstAnswer_failed hfirst
      rw [hreport]
      exact ⟨.inr (.inl rfl), nofun, fun _ => hi, fun _ => .inr ⟨f, counted, hanswers, rfl⟩, nofun,
        nofun⟩

/-- A language that was not given but detected is supported. -/
theorem ServiceAnswers.supported {text : String} {f : Failure}
    (h : ServiceAnswers s config a ⟨text, some f⟩) (hgiven : a.language = none) :
    f.kind ≠ .unsupportedLanguage := by
  obtain ⟨c, code, user, language, -, -, -, hl, hfirst⟩ := h
  unfold FormatArguments.languageOf? at hl
  rw [hgiven, Option.none_or] at hl
  obtain ⟨found, hfound, rfl⟩ := Option.map_eq_some_iff.mp hl
  exact firstAnswer_supported (Detect.detectFile_canonical hfound) hfirst

/-- Every command line that asks for formatting gets a report, whatever the files, the standard
input and the working directory are, and its exit code tells what the standard output is: with 0 the
successful answer of the service under the settings of the configuration and the command line, with
1 the input as it is, with 2 nothing. Without a language given, the service never fails because the
language is not supported. The configuration is what the bytes of its file say, which is the file
given on the command line or that of the directory which governs the working directory, and the
input is the text of which its bytes are the UTF-8, if they arrive in time. -/
theorem format_exit_tells (s : Surroundings Id) (args : List String) (config : Option String)
    (a : FormatArguments) (h : Task.ofArguments? args = some (.run config (.format a))) :
    ∃ r, run? s args = some r ∧ r.Tells s config a ∧
      (a.language = none → ∀ text f, ServiceAnswers s config a ⟨text, some f⟩ →
        f.kind ≠ .unsupportedLanguage) ∧
      (∀ c, s.configuration config = .ok c ↔ s.Configured config c) ∧
      ∀ code, s.input a.path = .ok code ↔ s.Receives a.path code := by
  obtain ⟨r, hrun, hending⟩ := run?_format h
  refine ⟨r, hrun, hending.tells, ?_, fun c => Surroundings.configuration_eq_ok_iff,
    fun code => Surroundings.input_eq_ok_iff⟩
  exact fun hgiven text f hanswers => hanswers.supported hgiven

/-- The surroundings of a run in the directory of the file `a.js`, which holds a text. The
configuration stands one directory above. -/
def checkout (text : String) : Surroundings Id where
  fileBytes path :=
    if path == "a.js" then .ok text.toUTF8
    else if path == "/work/.codeview.toml" then
      .ok "[settings]\nindentSize = 2\n[service]\nmax-input-bytes = 30\n".toUTF8
    else .error .missing
  inputBytes := .empty
  workingDirectory := some ["src", "work"]
  isFile path := path == "/work/.codeview.toml"
  isThere path := path == "/work/.codeview.toml"

/-- What the configuration above the directory says. -/
def checkoutConfiguration : Configuration where
  settings := { indentSize := some (.width .two) }
  service := { maxInputBytes := 30 }

/-- A short file is answered with two blanks in front of a line, as the configuration says, and with
the quotes of the command line. A file longer than the configuration allows is printed as it is, and
with an indentation of nine columns nothing is printed. -/
theorem format_exit_tells_checkout :
    let short := "if (x) \x7b\nf(\"a\")\n\x7d"
    let long := "if (reached(end, here)) \x7b\nf(\"a\")\n\x7d"
    let single : FormatArguments := { path := some "a.js", singleQuote := true }
    let wide : FormatArguments := { path := some "a.js", indent := some "9" }
    ((checkout short).Configured none checkoutConfiguration ∧
      ServiceAnswers (checkout short) none single ⟨"if (x) \x7b\n  f('a')\n\x7d\n", none⟩) ∧
    ((checkout long).Receives (some "a.js") long ∧
      ∃ f, ServiceAnswers (checkout long) none single ⟨long, some f⟩ ∧
        f.kind ≠ .unsupportedLanguage) ∧
    ∃ r, run? (checkout short) ["format", "--indent", "9", "a.js"] = some r ∧ r.exit = 2 ∧
      r.stdout = "" ∧ ∃ e, Overrides.ofJson wide.bag = .error e := by
  intro short long single wide
  have hread : (Id.run ((checkout short).configuration none)).toOption =
      some checkoutConfiguration := by
    decide +kernel
  refine ⟨?_, ?_, ?_⟩
  · obtain ⟨r, hrun, htells, -, hconfigured, -⟩ := format_exit_tells (checkout short)
      ["format", "--single-quote", "a.js"] none single (by decide +kernel)
    have hreport : Id.run (run? (checkout short) ["format", "--single-quote", "a.js"]) =
        some ⟨0, "if (x) \x7b\n  f('a')\n\x7d\n", ""⟩ := by
      decide +kernel
    obtain rfl := Option.some.inj (hreport.symm.trans hrun)
    have hanswers := htells.formatted rfl
    refine ⟨?_, hanswers⟩
    obtain ⟨c, -, -, -, hc, -⟩ := hanswers
    obtain rfl : checkoutConfiguration = c :=
      Option.some.inj (hread.symm.trans (congrArg Except.toOption hc))
    exact (hconfigured _).mp hc
  · obtain ⟨r, hrun, htells, hsupported, -, hreceives⟩ := format_exit_tells (checkout long)
      ["format", "--single-quote", "a.js"] none single (by decide +kernel)
    have hreport : Id.run (run? (checkout long) ["format", "--single-quote", "a.js"]) =
        some ⟨1, long, "Warning [oversized-input]: Input is 34 bytes, which exceeds the 30 byte "
          ++ "limit\n"⟩ := by
      decide +kernel
    obtain rfl := Option.some.inj (hreport.symm.trans hrun)
    refine ⟨(hreceives long).mp (htells.unchanged rfl), ?_⟩
    rcases htells.warned rfl with ⟨hnone, -⟩ | ⟨f, counted, hanswers, -⟩
    · exact absurd hnone (by decide +kernel)
    · exact ⟨f, hanswers, hsupported rfl long f hanswers⟩
  · obtain ⟨r, hrun, htells, -⟩ := format_exit_tells (checkout short)
      ["format", "--indent", "9", "a.js"] none wide (by decide +kernel)
    have hexit : (Id.run (run? (checkout short) ["format", "--indent", "9", "a.js"])).map
        Report.exit = some 2 := by
      decide +kernel
    have htwo : r.exit = 2 :=
      Option.some.inj ((congrArg (Option.map Report.exit) hrun).symm.trans hexit)
    have hinput : (Id.run ((checkout short).input (some "a.js"))).toOption = some short := by
      decide +kernel
    obtain ⟨t, -, htrouble⟩ := htells.troubled htwo
    refine ⟨r, hrun, htwo, htells.silent htwo, ?_⟩
    -- The configuration and the input can be read, so it is the settings that cannot.
    rcases htrouble with hc | hi | ⟨e, -, he⟩
    · cases hread.symm.trans (congrArg Except.toOption hc)
    · cases hinput.symm.trans (congrArg Except.toOption hi)
    · exact ⟨e, he⟩

end CodeTidy.Cli
