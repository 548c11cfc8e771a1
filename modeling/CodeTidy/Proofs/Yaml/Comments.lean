import CodeTidy.Backend.Plugin
import CodeTidy.Proofs.Text.Strip
import CodeTidy.Settings.Resolve
import Mathlib.Data.List.DropRight

/-!
# Comments in YAML

A comment would be lost, so a text with one must be refused. The plugin looks for a number sign
behind white space, line by line, and takes every quote in front of it for the start or the end of a
quoted scalar. In YAML a quote starts a scalar only where a scalar starts, a backslash escapes
inside of double quotes, and a quoted scalar goes on over lines. So a comment is found if the quotes
in front of it on its line come in pairs, and it may be lost otherwise.
-/

namespace CodeTidy.Yaml

/-! ## Quotes on a line -/

/-- A quote of either kind. -/
def isQuote (c : Char) : Bool := c == '"' || c == '\''

/-- Quotes come in pairs: behind each that opens comes another of its kind, and what stands between
does not count. -/
inductive Paired : List Char → Prop
  | nil : Paired []
  | plain {c : Char} {s : List Char} : isQuote c = false → Paired s → Paired (c :: s)
  | quoted {q : Char} {inner s : List Char} :
      isQuote q = true → q ∉ inner → Paired s → Paired (q :: (inner ++ q :: s))

/-- The quote that is open behind a character, by the one that is open in front of it. -/
def quoteStep (quote : Option Char) (c : Char) : Option Char :=
  match quote with
  | some q => if c == q then none else some q
  | none => if isQuote c then some c else none

/-- The quote that is open behind a text. -/
def openQuote (quote : Option Char) (s : List Char) : Option Char := s.foldl quoteStep quote

/-- A quote stays open up to the next of its kind. -/
theorem openQuote_some {q : Char} {inner : List Char} (h : q ∉ inner) :
    openQuote (some q) inner = some q := by
  induction inner with
  | nil => rfl
  | cons c inner ih =>
    rw [List.mem_cons, not_or] at h
    have hstep : quoteStep (some q) c = some q := by simp [quoteStep, Ne.symm h.1]
    show openQuote (quoteStep (some q) c) inner = some q
    rw [hstep, ih h.2]

/-- What closes a quote is the next of its kind. -/
theorem exists_of_openQuote_some {q : Char} {s : List Char} (h : openQuote (some q) s = none) :
    ∃ inner rest, s = inner ++ q :: rest ∧ q ∉ inner ∧ openQuote none rest = none := by
  induction s with
  | nil => exact absurd h nofun
  | cons c s ih =>
    by_cases hc : c = q
    · subst hc
      refine ⟨[], s, rfl, List.not_mem_nil, ?_⟩
      have hs : openQuote (quoteStep (some c) c) s = none := h
      have hstep : quoteStep (some c) c = none := by simp [quoteStep]
      rw [hstep] at hs
      exact hs
    · have hstep : quoteStep (some q) c = some q := by simp [quoteStep, hc]
      have hs : openQuote (quoteStep (some q) c) s = none := h
      rw [hstep] at hs
      obtain ⟨inner, rest, rfl, hinner, hrest⟩ := ih hs
      exact ⟨c :: inner, rest, rfl, by simp [hinner, Ne.symm hc], hrest⟩

/-- What is open is a quote. -/
theorem isQuote_of_openQuote {s : List Char} {q : Char} (h : openQuote none s = some q) :
    isQuote q = true := by
  have hstep : ∀ (s : List Char) (quote : Option Char), (∀ q, quote = some q → isQuote q = true) →
      ∀ q, openQuote quote s = some q → isQuote q = true := by
    intro s
    induction s with
    | nil => exact fun quote hquote => hquote
    | cons c s ih =>
      intro quote hquote
      refine ih _ fun q hq => ?_
      unfold quoteStep at hq
      split at hq
      · split_ifs at hq
        exact hquote q hq
      · split_ifs at hq with hc
        rw [← Option.some.inj hq]
        exact hc
  exact hstep s none nofun q h

/-- Quotes come in pairs if none is open in the end. -/
theorem paired_iff (s : List Char) : Paired s ↔ openQuote none s = none := by
  constructor
  · intro h
    induction h with
    | nil => rfl
    | @plain c s hc _ ih =>
      have hstep : quoteStep none c = none := by simp [quoteStep, hc]
      show openQuote (quoteStep none c) s = none
      rw [hstep, ih]
    | @quoted q inner s hq hinner _ ih =>
      have hopen : quoteStep none q = some q := by simp [quoteStep, hq]
      have hclose : quoteStep (some q) q = none := by simp [quoteStep]
      show (inner ++ q :: s).foldl quoteStep (quoteStep none q) = none
      rw [List.foldl_append, List.foldl_cons, hopen]
      show openQuote (quoteStep (openQuote (some q) inner) q) s = none
      rw [openQuote_some hinner, hclose, ih]
  · intro h
    -- A quote takes all up to its partner off, so the induction is on the length.
    induction hn : s.length using Nat.strong_induction_on generalizing s with
    | _ n ih =>
      subst hn
      cases s with
      | nil => exact .nil
      | cons c s =>
        have hs : openQuote (quoteStep none c) s = none := h
        by_cases hc : isQuote c = true
        · have hstep : quoteStep none c = some c := by simp [quoteStep, hc]
          rw [hstep] at hs
          obtain ⟨inner, rest, rfl, hinner, hrest⟩ := exists_of_openQuote_some hs
          exact .quoted hc hinner (ih rest.length (by simp; omega) rest hrest rfl)
        · have hplain : isQuote c = false := by simpa using hc
          have hstep : quoteStep none c = none := by simp [quoteStep, hplain]
          rw [hstep] at hs
          exact .plain hplain (ih s.length (by simp) s hs rfl)

instance (s : List Char) : Decidable (Paired s) := decidable_of_iff _ (paired_iff s).symm

/-! ## Number signs that are found -/

/-- The last line of a text. -/
def lastLine (s : List Char) : List Char := s.rtakeWhile (· != '\n')

/-- Does the text end in white space, if it is not empty? -/
def endsBlank (s : List Char) : Bool := s.getLast?.all Text.isBlank

/-- The last character decides. -/
theorem endsBlank_concat (s : List Char) (c : Char) : endsBlank (s ++ [c]) = Text.isBlank c := by
  unfold endsBlank
  rw [List.getLast?_concat, Option.all_some]

/-- A number sign at the start of a line or behind white space, where the quotes in front of it on
its line come in pairs. -/
structure Exposed (text pre suf : List Char) : Prop where
  text_eq : text = pre ++ '#' :: suf
  behind : endsBlank pre = true
  paired : Paired (lastLine pre)

/-- Is there a comment, as far as the plugin sees? -/
def isCommented (text : List Char) : Bool := (Text.lines text).any (hasComment none true)

/-- A line has a comment at its first character or behind it. -/
theorem hasComment_cons (quote : Option Char) (afterBlank : Bool) (c : Char) (line : List Char) :
    hasComment quote afterBlank (c :: line) = true ↔
      (c = '#' ∧ quote = none ∧ afterBlank = true) ∨
        hasComment (quoteStep quote c) (Text.isBlank c) line = true := by
  cases quote with
  | some q => simp [hasComment, quoteStep]
  | none =>
    have heq : hasComment none afterBlank (c :: line) =
        if isQuote c then hasComment (some c) false line
        else if c == '#' && afterBlank then true
        else hasComment none (Text.isBlank c) line := rfl
    rw [heq]
    by_cases hc : isQuote c = true
    · have hne : c ≠ '#' := by
        rintro rfl
        exact absurd hc (by decide)
      have hblank : Text.isBlank c = false := by
        rcases (by simpa [isQuote] using hc : c = '"' ∨ c = '\'') with rfl | rfl <;> decide
      have hstep : quoteStep none c = some c := by simp [quoteStep, hc]
      rw [if_pos hc, hstep, hblank]
      simp [hne]
    · have hstep : quoteStep none c = none := by simp [quoteStep, hc]
      rw [if_neg hc, hstep]
      by_cases hsign : (c == '#' && afterBlank) = true
      · rw [if_pos hsign]
        simpa using Or.inl hsign
      · rw [if_neg hsign]
        simp only [Bool.and_eq_true, beq_iff_eq] at hsign
        simp [hsign]

/-- What follows without a number sign makes no difference. -/
theorem hasComment_append {tail : List Char} (htail : '#' ∉ tail) (quote : Option Char)
    (afterBlank : Bool) (line : List Char) :
    hasComment quote afterBlank (line ++ tail) = hasComment quote afterBlank line := by
  rw [Bool.eq_iff_iff]
  induction line generalizing quote afterBlank with
  | nil =>
    refine ⟨fun h => ?_, nofun⟩
    rw [List.nil_append] at h
    induction tail generalizing quote afterBlank with
    | nil => exact h
    | cons c tail ih =>
      rw [List.mem_cons, not_or] at htail
      rcases (hasComment_cons quote afterBlank c tail).mp h with ⟨hc, -⟩ | h
      · exact absurd hc.symm htail.1
      · exact absurd (ih htail.2 _ _ h) nofun
  | cons c line ih => rw [List.cons_append, hasComment_cons, hasComment_cons, ih]

/-- What the search for a comment knows behind a text: the quote that is open, and whether a comment
can start. -/
structure Seek where
  quote : Option Char
  afterBlank : Bool

/-- The next character changes what is known. Each line is searched anew. -/
def Seek.step (k : Seek) (c : Char) : Seek :=
  if c = '\n' then ⟨none, true⟩ else ⟨quoteStep k.quote c, Text.isBlank c⟩

/-- Behind a text from its start on, the quotes on its last line count and its last character. -/
theorem foldl_seek (s : List Char) :
    s.foldl Seek.step ⟨none, true⟩ = ⟨openQuote none (lastLine s), endsBlank s⟩ := by
  induction s using List.reverseRecOn with
  | nil => rfl
  | append_singleton s c ih =>
    rw [List.foldl_append, ih]
    show Seek.step _ c = _
    unfold Seek.step
    split_ifs with hc
    · subst hc
      rw [endsBlank_concat]
      unfold lastLine
      rw [List.rtakeWhile_concat_neg _ _ _ (by simp)]
      rfl
    · have hline : lastLine (s ++ [c]) = lastLine s ++ [c] := by
        unfold lastLine
        rw [List.rtakeWhile_concat_pos _ _ _ (by simpa using hc)]
      rw [endsBlank_concat, hline]
      unfold openQuote
      rw [List.foldl_append]
      rfl

/-- Is there a comment in pieces of a text, when something is known in front of the first one? -/
def anyComment (k : Seek) : List (List Char) → Bool
  | [] => false
  | piece :: pieces => hasComment k.quote k.afterBlank piece || pieces.any (hasComment none true)

/-- A comment is at the first character of a text or behind it. -/
theorem anyComment_pieces_cons (k : Seek) (c : Char) (s : List Char) :
    anyComment k (Text.pieces (c :: s)) = true ↔
      (c = '#' ∧ k = ⟨none, true⟩) ∨ anyComment (k.step c) (Text.pieces s) = true := by
  obtain ⟨quote, afterBlank⟩ := k
  have hcons : Text.pieces (c :: s) =
      if c == '\n' then ['\n'] :: Text.pieces s
      else match Text.pieces s with
        | [] => [[c]]
        | l :: ls => (c :: l) :: ls := rfl
  rw [hcons]
  by_cases hc : c = '\n'
  · -- A line feed is a piece of its own here, and the search starts anew behind it.
    subst hc
    have hfirst : hasComment quote afterBlank ['\n'] = false := by
      rw [← Bool.not_eq_true, hasComment_cons]
      rintro (⟨h, -⟩ | h)
      · exact absurd h (by decide)
      · exact absurd h nofun
    rw [if_pos (beq_self_eq_true '\n')]
    cases Text.pieces s <;> simp [anyComment, hfirst, Seek.step]
  · -- Any other character goes in front of the first piece, if there is one.
    have hstep : Seek.step ⟨quote, afterBlank⟩ c = ⟨quoteStep quote c, Text.isBlank c⟩ := by
      simp [Seek.step, hc]
    rw [if_neg (by simpa using hc), hstep]
    cases Text.pieces s with
    | nil =>
      simp only [anyComment, List.any_nil, Bool.or_false, hasComment_cons, Seek.mk.injEq]
      simp [hasComment]
    | cons l ls =>
      simp only [anyComment, Bool.or_eq_true, hasComment_cons, Seek.mk.injEq]
      tauto

/-- The search finds each number sign in front of which no quote is open. -/
theorem anyComment_pieces (k : Seek) (s : List Char) :
    anyComment k (Text.pieces s) = true ↔
      ∃ pre suf, s = pre ++ '#' :: suf ∧ pre.foldl Seek.step k = ⟨none, true⟩ := by
  induction s generalizing k with
  | nil =>
    refine ⟨nofun, ?_⟩
    rintro ⟨pre, suf, h, -⟩
    exact absurd h (by simp)
  | cons c s ih =>
    rw [anyComment_pieces_cons, ih]
    constructor
    · rintro (⟨rfl, rfl⟩ | ⟨pre, suf, rfl, hpre⟩)
      · exact ⟨[], s, rfl, rfl⟩
      · exact ⟨c :: pre, suf, rfl, hpre⟩
    · rintro ⟨pre, suf, hs, hpre⟩
      cases pre with
      | nil =>
        obtain ⟨rfl, rfl⟩ := List.cons.inj hs
        exact .inl ⟨rfl, hpre⟩
      | cons d pre =>
        obtain ⟨rfl, rfl⟩ := List.cons.inj hs
        exact .inr ⟨pre, suf, rfl, hpre⟩

/-- The plugin finds a comment if and only if a number sign is exposed. -/
theorem isCommented_iff (s : List Char) :
    isCommented s = true ↔ ∃ pre suf, Exposed s pre suf := by
  have hpieces : isCommented s = anyComment ⟨none, true⟩ (Text.pieces s) := by
    -- The terminator of a line has no number sign.
    have hchomp : ∀ l, hasComment none true (Text.chomp l) = hasComment none true l := by
      intro l
      obtain ⟨g, hg, hl⟩ := Text.exists_chomp l
      have hsign : '#' ∉ g := fun h => absurd (Text.allBlank_iff.mp hg _ h) (by decide)
      conv_rhs => rw [hl]
      exact (hasComment_append hsign none true _).symm
    unfold isCommented Text.lines
    rw [List.any_map]
    cases Text.pieces s <;> simp [anyComment, Function.comp_def, hchomp]
  rw [hpieces, anyComment_pieces]
  refine exists₂_congr fun pre suf => ?_
  rw [foldl_seek, Seek.mk.injEq, ← paired_iff]
  exact ⟨fun ⟨hs, hpaired, hblank⟩ => ⟨hs, hblank, hpaired⟩,
    fun ⟨hs, hblank, hpaired⟩ => ⟨hs, hpaired, hblank⟩⟩

/-! ## Comments -/

namespace Scan

/-- The place where the text of a scalar starts: at the quote, or at the end of the line that starts
a block, on which a comment may follow. -/
def contentStart (s : Scan) : ℕ :=
  if s.cursor.rest.head?.any isQuote then s.cursor.index
  else s.cursor.index + (s.cursor.rest.takeWhile (!isBreak ·)).length

/-- Reads all tokens that are left, as `run` does, and notes where scalars are that are not plain,
up to the place where the text is no YAML. -/
def traced : ℕ → Scan → List (ℕ × ℕ) × Option (List Token)
  | 0, _ => ([], none)
  | fuel + 1, s =>
    match (s.skipSpace (fuel + 1)).dropStale with
    | none => ([], none)
    | some s =>
      let s := s.closeTo (s.cursor.column + 1)
      match s.cursor.rest with
      | [] => ([], ((s.closeTo 0).dropKey).map fun s => s.tokens.reverse)
      | x :: rest =>
        match s.token (fuel + 1) x rest with
        | none => ([], none)
        | some next =>
          let (spans, tokens) := traced fuel next
          match next.tokens with
          | .scalar false _ :: _ => ((s.contentStart, next.cursor.index) :: spans, tokens)
          | _ => (spans, tokens)

/-- The tokens are those of a run. -/
theorem traced_snd (fuel : ℕ) (s : Scan) : (traced fuel s).2 = run fuel s := by
  -- Both take the same steps, and what is noted has no part in them.
  induction fuel generalizing s with
  | zero => rfl
  | succ fuel ih =>
    unfold traced run
    cases (s.skipSpace (fuel + 1)).dropStale with
    | none => rfl
    | some s =>
      show _ = (match (s.closeTo (s.cursor.column + 1)).cursor.rest with
        | [] => _
        | x :: rest => ((s.closeTo (s.cursor.column + 1)).token (fuel + 1) x rest).bind (run fuel))
      dsimp only
      generalize s.closeTo (s.cursor.column + 1) = s
      cases s.cursor.rest with
      | nil => cases (s.closeTo 0).dropKey <;> rfl
      | cons x rest =>
        dsimp only
        cases s.token (fuel + 1) x rest with
        | none => rfl
        | some next =>
          dsimp only
          split <;> exact ih next

end Scan

/-- The places of the quoted scalars and of the blocks of lines of a text, each with the place
behind it. -/
def scalarSpans (text : List Char) : List (ℕ × ℕ) :=
  (Scan.traced (text.length + 2) { cursor := .start text }).1

example : scalarSpans "a: | # x\n  # y\nb: 'c # d' # e".toList = [(8, 15), (18, 25)] := by
  decide +kernel

/-- A comment: a number sign at the start of a line or behind white space, outside of quoted scalars
and of blocks of lines. -/
structure IsComment (text pre suf : List Char) : Prop where
  text_eq : text = pre ++ '#' :: suf
  behind : endsBlank pre = true
  outside : ∀ span ∈ scalarSpans text, ¬(span.1 ≤ pre.length ∧ pre.length < span.2)

instance (text pre suf : List Char) : Decidable (IsComment text pre suf) :=
  decidable_of_iff
    (text = pre ++ '#' :: suf ∧ endsBlank pre = true ∧
      ∀ span ∈ scalarSpans text, ¬(span.1 ≤ pre.length ∧ pre.length < span.2))
    ⟨fun ⟨h, hb, ho⟩ => ⟨h, hb, ho⟩, fun h => ⟨h.text_eq, h.behind, h.outside⟩⟩

/-- What the plugin answers. -/
theorem format_eq (r : Request) :
    Plugin.yaml.format r =
      if Text.allBlank r.code.toList then .ok ""
      else if isCommented r.code.toList then .error .commentedYaml
      else (Value.parse? r.code.toList).elim (.error .invalidYaml) fun v =>
        v.print?.elim (.error .unwritableYaml) fun text => .ok (String.ofList text) := by
  unfold Plugin.yaml tidy isCommented
  dsimp only
  split_ifs
  · rfl
  · rfl
  · cases Value.parse? r.code.toList with
    | none => rfl
    | some v => cases hprint : v.print? <;> simp [hprint]

/-- A text with a number sign is not blank. -/
theorem allBlank_of_sign {text : List Char} (h : '#' ∈ text) : Text.allBlank text = false := by
  by_contra hblank
  rw [Bool.not_eq_false] at hblank
  exact absurd (Text.allBlank_iff.mp hblank _ h) (by decide)

/-- The plugin refuses a text for its comments if and only if a number sign is exposed. -/
theorem format_eq_commented_iff (r : Request) :
    Plugin.yaml.format r = .error .commentedYaml ↔ ∃ pre suf, Exposed r.code.toList pre suf := by
  rw [← isCommented_iff, format_eq]
  constructor
  · intro h
    split_ifs at h with hblank hcommented
    · exact hcommented
    · revert h
      cases Value.parse? r.code.toList with
      | none => exact nofun
      | some v => cases hprint : v.print? <;> simp [hprint]
  · intro h
    obtain ⟨pre, suf, hexposed⟩ := (isCommented_iff _).mp h
    have hsign : '#' ∈ r.code.toList := by simp [hexposed.text_eq]
    rw [allBlank_of_sign hsign, h]
    rfl

/-- A text in which no comment is found is written anew if it can be read and written. -/
theorem format_eq_ok {r : Request} {out : List Char} (hblank : Text.allBlank r.code.toList = false)
    (hcommented : isCommented r.code.toList = false)
    (hout : (Value.parse? r.code.toList).bind Value.print? = some out) :
    Plugin.yaml.format r = .ok (String.ofList out) := by
  obtain ⟨v, hv, hprint⟩ := Option.bind_eq_some_iff.mp hout
  rw [format_eq, hblank, hcommented, hv, Option.elim_some, hprint]
  rfl

/-- A text that is not blank fails if a number sign is exposed, or if it cannot be read or
written. -/
theorem format_error_iff {r : Request} (h : Text.allBlank r.code.toList = false) :
    (∃ f, Plugin.yaml.format r = .error f) ↔
      (∃ pre suf, Exposed r.code.toList pre suf) ∨
        ∀ v, Value.parse? r.code.toList = some v → v.print? = none := by
  rw [← isCommented_iff, format_eq, h]
  cases isCommented r.code.toList with
  | true => simp
  | false =>
    cases Value.parse? r.code.toList with
    | none => simp
    | some v => cases hprint : v.print? <;> simp [hprint]

/-- The quotes in front of a comment behind a key and a scalar are those of the scalar. -/
theorem paired_entry {p : List Char} (hline : '\n' ∉ p) :
    Paired (lastLine ("key: ".toList ++ p ++ [' '])) ↔ Paired p := by
  have hlast : lastLine ("key: ".toList ++ p ++ [' ']) = "key: ".toList ++ p ++ [' '] := by
    unfold lastLine
    rw [List.rtakeWhile_eq_self_iff]
    intro c hc
    rw [bne_iff_ne]
    rintro rfl
    simp [hline] at hc
  have hblank : openQuote none ("key: ".toList ++ p ++ [' ']) = openQuote none p := by
    have hkey : openQuote none ("key: ".toList ++ p) = openQuote none p := rfl
    have hstep : openQuote none ("key: ".toList ++ p ++ [' ']) =
        quoteStep (openQuote none ("key: ".toList ++ p)) ' ' := by
      unfold openQuote
      rw [List.foldl_append]
      rfl
    rw [hstep, hkey]
    cases hopen : openQuote none p with
    | none => rfl
    | some q =>
      have hne : ' ' ≠ q := by
        rintro rfl
        exact absurd (isQuote_of_openQuote hopen) (by decide)
      simp [quoteStep, hne]
  rw [hlast, paired_iff, paired_iff, hblank]

/-- Behind a key and a plain scalar a comment is found if and only if the quotes of the scalar come
in pairs. -/
theorem isCommented_entry_iff {p : List Char} (hsign : '#' ∉ p) (hline : '\n' ∉ p) :
    (∀ c, '\n' ∉ c → isCommented ("key: ".toList ++ p ++ " # ".toList ++ c) = true) ↔ Paired p := by
  have htext : ∀ c, "key: ".toList ++ p ++ " # ".toList ++ c =
      ("key: ".toList ++ p ++ [' ']) ++ '#' :: ' ' :: c := by
    intro c
    simp
  constructor
  · intro h
    -- An empty comment has no number sign that could be found in its place.
    obtain ⟨pre, suf, hexposed⟩ := (isCommented_iff _).mp (h [] List.not_mem_nil)
    have heq := hexposed.text_eq
    rw [htext, List.append_cons_inj_of_notMem (by simp [hsign]) (by simp)] at heq
    have hpaired := hexposed.paired
    rw [← heq.1] at hpaired
    exact (paired_entry hline).mp hpaired
  · intro h c _
    rw [isCommented_iff]
    exact ⟨_, _, htext c, endsBlank_concat _ ' ', (paired_entry hline).mpr h⟩

/-- The plugin refuses a text for its comments if and only if a number sign is exposed. So a comment
is found if the quotes in front of it on its line come in pairs, and if they do not, it is lost with
all others unless one of those is found or the text cannot be read or written. In an entry with a
plain scalar the quotes of the scalar decide. -/
theorem format_refuses_comments (r : Request) :
    (Plugin.yaml.format r = .error .commentedYaml ↔
      ∃ pre suf, Exposed r.code.toList pre suf) ∧
    (∀ pre suf, IsComment r.code.toList pre suf →
      (Paired (lastLine pre) → Plugin.yaml.format r = .error .commentedYaml) ∧
      ((∃ f, Plugin.yaml.format r = .error f) ↔
        (∃ pre suf, Exposed r.code.toList pre suf) ∨
          ∀ v, Value.parse? r.code.toList = some v → v.print? = none)) ∧
    ∀ p : List Char, '#' ∉ p → '\n' ∉ p →
      ((∀ c, '\n' ∉ c → isCommented ("key: ".toList ++ p ++ " # ".toList ++ c) = true) ↔
        Paired p) := by
  refine ⟨format_eq_commented_iff r, ?_, fun p => isCommented_entry_iff⟩
  intro pre suf h
  have hsign : '#' ∈ r.code.toList := by simp [h.text_eq]
  refine ⟨fun hpaired => ?_, format_error_iff (allBlank_of_sign hsign)⟩
  exact (format_eq_commented_iff r).mpr ⟨pre, suf, h.text_eq, h.behind, hpaired⟩

/-- A text with a comment, and an entry whose scalar has its quotes in pairs. -/
theorem format_refuses_comments_paired :
    IsComment "a: 1 # keep me\n".toList "a: 1 ".toList " keep me\n".toList ∧
      Plugin.yaml.format ⟨"a: 1 # keep me\n", "yaml", Settings.resolve {} "yaml"⟩ =
        .error .commentedYaml ∧
      '#' ∉ "x 'y'".toList ∧ '\n' ∉ "x 'y'".toList ∧
      isCommented "key: x 'y' # c".toList = true := by
  have hcomment : IsComment "a: 1 # keep me\n".toList "a: 1 ".toList " keep me\n".toList := by
    decide +kernel
  obtain ⟨-, hrefuses, hentry⟩ := format_refuses_comments
    ⟨"a: 1 # keep me\n", "yaml", Settings.resolve {} "yaml"⟩
  refine ⟨hcomment, (hrefuses _ _ hcomment).1 (by decide), by decide, by decide, ?_⟩
  exact (hentry "x 'y'".toList (by decide) (by decide)).mpr (by decide) ['c'] (by decide)

/-- An apostrophe in a plain scalar hides the comment behind it, and the comment is lost. -/
theorem format_loses_comment :
    IsComment "key: it's # c\n".toList "key: it's ".toList " c\n".toList ∧
      ¬Paired (lastLine "key: it's ".toList) ∧
      isCommented "key: it's # c\n".toList = false ∧
      Plugin.yaml.format ⟨"key: it's # c\n", "yaml", Settings.resolve {} "yaml"⟩ =
        .ok "key: it's\n" := by
  have hcommented : isCommented "key: it's # c\n".toList = false := by decide +kernel
  have hout : (Value.parse? "key: it's # c\n".toList).bind Value.print? =
      some "key: it's\n".toList := by decide +kernel
  exact ⟨by decide +kernel, by decide +kernel, hcommented,
    format_eq_ok (by decide +kernel) hcommented hout⟩

end CodeTidy.Yaml
