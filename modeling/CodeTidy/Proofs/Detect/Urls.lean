import CodeTidy.Detect.Page
import Mathlib.Data.List.Infix
import Mathlib.Data.List.TakeWhile
import Mathlib.Tactic.SplitIfs

/-!
# What a query or a fragment does to a verdict

The path of a URL is looked for before its query and its fragment are cut off: first the mark
behind the scheme, then the first slash behind that. So the path is read out of what follows the URL
in two cases: the mark stands only there, or the URL itself has no slash behind its scheme.
`Exposed` says where the path is looked for then, and `classify_append_iff` that the verdict on the
page changes exactly if that path tells another language than the URL, on a page whose URL is looked
at at all. A URL with a scheme and a path hides whatever follows it.
-/

namespace CodeTidy.Detect

/-- The mark behind the scheme of a URL. -/
def schemeMark : List Char := [':', '/', '/']

/-- The text goes on with a query or a fragment. -/
def StartsQuery (s : List Char) : Prop := ∃ c rest, s = c :: rest ∧ (c = '?' ∨ c = '#')

/-- There is neither a query nor a fragment in the text. -/
def Queryless (u : List Char) : Prop := '?' ∉ u ∧ '#' ∉ u

instance (u : List Char) : Decidable (Queryless u) := inferInstanceAs (Decidable (_ ∧ _))

/-! ## The scheme -/

/-- A text that does not start with the mark is searched from the second character on. -/
theorem go_cons {url u : List Char} {c : Char} (h : ¬schemeMark <+: c :: u) :
    afterScheme.go url (c :: u) = afterScheme.go url u := by
  refine afterScheme.go.eq_2 url c u ?_
  rintro rest rfl rfl
  exact h ⟨rest, rfl⟩

/-- A mark at the start of a text and what follows it stands in the text, unless the text is a part
of the mark and a slash follows. -/
theorem schemeMark_prefix_append {u s : List Char} (h : schemeMark <+: u ++ s) :
    schemeMark <+: u ∨ u.length < 3 ∧ (u ≠ [] → s.head? = some '/') := by
  obtain ⟨rest, heq⟩ := h
  match u, heq with
  | [], _ => exact .inr ⟨by decide, absurd rfl⟩
  | [_], heq =>
    obtain ⟨-, rfl⟩ := List.cons.inj heq
    exact .inr ⟨by simp, fun _ => rfl⟩
  | [_, _], heq =>
    obtain ⟨-, rfl⟩ := List.cons.inj (List.cons.inj heq).2
    exact .inr ⟨by simp, fun _ => rfl⟩
  | c :: d :: e :: u, heq =>
    obtain ⟨hc, hd, he, -⟩ : ':' = c ∧ '/' = d ∧ '/' = e ∧ rest = u ++ s := by
      simpa [schemeMark] using heq
    exact .inl ⟨u, by rw [← hc, ← hd, ← he]; rfl⟩

/-- What stands behind the mark in a text stands there whatever follows. -/
theorem go_append_of_mark {url url' u : List Char} (h : schemeMark <:+: u) (s : List Char) :
    afterScheme.go url (u ++ s) = afterScheme.go url' u ++ s := by
  induction u with
  | nil => simp [schemeMark] at h
  | cons c u ih =>
    by_cases hstart : schemeMark <+: c :: u
    · obtain ⟨rest, heq⟩ := hstart
      rw [← heq]
      rfl
    · -- The mark stands in the rest, which is too long for one that ends in what follows.
      have hrest : schemeMark <:+: u := (List.infix_cons_iff.mp h).resolve_left hstart
      have hlength : 3 ≤ u.length := hrest.length_le
      have hstart' : ¬schemeMark <+: c :: (u ++ s) := by
        intro hpre
        obtain ⟨hshort, -⟩ :=
          (schemeMark_prefix_append (u := c :: u) hpre).resolve_left hstart
        rw [List.length_cons] at hshort
        omega
      rw [go_cons hstart, List.cons_append, go_cons hstart', ih hrest]

/-- A text without the mark is searched to its end. What follows it does not complete a mark, unless
it starts with a slash. -/
theorem go_append_of_not_mark {url u : List Char} (h : ¬schemeMark <:+: u) {s : List Char}
    (hs : s.head? ≠ some '/') : afterScheme.go url (u ++ s) = afterScheme.go url s := by
  induction u with
  | nil => rfl
  | cons c u ih =>
    rw [List.infix_cons_iff, not_or] at h
    have hstart : ¬schemeMark <+: c :: (u ++ s) := by
      intro hpre
      obtain ⟨-, hslash⟩ := (schemeMark_prefix_append (u := c :: u) hpre).resolve_left h.1
      exact hs (hslash (List.cons_ne_nil c u))
    rw [List.cons_append, go_cons hstart, ih h.2]

/-- A text without the mark is its own rest. -/
theorem afterScheme_of_not_mark {u : List Char} (h : ¬schemeMark <:+: u) : afterScheme u = u := by
  have hend : afterScheme.go u (u ++ []) = afterScheme.go u [] :=
    go_append_of_not_mark h (by simp)
  rw [List.append_nil] at hend
  exact hend

variable {u s : List Char}

/-- A query or a fragment does not start with a slash. -/
theorem StartsQuery.head_ne (hs : StartsQuery s) : s.head? ≠ some '/' := by
  obtain ⟨c, rest, rfl, rfl | rfl⟩ := hs <;> simp

/-- What follows a URL with a scheme follows its rest. -/
theorem afterScheme_append_of_mark (hu : schemeMark <:+: u) (s : List Char) :
    afterScheme (u ++ s) = afterScheme u ++ s :=
  go_append_of_mark hu s

/-- What follows a URL without a scheme is searched for the mark. -/
theorem afterScheme_append_of_not_mark (hu : ¬schemeMark <:+: u) (hs : StartsQuery s) :
    afterScheme (u ++ s) = if schemeMark <:+: s then afterScheme s else u ++ s := by
  have hgo : afterScheme (u ++ s) = afterScheme.go (u ++ s) s :=
    go_append_of_not_mark hu hs.head_ne
  split_ifs with hmark
  · have hrest : afterScheme.go (u ++ s) (s ++ []) = afterScheme.go s s ++ [] :=
      go_append_of_mark hmark []
    rw [List.append_nil, List.append_nil] at hrest
    exact hgo.trans hrest
  · have hrest : afterScheme.go (u ++ s) (s ++ []) = afterScheme.go (u ++ s) [] :=
      go_append_of_not_mark hmark (by simp)
    rw [List.append_nil] at hrest
    exact hgo.trans hrest

/-! ## The path -/

/-- The path in what stands behind a scheme, from the first slash up to a query or a fragment. -/
def pathIn? (s : List Char) : Option String :=
  let path := Language.beforeQuery (s.dropWhile (· != '/'))
  if 1 < path.length then some (String.ofList path) else none

/-- The path of a URL is that of what stands behind its scheme. -/
theorem urlPath?_eq (url : String) : urlPath? url = pathIn? (afterScheme url.toList) := by
  unfold urlPath? pathIn?
  cases (afterScheme url.toList).dropWhile (· != '/') <;> rfl

/-- A query or a fragment ends the text that has none. -/
theorem beforeQuery_append (hu : Queryless u) (hs : StartsQuery s) :
    Language.beforeQuery (u ++ s) = Language.beforeQuery u := by
  have hall : ∀ c ∈ u, (c != '?' && c != '#') = true := by
    intro c hc
    rw [Bool.and_eq_true, bne_iff_ne, bne_iff_ne]
    exact ⟨fun heq => hu.1 (heq ▸ hc), fun heq => hu.2 (heq ▸ hc)⟩
  obtain ⟨c, rest, rfl, hc⟩ := hs
  have hstop : ¬(c != '?' && c != '#') = true := by
    obtain rfl | rfl := hc <;> decide
  unfold Language.beforeQuery
  rw [List.takeWhile_append_of_pos hall, List.takeWhile_eq_self_iff.mpr hall]
  have hnone : (c :: rest).takeWhile (fun c => c != '?' && c != '#') = [] :=
    List.takeWhile_cons_of_neg hstop
  rw [hnone, List.append_nil]

/-- The path of a text with a slash is not changed by a query or a fragment. -/
theorem pathIn?_append_of_mem (hu : Queryless u) (hs : StartsQuery s) (hslash : '/' ∈ u) :
    pathIn? (u ++ s) = pathIn? u := by
  have hdrop : u.dropWhile (· != '/') ≠ [] := by
    rw [ne_eq, List.dropWhile_eq_nil_iff]
    intro hall
    simpa using hall '/' hslash
  have hrest : Queryless (u.dropWhile (· != '/')) :=
    ⟨fun h => hu.1 ((List.dropWhile_suffix _).mem h),
      fun h => hu.2 ((List.dropWhile_suffix _).mem h)⟩
  have hpart : Language.beforeQuery ((u ++ s).dropWhile (· != '/')) =
      Language.beforeQuery (u.dropWhile (· != '/')) := by
    rw [List.dropWhile_append, if_neg (by simpa [List.isEmpty_iff] using hdrop),
      beforeQuery_append hrest hs]
  unfold pathIn?
  rw [hpart]

/-- The path behind a text without a slash is that of what follows. -/
theorem pathIn?_append_of_not_mem (hslash : '/' ∉ u) (s : List Char) :
    pathIn? (u ++ s) = pathIn? s := by
  have hall : ∀ c ∈ u, (c != '/') = true := by
    intro c hc
    rw [bne_iff_ne]
    rintro rfl
    exact hslash hc
  unfold pathIn?
  rw [List.dropWhile_append_of_pos hall]

/-- What stands behind the scheme of a text is part of it. -/
theorem queryless_afterScheme (hu : Queryless u) : Queryless (afterScheme u) := by
  have hsuffix : ∀ url l : List Char, afterScheme.go url l = url ∨ afterScheme.go url l <:+ l := by
    intro url l
    induction l with
    | nil => exact .inl rfl
    | cons c l ih =>
      by_cases hstart : schemeMark <+: c :: l
      · obtain ⟨rest, heq⟩ := hstart
        rw [← heq]
        exact .inr ⟨schemeMark, rfl⟩
      · rw [go_cons hstart]
        exact ih.imp_right fun h => h.trans (List.suffix_cons c l)
  rcases hsuffix u u with heq | hpart
  · have hself : afterScheme u = u := heq
    rwa [hself]
  · exact ⟨fun h => hu.1 (hpart.mem h), fun h => hu.2 (hpart.mem h)⟩

/-- The part of what follows the URL `u` that the path is looked for in: what stands behind a mark,
if the only one stands there, or else all of it, if `u` has no slash behind its scheme. -/
inductive Exposed (u s : List Char) : List Char → Prop
  | scheme (hu : ¬schemeMark <:+: u) (hs : schemeMark <:+: s) : Exposed u s (afterScheme s)
  | pathless (hscheme : schemeMark <:+: u ∨ ¬schemeMark <:+: s) (hslash : '/' ∉ afterScheme u) :
    Exposed u s s

/-- The path of a URL with a query or a fragment behind it is read there if some part of it is
exposed, and is that of the URL otherwise. -/
theorem pathIn?_append (hu : Queryless u) (hs : StartsQuery s) :
    (∀ part, Exposed u s part → pathIn? (afterScheme (u ++ s)) = pathIn? part) ∧
      ((¬∃ part, Exposed u s part) →
        pathIn? (afterScheme (u ++ s)) = pathIn? (afterScheme u)) := by
  -- Unless the only mark stands in what follows, that follows the rest of the URL.
  have happend : schemeMark <:+: u ∨ ¬schemeMark <:+: s →
      afterScheme (u ++ s) = afterScheme u ++ s := by
    intro hscheme
    by_cases hmark : schemeMark <:+: u
    · exact afterScheme_append_of_mark hmark s
    · rw [afterScheme_append_of_not_mark hmark hs, if_neg (hscheme.resolve_left hmark),
        afterScheme_of_not_mark hmark]
  constructor
  · intro part hpart
    cases hpart with
    | scheme hmark hmark' => rw [afterScheme_append_of_not_mark hmark hs, if_pos hmark']
    | pathless hscheme hslash => rw [happend hscheme, pathIn?_append_of_not_mem hslash]
  · intro hnone
    have hscheme : schemeMark <:+: u ∨ ¬schemeMark <:+: s := by
      by_contra hnot
      rw [not_or, not_not] at hnot
      exact hnone ⟨_, .scheme hnot.1 hnot.2⟩
    have hslash : '/' ∈ afterScheme u := by
      by_contra hnot
      exact hnone ⟨_, .pathless hscheme hnot⟩
    rw [happend hscheme, pathIn?_append_of_mem (queryless_afterScheme hu) hs hslash]

/-! ## The verdict -/

/-- The verdict on a page asks for its URL: there is text and not too much of it, its content type
tells nothing, and it is a bare text document. -/
structure Page.AsksUrl (page : Page) : Prop where
  text : Text.allBlank page.text = false
  size : Text.byteLength page.text ≤ maxPageBytes
  type : page.contentType.bind languageOfType = none
  raw : page.raw = true

/-- The language that the URL of a page tells. -/
def urlLanguage? (url : String) : Option String := (urlPath? url).bind Language.ofPath?

/-- A page that is decided in front of its URL is decided without it. -/
theorem classify_of_not_asks {page : Page} (h : ¬page.AsksUrl) (url : String) :
    classify { page with url := url } = classify page := by
  unfold classify
  dsimp only
  split
  next => rfl
  next htext =>
    split
    next => rfl
    next hsize =>
      split
      next => rfl
      next htype =>
        split
        next => rfl
        next hraw =>
          exact absurd ⟨by simpa using htext, Nat.le_of_not_lt hsize, htype, by simpa using hraw⟩ h

/-- Otherwise the language that the URL tells decides, and the text only if there is none. -/
theorem classify_of_asks {page : Page} (h : page.AsksUrl) :
    ∃ byText : Verdict, byText.reason ≠ .sourceUrl ∧ ∀ url,
      classify { page with url := url } =
        (urlLanguage? url).elim byText fun language => .code language .sourceUrl := by
  have htext : ¬Text.allBlank page.text = true := by simp [h.text]
  have hsize : ¬maxPageBytes < Text.byteLength page.text := Nat.not_lt.mpr h.size
  have hraw : ¬(!page.raw) = true := by simp [h.raw]
  -- The text decides on a page with an empty URL, which tells nothing.
  have hempty : (urlPath? "").bind Language.ofPath? = none := by decide +kernel
  refine ⟨classify { page with url := "" }, ?_, fun url => ?_⟩
  · simp only [classify, if_neg htext, if_neg hsize, h.type, if_neg hraw, hempty]
    split
    · split_ifs <;> exact Reason.noConfusion
    · exact Reason.noConfusion
  · unfold urlLanguage?
    simp only [classify, if_neg htext, if_neg hsize, h.type, if_neg hraw, hempty]
    cases (urlPath? url).bind Language.ofPath? <;> rfl

/-- So the verdicts for two URLs are the same exactly if the page does not ask or the URLs tell the
same. -/
theorem classify_eq_iff (page : Page) (url url' : String) :
    classify { page with url := url } = classify { page with url := url' } ↔
      (page.AsksUrl → urlLanguage? url = urlLanguage? url') := by
  by_cases hasks : page.AsksUrl
  · obtain ⟨byText, hreason, hclassify⟩ := classify_of_asks hasks
    rw [hclassify, hclassify]
    refine ⟨fun heq _ => ?_, fun heq => by rw [heq hasks]⟩
    cases hl : urlLanguage? url <;> cases hl' : urlLanguage? url' <;> rw [hl, hl'] at heq
    · exact absurd (congrArg Verdict.reason heq) hreason
    · exact absurd (congrArg Verdict.reason heq).symm hreason
    · exact congrArg Verdict.language heq
  · refine iff_of_true ?_ fun h => absurd h hasks
    exact (classify_of_not_asks hasks url).trans (classify_of_not_asks hasks url').symm

/-- A query or a fragment behind a URL changes the verdict on a page exactly if the page asks for
its URL and a part of the query or fragment is exposed whose path tells another language than the
URL. So it never does behind a URL that has a scheme and a slash behind it. -/
theorem classify_append_iff (page : Page) {u s : String} (hu : Queryless u.toList)
    (hs : StartsQuery s.toList) :
    (classify { page with url := u ++ s } = classify { page with url := u } ↔
      ¬(page.AsksUrl ∧ ∃ part, Exposed u.toList s.toList part ∧
        (pathIn? part).bind Language.ofPath? ≠ urlLanguage? u)) ∧
    (schemeMark <:+: u.toList → '/' ∈ afterScheme u.toList →
      classify { page with url := u ++ s } = classify { page with url := u }) := by
  have hpath : urlPath? (u ++ s) = pathIn? (afterScheme (u.toList ++ s.toList)) := by
    rw [urlPath?_eq, String.toList_append]
  obtain ⟨hexposed, hhidden⟩ := pathIn?_append hu hs
  have hiff : urlLanguage? (u ++ s) = urlLanguage? u ↔
      ¬∃ part, Exposed u.toList s.toList part ∧
        (pathIn? part).bind Language.ofPath? ≠ urlLanguage? u := by
    constructor
    · rintro heq ⟨part, hpart, hne⟩
      refine hne ?_
      rw [← heq, urlLanguage?, hpath, hexposed part hpart]
    · intro hnone
      by_cases hsome : ∃ part, Exposed u.toList s.toList part
      · obtain ⟨part, hpart⟩ := hsome
        have heq : (pathIn? part).bind Language.ofPath? = urlLanguage? u := by
          by_contra hne
          exact hnone ⟨part, hpart, hne⟩
        rw [← heq, urlLanguage?, hpath, hexposed part hpart]
      · rw [urlLanguage?, hpath, hhidden hsome, ← urlPath?_eq, urlLanguage?]
  have hverdict : classify { page with url := u ++ s } = classify { page with url := u } ↔
      ¬(page.AsksUrl ∧ ∃ part, Exposed u.toList s.toList part ∧
        (pathIn? part).bind Language.ofPath? ≠ urlLanguage? u) := by
    rw [classify_eq_iff, hiff, not_and]
  refine ⟨hverdict, fun hmark hslash => hverdict.mpr ?_⟩
  rintro ⟨-, part, hpart, -⟩
  cases hpart with
  | scheme hnot => exact hnot hmark
  | pathless _ hnot => exact hnot hslash

/-- A query with slashes, colons and dots behind a URL with a scheme and a path. -/
theorem classify_append_iff_token :
    let page : Page := ⟨"", some "text/plain", "fn main() {}".toList, true⟩
    Queryless "https://x.test/src/lib.rs".toList ∧ StartsQuery "?u=http://y/a.py#/b.go".toList ∧
      schemeMark <:+: "https://x.test/src/lib.rs".toList ∧
      '/' ∈ afterScheme "https://x.test/src/lib.rs".toList ∧
      classify { page with url := "https://x.test/src/lib.rs" ++ "?u=http://y/a.py#/b.go" } =
        classify { page with url := "https://x.test/src/lib.rs" } := by
  intro page
  have hu : Queryless "https://x.test/src/lib.rs".toList := by decide +kernel
  have hs : StartsQuery "?u=http://y/a.py#/b.go".toList :=
    ⟨'?', "u=http://y/a.py#/b.go".toList, by decide +kernel, .inl rfl⟩
  have hmark : schemeMark <:+: "https://x.test/src/lib.rs".toList := by decide +kernel
  have hslash : '/' ∈ afterScheme "https://x.test/src/lib.rs".toList := by decide +kernel
  exact ⟨hu, hs, hmark, hslash, (classify_append_iff page hu hs).2 hmark hslash⟩

/-- A URL without a path is told a language by its query: here that of a file named in it. -/
theorem classify_reads_query :
    let page : Page := ⟨"", none, "hello".toList, true⟩
    Queryless "https://x.test".toList ∧ StartsQuery "?next=/a.py".toList ∧
      classify { page with url := "https://x.test" ++ "?next=/a.py" } =
        .code "python" .sourceUrl ∧
      classify { page with url := "https://x.test" } ≠ .code "python" .sourceUrl := by
  intro page
  have hasks : page.AsksUrl := ⟨by decide +kernel, by decide +kernel, rfl, rfl⟩
  obtain ⟨byText, hreason, hclassify⟩ := classify_of_asks hasks
  have hread : urlLanguage? ("https://x.test" ++ "?next=/a.py") = some "python" := by
    decide +kernel
  have hnone : urlLanguage? "https://x.test" = none := by decide +kernel
  refine ⟨by decide +kernel, ⟨'?', "next=/a.py".toList, by decide +kernel, .inl rfl⟩, ?_, ?_⟩
  · rw [hclassify, hread, Option.elim_some]
  · rw [hclassify, hnone, Option.elim_none]
    rintro rfl
    exact hreason rfl

end CodeTidy.Detect
