import CodeTidy.Proofs.Markup.Tokens
import CodeTidy.Proofs.Text.Respacing

/-!
# Where markup is cut

`Cuts` relates tokens to the text that is cut into them, with one rule for each kind of token. A tag
ends with the first closing bracket outside of quotes, a comment with the first end of a comment,
and the content of a raw element in front of the first thing that looks like its end tag. What does
not end goes to the end of the text. `tokenize_eq_iff` says that the rules leave no choice and that
they always apply.
-/

namespace CodeTidy.Markup

/-! ## Searching -/

/-- One text stands in front of `y`, and nowhere earlier in `x ++ y`. -/
structure First (sub x y : List Char) : Prop where
  here : sub <+: y
  earliest : ∀ x₁ x₂, x = x₁ ++ x₂ → x₂ ≠ [] → ¬sub <+: x₂ ++ y

variable {sub x y s : List Char}

/-- The place found is the first one. -/
theorem find?_eq_some_iff {n m : ℕ} :
    find? sub n s = some m ↔ ∃ x y, s = x ++ y ∧ m = n + x.length ∧ First sub x y := by
  induction s generalizing n with
  | nil =>
    unfold find?
    constructor
    · intro h
      obtain ⟨hsub, hn⟩ := Option.ite_none_right_eq_some.mp h
      obtain rfl := Option.some.inj hn
      rw [List.isEmpty_iff.mp hsub]
      refine ⟨[], [], rfl, rfl, List.prefix_rfl, ?_⟩
      intro x₁ x₂ hx hne
      exact absurd (List.append_eq_nil_iff.mp hx.symm).2 hne
    · rintro ⟨x, y, hxy, rfl, hfirst⟩
      obtain ⟨rfl, rfl⟩ := List.append_eq_nil_iff.mp hxy.symm
      rw [if_pos (List.isEmpty_iff.mpr (List.prefix_nil.mp hfirst.here))]
      rfl
  | cons c s ih =>
    unfold find?
    split_ifs with hhere
    · have hstarts := List.isPrefixOf_iff_prefix.mp hhere
      constructor
      · intro h
        obtain rfl := Option.some.inj h
        refine ⟨[], c :: s, rfl, rfl, hstarts, ?_⟩
        intro x₁ x₂ hx hne
        exact absurd (List.append_eq_nil_iff.mp hx.symm).2 hne
      · rintro ⟨x, y, hxy, rfl, hfirst⟩
        cases x with
        | nil => rfl
        | cons d x =>
          rw [hxy] at hstarts
          exact absurd hstarts (hfirst.earliest [] (d :: x) rfl (List.cons_ne_nil _ _))
    · have hnot : ¬sub <+: c :: s := fun h => hhere (List.isPrefixOf_iff_prefix.mpr h)
      rw [ih]
      constructor
      · rintro ⟨x, y, rfl, rfl, hfirst⟩
        refine ⟨c :: x, y, rfl, by simp only [List.length_cons]; omega, hfirst.here, ?_⟩
        intro x₁ x₂ hx hne
        cases x₁ with
        | nil =>
          obtain rfl : c :: x = x₂ := hx
          exact hnot
        | cons d x₁ => exact hfirst.earliest x₁ x₂ (List.cons.inj hx).2 hne
      · rintro ⟨x, y, hxy, rfl, hfirst⟩
        cases x with
        | nil =>
          obtain rfl : c :: s = y := hxy
          exact absurd hfirst.here hnot
        | cons d x =>
          obtain ⟨rfl, rfl⟩ := List.cons.inj hxy
          refine ⟨x, y, rfl, by simp only [List.length_cons]; omega, hfirst.here, ?_⟩
          intro x₁ x₂ hx hne
          exact hfirst.earliest (c :: x₁) x₂ (by rw [hx]; rfl) hne

/-- Nothing is found exactly if it stands nowhere. -/
theorem find?_eq_none_iff {n : ℕ} : find? sub n s = none ↔ ¬sub <:+: s := by
  induction s generalizing n with
  | nil => simp [find?]
  | cons c s ih =>
    unfold find?
    rw [List.infix_cons_iff, ← List.isPrefixOf_iff_prefix]
    split_ifs with hhere
    · simp [hhere]
    · simp [hhere, ih]

/-- What is in front of the first place does not have it. -/
theorem First.not_isInfix (h : First sub x y) (hne : sub ≠ []) : ¬sub <:+: x := by
  rintro ⟨u, v, rfl⟩
  refine h.earliest u (sub ++ v) (List.append_assoc _ _ _) ?_ ?_
  · exact fun hnil => hne (List.append_eq_nil_iff.mp hnil).1
  · rw [List.append_assoc]
    exact List.prefix_append _ _

/-- What stands first stays first when the text goes on. -/
theorem first_append_iff (hy : sub <+: y) (rest : List Char) :
    First sub x (y ++ rest) ↔ First sub x y := by
  -- The text is long enough for all places in front of this one.
  have hplace : ∀ x₂ : List Char, sub <+: x₂ ++ (y ++ rest) ↔ sub <+: x₂ ++ y := by
    intro x₂
    rw [← List.append_assoc]
    refine ⟨fun h => ?_, fun h => h.trans (List.prefix_append _ _)⟩
    have hlength := hy.length_le
    exact List.prefix_of_prefix_length_le h (List.prefix_append _ _)
      (by rw [List.length_append]; omega)
  constructor
  · rintro ⟨-, hearliest⟩
    exact ⟨hy, fun x₁ x₂ hx hne h => hearliest x₁ x₂ hx hne ((hplace x₂).mpr h)⟩
  · rintro ⟨-, hearliest⟩
    exact ⟨hy.trans (List.prefix_append _ _),
      fun x₁ x₂ hx hne h => hearliest x₁ x₂ hx hne ((hplace x₂).mp h)⟩

/-! ## Tags -/

/-- A tag ends at the same place whatever follows, and it needs nothing of what follows. -/
theorem tagEnd?_eq_some_iff {quote : Option Char} {n m : ℕ} :
    tagEnd? quote n s = some m ↔
      ∃ x y, s = x ++ y ∧ m = n + x.length ∧ tagEnd? quote n x = some (n + x.length) := by
  induction s generalizing quote n with
  | nil =>
    refine ⟨fun h => absurd h nofun, ?_⟩
    rintro ⟨x, y, hxy, rfl, h⟩
    obtain ⟨rfl, rfl⟩ := List.append_eq_nil_iff.mp hxy.symm
    exact absurd h nofun
  | cons c s ih =>
    -- A character that does not end the tag goes in front of the part that does.
    have hgo : ∀ quote', tagEnd? quote' (n + 1) s = some m ↔
        ∃ x y, c :: s = (c :: x) ++ y ∧ m = n + (c :: x).length ∧
          tagEnd? quote' (n + 1) x = some (n + (c :: x).length) := by
      intro quote'
      rw [ih]
      have hlength : ∀ x : List Char, n + (c :: x).length = n + 1 + x.length := by
        intro x
        simp only [List.length_cons]
        omega
      simp only [hlength, List.cons_append, List.cons.injEq, true_and]
    have hcons : ∀ {P : List Char → Prop}, (∀ h : P [], False) →
        ((∃ x y, c :: s = x ++ y ∧ m = n + x.length ∧ P x) ↔
          ∃ x y, c :: s = (c :: x) ++ y ∧ m = n + (c :: x).length ∧ P (c :: x)) := by
      intro P hnil
      constructor
      · rintro ⟨_ | ⟨d, x⟩, y, hxy, hm, hP⟩
        · exact (hnil hP).elim
        · obtain rfl : c = d := (List.cons.inj hxy).1
          exact ⟨x, y, hxy, hm, hP⟩
      · rintro ⟨x, y, hxy, hm, hP⟩
        exact ⟨c :: x, y, hxy, hm, hP⟩
    rw [hcons (P := fun x => tagEnd? quote n x = some (n + x.length)) (fun h => absurd h nofun)]
    unfold tagEnd?
    cases quote with
    | some q => exact hgo _
    | none =>
      dsimp only
      split_ifs with hquote hend
      · exact hgo _
      · constructor
        · intro h
          obtain rfl := Option.some.inj h
          exact ⟨[], s, rfl, rfl, rfl⟩
        · rintro ⟨x, y, -, rfl, h⟩
          exact h
      · exact hgo _

/-- A text from an opening bracket to the bracket that closes it. -/
def IsTag (raw : List Char) : Prop := ∃ s, raw = '<' :: s ∧ tagEnd? none 1 s = some raw.length

/-- A tag is taken off the start of a text. -/
theorem tagEnd?_of_isTag {raw : List Char} (h : IsTag ('<' :: raw)) (rest : List Char) :
    tagEnd? none 1 (raw ++ rest) = some ('<' :: raw).length := by
  obtain ⟨s, hs, hend⟩ := h
  obtain rfl := (List.cons.inj hs).2
  have hlength : ('<' :: raw).length = 1 + raw.length := by
    rw [List.length_cons, Nat.add_comm]
  rw [hlength] at hend ⊢
  exact tagEnd?_eq_some_iff.mpr ⟨raw, rest, rfl, rfl, hend⟩

/-- What is taken is a tag. -/
theorem exists_isTag {m : ℕ} (h : tagEnd? none 1 s = some m) :
    ∃ raw rest, s = raw ++ rest ∧ m = ('<' :: raw).length ∧ IsTag ('<' :: raw) := by
  obtain ⟨raw, rest, rfl, rfl, hend⟩ := tagEnd?_eq_some_iff.mp h
  have hlength : 1 + raw.length = ('<' :: raw).length := by
    rw [List.length_cons, Nat.add_comm]
  rw [hlength] at hend ⊢
  exact ⟨raw, rest, rfl, rfl, raw, rfl, hend⟩

/-- What ends a tag is its last character. -/
theorem getLast?_of_tagEnd? {quote : Option Char} {n : ℕ}
    (h : tagEnd? quote n s = some (n + s.length)) : s.getLast? = some '>' := by
  induction s generalizing quote n with
  | nil => exact absurd h.symm (Option.some_ne_none _)
  | cons c s ih =>
    -- What is left of the tag ends where the tag does.
    have hrest : ∀ quote', tagEnd? quote' (n + 1) s = some (n + (c :: s).length) →
        (c :: s).getLast? = some '>' := by
      intro quote' h
      have hs : s ≠ [] := by
        rintro rfl
        exact absurd h.symm (Option.some_ne_none _)
      rw [List.getLast?_cons_of_ne_nil hs]
      refine ih (h.trans ?_)
      rw [List.length_cons, Nat.add_right_comm, Nat.add_assoc]
    unfold tagEnd? at h
    cases quote with
    | some q => exact hrest _ h
    | none =>
      dsimp only at h
      split_ifs at h with hquote hend
      · exact hrest _ h
      · have hlength := Option.some.inj h
        rw [List.length_cons] at hlength
        obtain rfl : s = [] := List.length_eq_zero_iff.mp (by omega)
        rw [beq_iff_eq.mp hend]
        rfl
      · exact hrest _ h

/-- A tag ends with its closing bracket. -/
theorem IsTag.getLast? {raw : List Char} (h : IsTag raw) : raw.getLast? = some '>' := by
  obtain ⟨s, rfl, hend⟩ := h
  have hs : s ≠ [] := by
    rintro rfl
    exact absurd hend.symm (Option.some_ne_none _)
  rw [List.getLast?_cons_of_ne_nil hs]
  refine getLast?_of_tagEnd? (hend.trans ?_)
  rw [List.length_cons, Nat.add_comm]

/-- There is no white space around a tag. -/
theorem IsTag.trimmed {raw : List Char} (h : IsTag raw) : Text.Trimmed raw := by
  have hlast := h.getLast?
  obtain ⟨tail, rfl, -⟩ := h
  refine ⟨?_, ?_⟩
  · intro c hc
    obtain rfl := Option.some.inj hc
    rfl
  · intro c hc
    rw [hlast] at hc
    obtain rfl := Option.some.inj hc
    rfl

/-- An opening bracket alone is no tag. -/
theorem not_isTag_bracket : ¬IsTag ['<'] := by
  rintro ⟨tail, htail, hend⟩
  obtain rfl := (List.cons.inj htail).2
  exact absurd hend nofun

/-! ## Tokens -/

/-- A comment with its end. -/
def IsComment (raw : List Char) : Prop :=
  "<!--".toList <+: raw ∧ ∃ x, raw = x ++ "-->".toList ∧ First "-->".toList x "-->".toList

/-- What starts like a declaration or an instruction, and not like a comment. -/
def StartsDeclaration (raw : List Char) : Prop :=
  ¬"<!--".toList <+: raw ∧ ("<!".toList <+: raw ∨ "<?".toList <+: raw)

/-- What starts like the start tag of an element, behind the opening bracket. -/
def StartsElement (raw : List Char) : Prop := ∃ c tail, raw = c :: tail ∧ c ∉ ['!', '?', '/']

/-- A start tag, without its opening bracket, that needs no end tag. -/
def selfCloses (html : Bool) (raw : List Char) : Bool :=
  "/>".toList.isSuffixOf ('<' :: raw) ||
    (html && voidElements.contains (String.ofList (tagName html raw)))

/-- A start tag, without its opening bracket, of an element whose content is one piece. -/
def HoldsRaw (html : Bool) (raw : List Char) : Prop :=
  html = true ∧ selfCloses html raw = false ∧ isRawElement (tagName html raw) = true

/-- What an end tag of an element starts with, in lower case. -/
def endMark (name : List Char) : List Char := '<' :: '/' :: name

/-- Tokens and the text that is cut into them. -/
inductive Cuts (html : Bool) : List Token → List Char → Prop
  | nil : Cuts html [] []
  /-- A text goes to the next opening bracket. -/
  | text {t s : List Char} {ts : List Token} (hne : t ≠ []) (hplain : '<' ∉ t)
    (hs : ∀ c ∈ s.head?, c = '<') (h : Cuts html ts s) : Cuts html (.text t :: ts) (t ++ s)
  /-- What looks like a tag but is not closed is a text. -/
  | openText {t : List Char} (hcomment : ¬"<!--".toList <+: '<' :: t)
    (hopen : tagEnd? none 1 t = none) : Cuts html [.text ('<' :: t)] ('<' :: t)
  | comment {raw s : List Char} {ts : List Token} (hraw : IsComment raw) (h : Cuts html ts s) :
    Cuts html (.other raw :: ts) (raw ++ s)
  /-- A comment that is not closed goes to the end. -/
  | openComment {raw : List Char} (hraw : "<!--".toList <+: raw)
    (hopen : ¬"-->".toList <:+: raw) : Cuts html [.other raw] raw
  | declaration {raw s : List Char} {ts : List Token} (hraw : IsTag raw)
    (hstart : StartsDeclaration raw) (h : Cuts html ts s) : Cuts html (.other raw :: ts) (raw ++ s)
  | closeTag {raw s : List Char} {ts : List Token} (hraw : IsTag ('<' :: '/' :: raw))
    (h : Cuts html ts s) :
    Cuts html (.closeTag (tagName html raw) ('<' :: '/' :: raw) :: ts) ('<' :: '/' :: raw ++ s)
  /-- The start tag of a raw element is like any other if nothing looks like an end tag of it. -/
  | openTag {raw s : List Char} {ts : List Token} (hraw : IsTag ('<' :: raw))
    (hstart : StartsElement raw)
    (hopen : HoldsRaw html raw → ¬endMark (tagName html raw) <:+: s.map Text.lowerAscii)
    (h : Cuts html ts s) :
    Cuts html (.openTag (tagName html raw) ('<' :: raw) (selfCloses html raw) :: ts)
      ('<' :: raw ++ s)
  | rawElement {raw content s : List Char} {ts : List Token} (hraw : IsTag ('<' :: raw))
    (hstart : StartsElement raw) (hholds : HoldsRaw html raw)
    (hend : First (endMark (tagName html raw)) (content.map Text.lowerAscii)
      (s.map Text.lowerAscii)) (h : Cuts html ts s) :
    Cuts html (.openTag (tagName html raw) ('<' :: raw) false :: .other content :: ts)
      ('<' :: raw ++ (content ++ s))

/-- An end tag of an element starts with the mark. -/
theorem endMark_isPrefix (raw : List Char) :
    endMark (tagName true raw) <+: ('<' :: '/' :: raw).map Text.lowerAscii := by
  unfold endMark tagName
  rw [if_pos rfl, List.map_cons, List.map_cons]
  have hname := (List.takeWhile_prefix (l := raw)
    fun c => !Text.isBlank c && c != '/' && c != '>').map Text.lowerAscii
  exact List.cons_prefix_cons.mpr ⟨rfl, List.cons_prefix_cons.mpr ⟨rfl, hname⟩⟩

/-- What starts with the mark in lower case starts with its bracket and its slash. -/
theorem exists_of_endMark {name : List Char} (h : endMark name <+: s.map Text.lowerAscii) :
    ∃ tail, s = '<' :: '/' :: tail := by
  unfold endMark at h
  have hlower : ∀ {c d : Char}, d = Text.lowerAscii c → Text.isAsciiLetter d = false → c = d := by
    rintro c d rfl hd
    exact (Text.lowerAscii_of_not_letter hd).symm
  match s, h with
  | [], h => exact absurd (List.prefix_nil.mp h) nofun
  | [c], h => exact absurd (List.prefix_nil.mp (List.cons_prefix_cons.mp h).2) nofun
  | c :: d :: tail, h =>
    obtain ⟨hc, h⟩ := List.cons_prefix_cons.mp h
    obtain ⟨hd, -⟩ := List.cons_prefix_cons.mp h
    obtain rfl := hlower hc (by decide)
    obtain rfl := hlower hd (by decide)
    exact ⟨tail, rfl⟩

/-- The mark has a bracket at its start only, so it does not reach over another one. -/
theorem endMark_isPrefix_of_append {name x t : List Char} (hname : '<' ∉ name) (hx : x ≠ [])
    (h : endMark name <+: x ++ '<' :: t) : endMark name <+: x := by
  have hplain : '<' ∉ '/' :: name := by
    rw [List.mem_cons, not_or]
    exact ⟨by decide, hname⟩
  obtain ⟨c, x, rfl⟩ := List.exists_cons_of_ne_nil hx
  obtain ⟨rfl, hrest⟩ := List.cons_prefix_cons.mp h
  exact List.cons_prefix_cons.mpr ⟨rfl, Text.isPrefix_of_append_cons hplain hrest⟩

/-- The name of a raw element has neither brackets nor white space. -/
theorem isRawElement_plain {name : List Char} (h : isRawElement name = true) :
    Text.Unbroken name ∧ '<' ∉ name ∧ '>' ∉ name := by
  unfold isRawElement rawElements at h
  rw [List.contains_iff_mem] at h
  simp only [List.mem_cons, List.not_mem_nil, or_false] at h
  have hname : name = "script".toList ∨ name = "style".toList ∨ name = "pre".toList ∨
      name = "textarea".toList := by
    refine h.imp ?_ (Or.imp ?_ (Or.imp ?_ ?_)) <;>
    · intro h
      rw [← h, String.toList_ofList]
  rw [Text.unbroken_iff]
  rcases hname with rfl | rfl | rfl | rfl <;> decide

/-- A text up to an opening bracket, or to the end. -/
theorem takeWhile_plain {t : List Char} (hplain : '<' ∉ t) {s : List Char}
    (hs : ∀ c ∈ s.head?, c = '<') : (t ++ s).takeWhile (· != '<') = t := by
  rw [List.takeWhile_append_of_pos fun c hc => by
    rw [bne_iff_ne]
    rintro rfl
    exact hplain hc]
  cases s with
  | nil => simp
  | cons c s =>
    obtain rfl := hs c rfl
    simp

/-- A tag does not look like a comment, whatever follows, if it does not by itself. -/
theorem IsTag.not_comment {raw : List Char} (h : IsTag raw) (hcomment : ¬"<!--".toList <+: raw)
    (s : List Char) : ¬"<!--".toList <+: raw ++ s := by
  obtain ⟨init, hinit⟩ := List.getLast?_eq_some_iff.mp h.getLast?
  rw [hinit] at hcomment ⊢
  intro hstarts
  rw [List.append_assoc, List.singleton_append] at hstarts
  have hfront := Text.isPrefix_of_append_cons (c := '>') (by decide) hstarts
  exact hcomment (hfront.trans (List.prefix_append _ _))

/-- An opening bracket opens a comment or a tag. -/
theorem leading_bracket (html : Bool) (rest : List Char) :
    leading html ('<' :: rest) =
      if "<!--".toList.isPrefixOf ('<' :: rest) then
        match find? "-->".toList 0 ('<' :: rest) with
        | some n => [.other (('<' :: rest).take (n + 3))]
        | none => [.other ('<' :: rest)]
      else
        match tagEnd? none 1 rest with
        | some n => tagTokens html (('<' :: rest).take n) (('<' :: rest).drop n)
        | none => [.text ('<' :: rest)] := rfl

/-- What is no comment is a tag, if it is closed. -/
theorem leading_tag (html : Bool) {raw : List Char} (hraw : IsTag raw)
    (hcomment : ¬"<!--".toList <+: raw) (s : List Char) :
    leading html (raw ++ s) = tagTokens html raw s := by
  have hnot : "<!--".toList.isPrefixOf (raw ++ s) = false := by
    rw [Bool.eq_false_iff]
    exact fun h => hraw.not_comment hcomment s (List.isPrefixOf_iff_prefix.mp h)
  obtain ⟨raw, rfl, -⟩ := id hraw
  rw [List.cons_append] at hnot ⊢
  rw [leading_bracket, hnot, if_neg Bool.false_ne_true, tagEnd?_of_isTag hraw]
  dsimp only
  rw [← List.cons_append, List.take_left, List.drop_left]

/-- A text is taken up to the next opening bracket. -/
theorem leading_text (html : Bool) {t : List Char} (hne : t ≠ []) (hplain : '<' ∉ t)
    (hs : ∀ c ∈ s.head?, c = '<') : leading html (t ++ s) = [.text t] := by
  obtain ⟨c, t, rfl⟩ := List.exists_cons_of_ne_nil hne
  have hc : c ≠ '<' := by
    rintro rfl
    exact hplain List.mem_cons_self
  have htake := takeWhile_plain hplain hs
  unfold leading
  split
  · rename_i rest heq
    exact absurd (List.cons.inj heq).1 hc
  · rw [htake]

/-- A comment starts with an opening bracket. -/
theorem bracket_of_comment {raw : List Char} (h : "<!--".toList <+: raw) :
    ∃ tail, raw = '<' :: tail := by
  obtain ⟨tail, rfl⟩ := h
  exact ⟨"!--".toList ++ tail, rfl⟩

/-- A comment is taken with its end. -/
theorem leading_comment (html : Bool) {raw : List Char} (hraw : IsComment raw) (s : List Char) :
    leading html (raw ++ s) = [.other raw] := by
  obtain ⟨hstarts, x, rfl, hfirst⟩ := hraw
  have hopens : "<!--".toList.isPrefixOf (x ++ "-->".toList ++ s) = true :=
    List.isPrefixOf_iff_prefix.mpr (hstarts.trans (List.prefix_append _ _))
  have hfind : find? "-->".toList 0 (x ++ "-->".toList ++ s) = some x.length := by
    refine find?_eq_some_iff.mpr ⟨x, "-->".toList ++ s, List.append_assoc _ _ _, ?_,
      (first_append_iff List.prefix_rfl s).mpr hfirst⟩
    rw [Nat.zero_add]
  have htake : (x ++ "-->".toList ++ s).take (x.length + 3) = x ++ "-->".toList :=
    List.take_left' (by rw [List.length_append]; rfl)
  obtain ⟨rest, hrest⟩ := bracket_of_comment (hstarts.trans (List.prefix_append _ s))
  rw [hrest] at hopens hfind htake ⊢
  rw [leading_bracket, if_pos hopens, hfind]
  dsimp only
  rw [htake]

/-- The first character of a tag behind its opening bracket tells what kind of tag it is. -/
theorem isPrefixOf_tag (a c : Char) (tail : List Char) :
    ['<', a].isPrefixOf ('<' :: c :: tail) = (a == c) := by
  simp [List.isPrefixOf]

/-- An element starts like nothing else. -/
theorem StartsElement.tagTokens_eq (html : Bool) {raw : List Char} (h : StartsElement raw)
    (s : List Char) :
    tagTokens html ('<' :: raw) s =
      if html && !selfCloses html raw && isRawElement (tagName html raw) then
        match find? (endMark (tagName html raw)) 0 (s.map Text.lowerAscii) with
        | some n => [.openTag (tagName html raw) ('<' :: raw) false, .other (s.take n)]
        | none => [.openTag (tagName html raw) ('<' :: raw) false]
      else [.openTag (tagName html raw) ('<' :: raw) (selfCloses html raw)] := by
  obtain ⟨c, tail, rfl, hc⟩ := h
  simp only [List.mem_cons, List.not_mem_nil, or_false, not_or] at hc
  have hkind : ∀ a, a = '!' ∨ a = '?' ∨ a = '/' →
      ['<', a].isPrefixOf ('<' :: c :: tail) = false := by
    intro a ha
    rw [isPrefixOf_tag, beq_eq_false_iff_ne]
    rintro rfl
    exact ha.elim hc.1 fun ha => ha.elim hc.2.1 hc.2.2
  unfold tagTokens
  rw [show "<!".toList = ['<', '!'] from rfl, show "<?".toList = ['<', '?'] from rfl,
    show "</".toList = ['<', '/'] from rfl, hkind _ (.inl rfl), hkind _ (.inr (.inl rfl)),
    hkind _ (.inr (.inr rfl)), if_neg (by decide), if_neg (by decide)]
  rfl

/-- And so it starts no comment. -/
theorem StartsElement.not_comment {raw : List Char} (h : StartsElement raw) :
    ¬"<!--".toList <+: '<' :: raw := by
  obtain ⟨c, tail, rfl, hc⟩ := h
  intro hstarts
  obtain ⟨rfl, -⟩ := List.cons_prefix_cons.mp (List.cons_prefix_cons.mp hstarts).2
  exact hc (by decide)

/-! ## All tokens -/

/-- One cut is made, and there is fuel for what is left. -/
theorem tokenizeFrom_cut {html : Bool} {heads : List Token} {rest : List Char} (hs : s ≠ [])
    (hlead : leading html s = heads) (hsplit : s = heads.flatMap Token.raw ++ rest) {fuel : ℕ}
    (hfuel : s.length ≤ fuel) (done : List Token) :
    ∃ fuel', rest.length ≤ fuel' ∧ tokenizeFrom html fuel done s =
      tokenizeFrom html fuel' (heads.reverse ++ done) rest := by
  obtain ⟨c, s, rfl⟩ := List.exists_cons_of_ne_nil hs
  obtain ⟨fuel, rfl⟩ := Nat.exists_eq_add_of_lt (Nat.lt_of_lt_of_le (Nat.succ_pos s.length) hfuel)
  obtain ⟨-, hpos⟩ := leading_prefix html c s
  rw [hlead] at hpos
  have hlength := congrArg List.length hsplit
  rw [List.length_append] at hlength
  have hpos := List.length_pos_of_ne_nil hpos
  refine ⟨fuel, by omega, ?_⟩
  rw [Nat.zero_add]
  conv_lhs => unfold tokenizeFrom
  dsimp only
  rw [hlead, width_eq]
  conv_lhs => rw [hsplit, List.drop_left]

/-- The rules say where a text is cut. -/
theorem Cuts.tokenizeFrom_eq {html : Bool} {ts : List Token} (h : Cuts html ts s) {fuel : ℕ}
    (hfuel : s.length ≤ fuel) (done : List Token) :
    tokenizeFrom html fuel done s = done.reverse ++ ts := by
  -- One cut is made at a time, and what is left is cut by the rules.
  have hcut : ∀ (heads : List Token) {ts : List Token} {s rest : List Char}, s ≠ [] →
      leading html s = heads → s = heads.flatMap Token.raw ++ rest →
      (∀ {fuel : ℕ}, rest.length ≤ fuel → ∀ done,
        tokenizeFrom html fuel done rest = done.reverse ++ ts) →
      ∀ {fuel : ℕ}, s.length ≤ fuel → ∀ done,
        tokenizeFrom html fuel done s = done.reverse ++ (heads ++ ts) := by
    intro heads ts s rest hs hlead hsplit ih fuel hfuel done
    obtain ⟨fuel', hfuel', hstep⟩ := tokenizeFrom_cut hs hlead hsplit hfuel done
    rw [hstep, ih hfuel', List.reverse_append, List.reverse_reverse, List.append_assoc]
  have hnil : ∀ {fuel : ℕ}, ([] : List Char).length ≤ fuel → ∀ done,
      tokenizeFrom html fuel done [] = done.reverse ++ [] := by
    intro fuel _ done
    cases fuel <;> exact (List.append_nil _).symm
  have hone : ∀ (token : Token) (rest : List Char),
      token.raw ++ rest = [token].flatMap Token.raw ++ rest := by
    intro token rest
    rw [List.flatMap_singleton]
  have hlast : ∀ token : Token, token.raw = [token].flatMap Token.raw ++ [] := by
    intro token
    rw [← hone, List.append_nil]
  have hne : ∀ {raw s : List Char}, IsTag raw → raw ++ s ≠ [] := by
    rintro _ s ⟨raw, rfl, -⟩
    exact List.cons_ne_nil _ _
  induction h generalizing fuel done with
  | nil => exact hnil hfuel done
  | @text t s ts ht hplain hs _ ih =>
    have hts : t ++ s ≠ [] := fun h => ht (List.append_eq_nil_iff.mp h).1
    exact hcut [.text t] hts (leading_text html ht hplain hs) (hone (.text t) s) ih hfuel done
  | @openText t hcomment hopen =>
    refine hcut [.text ('<' :: t)] (List.cons_ne_nil _ _) ?_ (hlast (.text ('<' :: t)))
      hnil hfuel done
    rw [leading_bracket, if_neg fun h => hcomment (List.isPrefixOf_iff_prefix.mp h), hopen]
  | @comment raw s ts hraw _ ih =>
    refine hcut [.other raw] ?_ (leading_comment html hraw s) (hone (.other raw) s) ih hfuel done
    obtain ⟨tail, rfl⟩ := bracket_of_comment hraw.1
    exact List.cons_ne_nil _ _
  | @openComment raw hraw hopen =>
    obtain ⟨tail, rfl⟩ := bracket_of_comment hraw
    refine hcut [.other ('<' :: tail)] (List.cons_ne_nil _ _) ?_
      (hlast (.other ('<' :: tail))) hnil hfuel done
    rw [leading_bracket, if_pos (List.isPrefixOf_iff_prefix.mpr hraw),
      find?_eq_none_iff.mpr hopen]
  | @declaration raw s ts hraw hstart _ ih =>
    refine hcut [.other raw] (hne hraw) ?_ (hone (.other raw) s) ih hfuel done
    rw [leading_tag html hraw hstart.1]
    unfold tagTokens
    rw [if_pos]
    rw [Bool.or_eq_true, List.isPrefixOf_iff_prefix, List.isPrefixOf_iff_prefix]
    exact hstart.2
  | @closeTag raw s ts hraw _ ih =>
    refine hcut [.closeTag (tagName html raw) ('<' :: '/' :: raw)] (hne hraw) ?_
      (hone (.closeTag (tagName html raw) ('<' :: '/' :: raw)) s) ih hfuel done
    refine (leading_tag html hraw ?_ s).trans rfl
    intro hstarts
    exact absurd (List.cons_prefix_cons.mp (List.cons_prefix_cons.mp hstarts).2).1 (by decide)
  | @openTag raw s ts hraw hstart hopen _ ih =>
    refine hcut [.openTag (tagName html raw) ('<' :: raw) (selfCloses html raw)]
      (hne hraw) ?_ (hone (.openTag (tagName html raw) ('<' :: raw) (selfCloses html raw)) s) ih
      hfuel done
    rw [leading_tag html hraw hstart.not_comment, hstart.tagTokens_eq]
    split_ifs with hholds
    · simp only [Bool.and_eq_true, Bool.not_eq_true'] at hholds
      rw [find?_eq_none_iff.mpr (hopen ⟨hholds.1.1, hholds.1.2, hholds.2⟩), hholds.1.2]
    · rfl
  | @rawElement raw content s ts hraw hstart hholds hend _ ih =>
    refine hcut [.openTag (tagName html raw) ('<' :: raw) false, .other content]
      (hne hraw) ?_ ?_ ih hfuel done
    · have hfind : find? (endMark (tagName html raw)) 0 ((content ++ s).map Text.lowerAscii) =
          some content.length := by
        refine find?_eq_some_iff.mpr ⟨_, _, List.map_append, ?_, hend⟩
        rw [List.length_map, Nat.zero_add]
      obtain ⟨hhtml, hself, hname⟩ := hholds
      rw [leading_tag html hraw hstart.not_comment, hstart.tagTokens_eq, hself, hname, hhtml,
        if_pos (by decide), ← hhtml, hfind]
      dsimp only
      rw [List.take_left]
    · simp [Token.raw]

/-- A comment is cut off with its end, or goes to the end. -/
theorem exists_cuts_comment {html : Bool} (hcomment : "<!--".toList <+: s)
    (hnext : ∀ {x y : List Char}, s = x ++ y → x ≠ [] → ∃ ts, Cuts html ts y) :
    ∃ ts, Cuts html ts s := by
  cases hfind : find? "-->".toList 0 s with
  | none => exact ⟨_, .openComment hcomment (find?_eq_none_iff.mp hfind)⟩
  | some m =>
    obtain ⟨x, y, rfl, -, hfirst⟩ := find?_eq_some_iff.mp hfind
    obtain ⟨rest, rfl⟩ := hfirst.here
    have hend := (first_append_iff List.prefix_rfl rest).mp hfirst
    rw [← List.append_assoc] at hcomment hnext ⊢
    have hne : x ++ "-->".toList ≠ [] := fun h =>
      absurd (List.append_eq_nil_iff.mp h).2 (by decide)
    obtain ⟨ts, hts⟩ := hnext rfl hne
    refine ⟨_, .comment ⟨?_, x, rfl, hend⟩ hts⟩
    -- The end may share hyphens with the start, but not the bracket.
    have hx : x ≠ [] := by
      rintro rfl
      exact absurd (List.cons_prefix_cons.mp hcomment).1 (by decide)
    have hpos := List.length_pos_of_ne_nil hx
    refine List.prefix_of_prefix_length_le hcomment (List.prefix_append _ _) ?_
    rw [List.length_append]
    exact Nat.succ_le_of_lt (Nat.add_lt_add_right hpos 3)

/-- A tag is cut off, and perhaps the content behind it. -/
theorem exists_cuts_tag {html : Bool} {raw : List Char} (hraw : IsTag ('<' :: raw))
    (hcomment : ¬"<!--".toList <+: '<' :: raw)
    (hnext : ∀ {x y : List Char}, s = x ++ y → ∃ ts, Cuts html ts y) :
    ∃ ts, Cuts html ts ('<' :: raw ++ s) := by
  obtain ⟨ts, hts⟩ := hnext (x := []) rfl
  cases raw with
  | nil => exact absurd hraw not_isTag_bracket
  | cons c tail =>
    by_cases hdeclaration : c = '!' ∨ c = '?'
    · refine ⟨_, .declaration hraw ⟨hcomment, ?_⟩ hts⟩
      rcases hdeclaration with rfl | rfl
      · exact .inl ⟨tail, rfl⟩
      · exact .inr ⟨tail, rfl⟩
    by_cases hclose : c = '/'
    · subst hclose
      exact ⟨_, .closeTag hraw hts⟩
    have hstart : StartsElement (c :: tail) := by
      refine ⟨c, tail, rfl, ?_⟩
      rw [not_or] at hdeclaration
      simp only [List.mem_cons, List.not_mem_nil, or_false, not_or]
      exact ⟨hdeclaration.1, hdeclaration.2, hclose⟩
    by_cases hholds : HoldsRaw html (c :: tail)
    · cases hfind : find? (endMark (tagName html (c :: tail))) 0 (s.map Text.lowerAscii) with
      | none => exact ⟨_, .openTag hraw hstart (fun _ => find?_eq_none_iff.mp hfind) hts⟩
      | some m =>
        obtain ⟨x, y, hxy, -, hfirst⟩ := find?_eq_some_iff.mp hfind
        obtain ⟨content, rest, rfl, rfl, rfl⟩ := List.map_eq_append_iff.mp hxy
        obtain ⟨ts, hts⟩ := hnext rfl
        exact ⟨_, .rawElement hraw hstart hholds hfirst hts⟩
    · exact ⟨_, .openTag hraw hstart (fun h => absurd h hholds) hts⟩

/-- Every text is cut by the rules. -/
theorem exists_cuts (html : Bool) (s : List Char) : ∃ ts, Cuts html ts s := by
  -- By induction on the length of the text: at least one character is cut off.
  induction hn : s.length using Nat.strong_induction_on generalizing s with
  | _ n ih =>
    have hnext : ∀ {x y : List Char}, s = x ++ y → x ≠ [] → ∃ ts, Cuts html ts y := by
      intro x y hxy hx
      have hpos := List.length_pos_of_ne_nil hx
      have hlength := congrArg List.length hxy
      rw [List.length_append] at hlength
      exact ih y.length (by omega) y rfl
    cases s with
    | nil => exact ⟨[], .nil⟩
    | cons c rest =>
      by_cases hc : c = '<'
      · subst hc
        by_cases hcomment : "<!--".toList <+: '<' :: rest
        · exact exists_cuts_comment hcomment hnext
        · cases hend : tagEnd? none 1 rest with
          | none => exact ⟨_, .openText hcomment hend⟩
          | some m =>
            obtain ⟨raw, s, rfl, -, hraw⟩ := exists_isTag hend
            obtain ⟨ts, hts⟩ := hnext (x := '<' :: raw) rfl (List.cons_ne_nil _ _)
            have hshort : ∀ {x y : List Char}, s = x ++ y → ∃ ts, Cuts html ts y := by
              rintro x y rfl
              exact hnext (x := '<' :: raw ++ x) (by simp) (List.cons_ne_nil _ _)
            exact exists_cuts_tag hraw (fun h => hcomment (h.trans (List.prefix_append _ _))) hshort
      · have htext : c :: rest = (c :: rest).takeWhile (· != '<') ++
            (c :: rest).dropWhile (· != '<') := List.takeWhile_append_dropWhile.symm
        have hne : (c :: rest).takeWhile (· != '<') ≠ [] := by
          rw [List.takeWhile_cons_of_pos (by simpa using hc)]
          exact List.cons_ne_nil _ _
        obtain ⟨ts, hts⟩ := hnext htext hne
        rw [htext]
        refine ⟨_, .text hne ?_ ?_ hts⟩
        · intro hmem
          have hplain := List.mem_takeWhile_imp hmem
          exact absurd hplain (by decide)
        · intro d hd
          have hstop := List.head?_dropWhile_not (· != '<') (c :: rest)
          rw [Option.mem_def.mp hd] at hstop
          simpa using hstop

/-- A text is cut into tokens by the rules and in no other way. -/
theorem tokenize_eq_iff {html : Bool} {ts : List Token} :
    tokenize html s = ts ↔ Cuts html ts s := by
  have hcuts : ∀ {ts}, Cuts html ts s → tokenize html s = ts := fun h =>
    h.tokenizeFrom_eq (Nat.le_refl s.length) []
  refine ⟨?_, hcuts⟩
  rintro rfl
  obtain ⟨ts, h⟩ := exists_cuts html s
  rwa [hcuts h]

/-- The rules leave no choice. -/
theorem Cuts.unique {html : Bool} {ts ts' : List Token} (h : Cuts html ts s)
    (h' : Cuts html ts' s) : ts = ts' :=
  (tokenize_eq_iff.mpr h).symm.trans (tokenize_eq_iff.mpr h')

/-- The tokens hold the text. -/
theorem Cuts.flatMap_raw {html : Bool} {ts : List Token} (h : Cuts html ts s) :
    ts.flatMap Token.raw = s := by
  rw [← tokenize_eq_iff.mpr h]
  exact flatMap_raw_tokenize html s

/-- An end tag is cut off by itself. -/
theorem Cuts.of_closeTag {html : Bool} {name raw : List Char} {ts : List Token}
    (h : Cuts html (.closeTag name raw :: ts) s) :
    ∃ tail s', raw = '<' :: '/' :: tail ∧ name = tagName html tail ∧ s = raw ++ s' ∧ IsTag raw ∧
      Cuts html ts s' := by
  generalize hts : Token.closeTag name raw :: ts = ts' at h
  cases h with
  | closeTag hraw h =>
    obtain ⟨hhead, rfl⟩ := List.cons.inj hts
    obtain ⟨rfl, rfl⟩ := Token.closeTag.inj hhead
    exact ⟨_, _, rfl, rfl, rfl, hraw, h⟩
  | nil | openText | text | comment | openComment | declaration | openTag | rawElement =>
    exact absurd hts (by simp)

/-- What is neither a tag nor a text starts with an opening bracket, if it is not the content of an
element. -/
theorem Cuts.bracket_of_other {html : Bool} {raw : List Char} {ts : List Token}
    (h : Cuts html (.other raw :: ts) s) : ∃ tail, raw = '<' :: tail := by
  cases h with
  | comment hraw => exact bracket_of_comment hraw.1
  | openComment hraw => exact bracket_of_comment hraw
  | declaration hraw =>
    obtain ⟨tail, rfl, -⟩ := hraw
    exact ⟨tail, rfl⟩

/-- The characters of each token stand in the text. -/
theorem Cuts.raw_isInfix {html : Bool} {ts : List Token} (h : Cuts html ts s) {token : Token}
    (ht : token ∈ ts) : token.raw <:+: s := by
  obtain ⟨before, after, rfl⟩ := List.append_of_mem ht
  rw [← h.flatMap_raw, List.flatMap_append, List.flatMap_cons]
  exact ⟨_, _, List.append_assoc _ _ _⟩

/-- A slash behind an opening bracket starts an end tag, if the tag is closed. -/
theorem Cuts.slash {html : Bool} {ts : List Token} (h : Cuts html ts ('<' :: '/' :: s)) :
    (∃ raw rest ts', s = raw ++ rest ∧ IsTag ('<' :: '/' :: raw) ∧
      ts = .closeTag (tagName html raw) ('<' :: '/' :: raw) :: ts') ∨
      ts = [.text ('<' :: '/' :: s)] := by
  cases hend : tagEnd? none 1 ('/' :: s) with
  | none =>
    refine .inr (h.unique (.openText ?_ hend))
    intro hstarts
    exact absurd (List.cons_prefix_cons.mp (List.cons_prefix_cons.mp hstarts).2).1 (by decide)
  | some m =>
    obtain ⟨raw, rest, hsplit, -, hraw⟩ := exists_isTag hend
    cases raw with
    | nil => exact absurd hraw not_isTag_bracket
    | cons c raw =>
      obtain ⟨rfl, rfl⟩ := List.cons.inj hsplit
      obtain ⟨ts', hts'⟩ := exists_cuts html rest
      exact .inl ⟨raw, rest, ts', rfl, hraw, h.unique (.closeTag hraw hts')⟩

end CodeTidy.Markup
