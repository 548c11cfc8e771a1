import CodeTidy.Proofs.Json.Decimal
import CodeTidy.Proofs.Json.Document

/-!
# What is written follows the grammar

The compact and the indented form of a value differ in their white space only. `spaced` is the form
with any white space, and `spells_spaced` says that it spells the document of the value, in which
each number is the literal that it is written as.
-/

namespace CodeTidy.Json

/-- Induction on values, where the items or members of a container are taken together. -/
@[elab_as_elim]
theorem induction {motive : Json → Prop} (null : motive .null) (bool : ∀ b, motive (.bool b))
    (num : ∀ n, motive (.num n)) (str : ∀ x, motive (.str x))
    (arr : ∀ vs, (∀ v ∈ vs, motive v) → motive (.arr vs))
    (obj : ∀ ms, (∀ m ∈ ms, motive m.2) → motive (.obj ms)) : ∀ v, motive v
  | .null => null
  | .bool b => bool b
  | .num n => num n
  | .str x => str x
  | .arr vs => arr vs fun v _ => induction null bool num str arr obj v
  | .obj ms => obj ms fun m _ => induction null bool num str arr obj m.2
termination_by v => v
decreasing_by
  · decreasing_tactic
  · rw [Json.obj.sizeOf_spec]
    exact sizeOf_member_lt ‹_›

/-- The literal as which a number is written. -/
noncomputable def Number.literal (n : Number) : Literal := n.exists_literal.choose

/-- The literal of a number is its text. -/
theorem Number.literal_text (n : Number) : n.literal.text = n.text :=
  n.exists_literal.choose_spec.1

/-- The literal of a number has the value of its decimal. -/
theorem Number.literal_value (n : Number) : n.literal.value = n.decimal :=
  n.exists_literal.choose_spec.2

/-- The literal of an integer has neither fraction nor exponent. -/
theorem Number.literal_int (n : ℤ) : (Number.int n).literal = intLiteral n :=
  Literal.text_inj ((Number.literal_text _).trans (intLiteral_text n).symm)

/-- The document as which a value is written. -/
noncomputable def document : Json → Document
  | .null => .null
  | .bool b => .bool b
  | .num n => .num n.literal
  | .str x => .str x
  | .arr vs => .arr (vs.map fun v => document v)
  | .obj ms => .obj (ms.map fun m => (m.1, document m.2))
termination_by v => v
decreasing_by
  · decreasing_tactic
  · rw [Json.obj.sizeOf_spec]
    exact sizeOf_member_lt ‹_›

/-! ## White space between -/

/-- The white space of a form: in front of an item or a closing bracket inside a number of
containers, and behind a colon. -/
structure Spacing where
  gap : ℕ → List Char
  colon : List Char

/-- The compact form has no white space. -/
def Spacing.compact : Spacing := ⟨fun _ => [], []⟩

/-- The indented form has a line for each item, and a blank behind a colon. -/
def Spacing.indented (unit : List Char) : Spacing := ⟨newline unit, [' ']⟩

/-- Parts between brackets inside `depth` containers. -/
def enclose (s : Spacing) (depth : ℕ) (opener closer : Char) : List (List Char) → List Char
  | [] => [opener, closer]
  | p :: ps =>
    opener :: (s.gap (depth + 1) ++ (p ++ (ps.flatMap (fun q => ',' :: (s.gap (depth + 1) ++ q)) ++
      (s.gap depth ++ [closer]))))

/-- The form of a value inside `depth` containers. -/
def spaced (s : Spacing) (depth : ℕ) : Json → List Char
  | .null => ['n', 'u', 'l', 'l']
  | .bool true => ['t', 'r', 'u', 'e']
  | .bool false => ['f', 'a', 'l', 's', 'e']
  | .num n => n.text
  | .str x => stringText x
  | .arr vs => enclose s depth '[' ']' (vs.map fun v => spaced s (depth + 1) v)
  | .obj ms => enclose s depth '\x7b' '\x7d'
    (ms.map fun m => stringText m.1 ++ ':' :: (s.colon ++ spaced s (depth + 1) m.2))
termination_by v => v
decreasing_by
  · decreasing_tactic
  · rw [Json.obj.sizeOf_spec]
    exact sizeOf_member_lt ‹_›

/-- The compact form is the one without white space. -/
theorem compact_eq (v : Json) (depth : ℕ) : compact v = spaced .compact depth v := by
  have hitems : ∀ {vs : List Json} {f : Json → List Char}, (∀ v ∈ vs, compact v = f v) →
      compactItems vs = (vs.map f).flatMap fun q => ',' :: q := by
    intro vs f h
    induction vs with
    | nil => rfl
    | cons v vs ih =>
      rw [List.forall_mem_cons] at h
      rw [compactItems, List.map_cons, List.flatMap_cons, h.1, ih h.2, List.cons_append]
  have hmembers : ∀ {ms : List (String × Json)} {f : Json → List Char},
      (∀ m ∈ ms, compact m.2 = f m.2) → compactMembers ms =
        (ms.map fun m => stringText m.1 ++ ':' :: f m.2).flatMap fun q => ',' :: q := by
    intro ms f h
    induction ms with
    | nil => rfl
    | cons m ms ih =>
      rw [List.forall_mem_cons] at h
      obtain ⟨k, v⟩ := m
      rw [compactMembers, List.map_cons, List.flatMap_cons, h.1, ih h.2]
      simp only [List.cons_append, List.append_assoc]
  induction v using Json.induction generalizing depth with
  | null => rw [compact, spaced]
  | bool b => cases b <;> rw [compact, spaced]
  | num n => rw [compact, spaced]
  | str x => rw [compact, spaced]
  | arr vs ih =>
    rw [spaced]
    cases vs with
    | nil => rw [compact, List.map_nil, enclose]
    | cons v vs =>
      rw [List.forall_mem_cons] at ih
      rw [compact, List.map_cons, enclose, ih.1 (depth + 1),
        hitems fun v hv => ih.2 v hv (depth + 1)]
      rfl
  | obj ms ih =>
    rw [spaced]
    cases ms with
    | nil => rw [compact, List.map_nil, enclose]
    | cons m ms =>
      obtain ⟨k, v⟩ := m
      rw [List.forall_mem_cons] at ih
      rw [compact, List.map_cons, enclose, ih.1 (depth + 1),
        hmembers fun m hm => ih.2 m hm (depth + 1)]
      simp only [Spacing.compact, List.cons_append, List.append_assoc, List.nil_append]

/-- The indented form is one with white space. -/
theorem pretty_eq (unit : List Char) (v : Json) (depth : ℕ) :
    pretty unit depth v = spaced (.indented unit) depth v := by
  have hitems : ∀ {vs : List Json} {depth : ℕ} {f : Json → List Char},
      (∀ v ∈ vs, pretty unit depth v = f v) → prettyItems unit depth vs =
        (vs.map f).flatMap fun q => ',' :: (newline unit depth ++ q) := by
    intro vs depth f h
    induction vs with
    | nil => rfl
    | cons v vs ih =>
      rw [List.forall_mem_cons] at h
      rw [prettyItems, List.map_cons, List.flatMap_cons, h.1, ih h.2]
      simp only [List.cons_append, List.append_assoc]
  have hmembers : ∀ {ms : List (String × Json)} {depth : ℕ} {f : Json → List Char},
      (∀ m ∈ ms, pretty unit depth m.2 = f m.2) → prettyMembers unit depth ms =
        (ms.map fun m => stringText m.1 ++ ':' :: ' ' :: f m.2).flatMap
          fun q => ',' :: (newline unit depth ++ q) := by
    intro ms depth f h
    induction ms with
    | nil => rfl
    | cons m ms ih =>
      rw [List.forall_mem_cons] at h
      obtain ⟨k, v⟩ := m
      rw [prettyMembers, List.map_cons, List.flatMap_cons, h.1, ih h.2]
      simp only [List.cons_append, List.append_assoc]
  induction v using Json.induction generalizing depth with
  | null => rw [pretty, spaced]
  | bool b => cases b <;> rw [pretty, spaced]
  | num n => rw [pretty, spaced]
  | str x => rw [pretty, spaced]
  | arr vs ih =>
    rw [spaced]
    cases vs with
    | nil => rw [pretty, List.map_nil, enclose]
    | cons v vs =>
      rw [List.forall_mem_cons] at ih
      rw [pretty, List.map_cons, enclose, ih.1 (depth + 1),
        hitems fun v hv => ih.2 v hv (depth + 1)]
      rfl
  | obj ms ih =>
    rw [spaced]
    cases ms with
    | nil => rw [pretty, List.map_nil, enclose]
    | cons m ms =>
      obtain ⟨k, v⟩ := m
      rw [List.forall_mem_cons] at ih
      rw [pretty, List.map_cons, enclose, ih.1 (depth + 1),
        hmembers fun m hm => ih.2 m hm (depth + 1)]
      simp only [Spacing.indented, List.cons_append, List.append_assoc, List.nil_append]

/-! ## Spelling -/

/-- A form has nothing but white space between its parts. -/
structure Spacing.Blank (s : Spacing) : Prop where
  gap : ∀ depth, Spaces (s.gap depth)
  colon : Spaces s.colon

/-- The compact form has no white space at all. -/
theorem Spacing.blank_compact : Spacing.compact.Blank where
  gap _ := spaces_nil
  colon := spaces_nil

/-- A character of an indentation is one of its unit. -/
theorem mem_unit_of_mem_indentation {c : Char} {n : ℕ} {unit : List Char}
    (h : c ∈ (List.replicate n unit).flatten) : c ∈ unit := by
  obtain ⟨u, hu, hc⟩ := List.mem_flatten.mp h
  rwa [List.eq_of_mem_replicate hu] at hc

/-- The indented form has white space if its unit is such. -/
theorem Spacing.blank_indented {unit : List Char} (h : Spaces unit) : (indented unit).Blank where
  gap depth := by
    show Spaces ('\n' :: (List.replicate depth unit).flatten)
    refine List.forall_mem_cons.mpr ⟨by decide, ?_⟩
    exact fun c hc => h c (mem_unit_of_mem_indentation hc)
  colon := by
    intro c hc
    rw [List.mem_singleton.mp hc]
    decide

/-- A digit of base sixteen has its value. -/
theorem hexValue?_digitChar {n : ℕ} (h : n < 16) : hexValue? (Nat.digitChar n) = some n := by
  interval_cases n <;> decide

/-- A character inside a string is written as one of its escapes. -/
theorem escape_stringChar (c : Char) : Escape c (stringChar c) := by
  unfold stringChar
  simp only [beq_iff_eq]
  split_ifs with hquote hslash hline hreturn htab hback hfeed hcontrol
  · rw [hquote]; exact .letter rfl
  · rw [hslash]; exact .letter rfl
  · rw [hline]; exact .letter rfl
  · rw [hreturn]; exact .letter rfl
  · rw [htab]; exact .letter rfl
  · rw [hback]; exact .letter rfl
  · rw [hfeed]; exact .letter rfl
  · -- Other control characters are written as their number.
    have hhigh := hexValue?_digitChar (n := c.toNat / 16) (by omega)
    have hlow := hexValue?_digitChar (n := c.toNat % 16) (by omega)
    have hhex : Hex c.toNat
        ['0', '0', Nat.digitChar (c.toNat / 16), Nat.digitChar (c.toNat % 16)] := by
      have hzero : hexValue? '0' = some 0 := by decide
      have hmk := Hex.mk hzero hzero hhigh hlow
      have hvalue : ((0 * 16 + 0) * 16 + c.toNat / 16) * 16 + c.toNat % 16 = c.toNat := by omega
      rwa [hvalue] at hmk
    have hunit := Escape.unit hhex (by omega)
    rwa [Char.ofNat_toNat] at hunit
  · exact .plain hcontrol hquote hslash

/-- A string is written with its quotes. -/
theorem quoted_stringText (x : String) : Quoted x (stringText x) := by
  have hbody : ∀ cs : List Char, Encodes cs (cs.flatMap stringChar) := by
    intro cs
    induction cs with
    | nil => exact .nil
    | cons c cs ih =>
      rw [List.flatMap_cons]
      exact .cons (escape_stringChar c) ih
  have hquoted := Quoted.mk (hbody x.toList)
  rwa [String.ofList_toList] at hquoted

/-- Parts that spell items are listed between their brackets. -/
theorem exists_listed {α β : Type} {R : α → List Char → Prop} {s : Spacing} (hs : s.Blank)
    (depth : ℕ) (opener closer : Char) {bs : List β} {g : β → α} {f : β → List Char}
    (h : ∀ b ∈ bs, R (g b) (f b)) :
    ∃ inner, enclose s depth opener closer (bs.map f) = opener :: (inner ++ [closer]) ∧
      Listed R (bs.map g) inner := by
  -- Behind each item there is nothing up to the comma, and the last gap is at the end.
  have hfollowing : ∀ {bs : List β}, (∀ b ∈ bs, R (g b) (f b)) → Following R (bs.map g)
      ((bs.map f).flatMap (fun q => ',' :: (s.gap (depth + 1) ++ q)) ++ s.gap depth) := by
    intro bs h
    induction bs with
    | nil => exact .nil (hs.gap depth)
    | cons b bs ih =>
      rw [List.forall_mem_cons] at h
      have hcons := Following.cons spaces_nil (hs.gap (depth + 1)) h.1 (ih h.2)
      rw [List.map_cons, List.map_cons, List.flatMap_cons]
      simpa only [List.nil_append, List.cons_append, List.append_assoc] using hcons
  cases bs with
  | nil => exact ⟨[], rfl, .nil spaces_nil⟩
  | cons b bs =>
    rw [List.forall_mem_cons] at h
    refine ⟨_, ?_, .cons (hs.gap (depth + 1)) h.1 (hfollowing h.2)⟩
    rw [List.map_cons, enclose]
    simp only [List.append_assoc]

/-- A form of a value spells its document. -/
theorem spells_spaced {s : Spacing} (hs : s.Blank) (depth : ℕ) (v : Json) :
    Spells (document v) (spaced s depth v) := by
  induction v using Json.induction generalizing depth with
  | null =>
    rw [document, spaced]
    exact .null
  | bool b =>
    rw [document]
    cases b with
    | true => rw [spaced]; exact .true
    | false => rw [spaced]; exact .false
  | num n =>
    rw [document, spaced, ← n.literal_text]
    exact .num n.literal
  | str x =>
    rw [document, spaced]
    exact .str (quoted_stringText x)
  | arr vs ih =>
    rw [document, spaced]
    obtain ⟨inner, henclose, hinner⟩ := exists_listed (R := Spells) hs depth '[' ']'
      fun v hv => ih v hv (depth + 1)
    rw [henclose]
    exact .arr hinner
  | obj ms ih =>
    rw [document, spaced]
    have hmember : ∀ m ∈ ms, Member Spells (m.1, document m.2)
        (stringText m.1 ++ ':' :: (s.colon ++ spaced s (depth + 1) m.2)) := by
      intro m hm
      exact .mk (quoted_stringText m.1) spaces_nil hs.colon (ih m hm (depth + 1))
    obtain ⟨inner, henclose, hinner⟩ := exists_listed hs depth '\x7b' '\x7d' hmember
    rw [henclose]
    exact .obj hinner

end CodeTidy.Json
