import CodeTidy.Proofs.Json.Quoted
import Mathlib.Data.List.Basic

/-!
# Documents

A JSON text spells a document: a tree with every item and every member, whose numbers are kept as
they are written. `Spells` is the grammar, and `Written.unique` says that a text spells one document
at most. The data of a document are the tree with the values of its numbers.
-/

namespace CodeTidy.Json

/-- The trees of JSON with numbers in `ν`. A key may occur more than once in an object. -/
inductive Tree (ν : Type) where
  | null
  | bool (value : Bool)
  | num (value : ν)
  | str (value : String)
  | arr (items : List (Tree ν))
  | obj (members : List (String × Tree ν))

/-- A document, with numbers as they are written. -/
abbrev Document := Tree Literal

/-- The value of a member is smaller than an object with the member. -/
theorem sizeOf_member_lt {α : Type} [SizeOf α] {m : String × α} {ms : List (String × α)}
    (h : m ∈ ms) : sizeOf m.2 < 1 + sizeOf ms := by
  have hlt := List.sizeOf_lt_of_mem h
  obtain ⟨k, v⟩ := m
  rw [Prod.mk.sizeOf_spec] at hlt
  show sizeOf v < 1 + sizeOf ms
  omega

namespace Tree

variable {ν μ : Type}

/-- Induction on trees, where the items or members of a container are taken together. -/
@[elab_as_elim]
theorem induction {motive : Tree ν → Prop} (null : motive .null)
    (bool : ∀ b, motive (.bool b)) (num : ∀ n, motive (.num n)) (str : ∀ x, motive (.str x))
    (arr : ∀ ts, (∀ t ∈ ts, motive t) → motive (.arr ts))
    (obj : ∀ ms, (∀ m ∈ ms, motive m.2) → motive (.obj ms)) : ∀ t, motive t
  | .null => null
  | .bool b => bool b
  | .num n => num n
  | .str x => str x
  | .arr ts => arr ts fun t _ => induction null bool num str arr obj t
  | .obj ms => obj ms fun m _ => induction null bool num str arr obj m.2
termination_by t => t
decreasing_by
  · decreasing_tactic
  · rw [Tree.obj.sizeOf_spec]
    exact sizeOf_member_lt ‹_›

/-- The tree with other numbers. -/
def map (f : ν → μ) : Tree ν → Tree μ
  | .null => .null
  | .bool b => .bool b
  | .num n => .num (f n)
  | .str x => .str x
  | .arr ts => .arr (ts.map fun t => map f t)
  | .obj ms => .obj (ms.map fun m => (m.1, map f m.2))
termination_by t => t
decreasing_by
  · decreasing_tactic
  · rw [Tree.obj.sizeOf_spec]
    exact sizeOf_member_lt ‹_›

/-- All numbers satisfy `P`, and no object has a key twice. -/
def Plain (P : ν → Prop) : Tree ν → Prop
  | .null | .bool _ | .str _ => True
  | .num n => P n
  | .arr ts => ∀ t ∈ ts, Plain P t
  | .obj ms => (ms.map Prod.fst).Nodup ∧ ∀ m ∈ ms, Plain P m.2
termination_by t => t
decreasing_by
  · decreasing_tactic
  · rw [Tree.obj.sizeOf_spec]
    exact sizeOf_member_lt ‹_›

/-- A weaker condition on the numbers holds as well. -/
theorem Plain.imp {P Q : ν → Prop} (h : ∀ n, P n → Q n) (t : Tree ν) : t.Plain P → t.Plain Q := by
  induction t using Tree.induction with
  | num n =>
    rw [Plain, Plain]
    exact h n
  | arr ts ih =>
    rw [Plain, Plain]
    exact fun ht t hmem => ih t hmem (ht t hmem)
  | obj ms ih =>
    rw [Plain, Plain]
    exact fun hm => ⟨hm.1, fun m hmem => ih m hmem (hm.2 m hmem)⟩
  | _ =>
    rw [Plain, Plain]
    exact id

end Tree

/-- The data of a document. -/
def Document.data (d : Document) : Tree ℚ := d.map Literal.value

/-! ## Spelling -/

/-- White space of JSON. -/
def isSpace (c : Char) : Bool := c == ' ' || c == '\n' || c == '\t' || c == '\r'

/-- White space of JSON, or nothing at all. -/
def Spaces (g : List Char) : Prop := ∀ c ∈ g, isSpace c = true

/-- Nothing at all is. -/
theorem spaces_nil : Spaces [] := List.forall_mem_nil _

section
variable {α : Type}

/-- Items behind the first one, each behind a comma, with white space around them. -/
inductive Following (R : α → List Char → Prop) : List α → List Char → Prop
  | nil {g : List Char} (hg : Spaces g) : Following R [] g
  | cons {a : α} {as : List α} {g g' s t : List Char} (hg : Spaces g) (hg' : Spaces g')
    (ha : R a s) (has : Following R as t) : Following R (a :: as) (g ++ ',' :: (g' ++ (s ++ t)))

/-- Items with commas between them and white space around them. -/
inductive Listed (R : α → List Char → Prop) : List α → List Char → Prop
  | nil {g : List Char} (hg : Spaces g) : Listed R [] g
  | cons {a : α} {as : List α} {g s t : List Char} (hg : Spaces g) (ha : R a s)
    (has : Following R as t) : Listed R (a :: as) (g ++ (s ++ t))

/-- A key, a colon and a value. -/
inductive Member (R : α → List Char → Prop) : String × α → List Char → Prop
  | mk {key : String} {a : α} {g g' s t : List Char} (hkey : Quoted key s) (hg : Spaces g)
    (hg' : Spaces g') (ha : R a t) : Member R (key, a) (s ++ (g ++ ':' :: (g' ++ t)))

end

/-- The texts that spell a document, without white space at either end. -/
inductive Spells : Document → List Char → Prop
  | null : Spells .null ['n', 'u', 'l', 'l']
  | true : Spells (.bool .true) ['t', 'r', 'u', 'e']
  | false : Spells (.bool .false) ['f', 'a', 'l', 's', 'e']
  | num (l : Literal) : Spells (.num l) l.text
  | str {x : String} {s : List Char} (h : Quoted x s) : Spells (.str x) s
  | arr {ds : List Document} {s : List Char} (h : Listed Spells ds s) :
    Spells (.arr ds) ('[' :: (s ++ [']']))
  | obj {ms : List (String × Document)} {s : List Char} (h : Listed (Member Spells) ms s) :
    Spells (.obj ms) ('\x7b' :: (s ++ ['\x7d']))

/-- The texts of a document. -/
inductive Written (d : Document) : List Char → Prop
  | mk {g s g' : List Char} (hg : Spaces g) (h : Spells d s) (hg' : Spaces g') :
    Written d (g ++ (s ++ g'))

/-! ## A text spells one document -/

/-- A bracket that closes an array or an object. -/
def IsCloser (c : Char) : Prop := c = ']' ∨ c = '\x7d'

section
variable {α : Type} {R : α → List Char → Prop} {n : ℕ}

/-- What is spelled starts neither with white space nor with a closing bracket. -/
def Begins (R : α → List Char → Prop) : Prop :=
  ∀ a s, R a s → ∃ c t, s = c :: t ∧ isSpace c = false ∧ ¬IsCloser c

/-- Texts of at most `n` characters tell what they spell and where they end, if no number could go
on behind them. -/
def Determinate (R : α → List Char → Prop) (n : ℕ) : Prop :=
  ∀ a b s s' r r', s.length ≤ n → R a s → R b s' → Stops isNumeric r → Stops isNumeric r' →
    s ++ r = s' ++ r' → a = b ∧ s = s' ∧ r = r'

/-- White space ends where something else starts. -/
theorem Spaces.append_inj {g g' s s' : List Char} {c c' : Char} (hg : Spaces g) (hg' : Spaces g')
    (hc : isSpace c = false) (hc' : isSpace c' = false) (h : g ++ c :: s = g' ++ c' :: s') :
    g = g' ∧ c = c' ∧ s = s' := by
  have hstops : ∀ {c : Char} {s : List Char}, isSpace c = false → Stops isSpace (c :: s) := by
    rintro c s hc e he
    obtain rfl := Option.some.inj he
    exact hc
  obtain ⟨rfl, hrest⟩ := (hstops hc).append_inj (hstops hc') hg hg' h
  exact ⟨rfl, List.cons.inj hrest⟩

/-- White space is not part of a number, and neither is a mark behind it. -/
theorem Spaces.stops {g s : List Char} {c : Char} (hg : Spaces g) (hc : isNumeric c = false) :
    Stops isNumeric (g ++ c :: s) := by
  intro e he
  cases g with
  | nil =>
    obtain rfl := Option.some.inj he
    exact hc
  | cons d g =>
    obtain rfl := Option.some.inj he
    have hspace := hg d (List.mem_cons_self ..)
    simp only [isSpace, Bool.or_eq_true, beq_iff_eq] at hspace
    rcases hspace with ((rfl | rfl) | rfl) | rfl <;> decide

/-- A closing bracket is neither white space nor a comma nor part of a number. -/
theorem IsCloser.spec {c : Char} (h : IsCloser c) :
    isSpace c = false ∧ c ≠ ',' ∧ isNumeric c = false := by
  rcases h with rfl | rfl <;> decide

/-- Behind an item stands no part of a number. -/
theorem Following.stops {as : List α} {s r : List Char} {c : Char} (has : Following R as s)
    (hc : IsCloser c) : Stops isNumeric (s ++ c :: r) := by
  cases has with
  | nil hg => exact hg.stops hc.spec.2.2
  | cons hg hg' ha has =>
    rw [List.append_assoc, List.cons_append]
    exact hg.stops (by decide)

/-- A text with white space in front tells what it spells. -/
theorem Determinate.spaced (hR : Determinate R n) (hbegins : Begins R) {a b : α}
    {g g' s s' r r' : List Char} (hg : Spaces g) (hg' : Spaces g') (hn : s.length ≤ n) (ha : R a s)
    (hb : R b s') (hr : Stops isNumeric r) (hr' : Stops isNumeric r')
    (h : g ++ (s ++ r) = g' ++ (s' ++ r')) : a = b ∧ g = g' ∧ s = s' ∧ r = r' := by
  have hspaces : g = g' ∧ s ++ r = s' ++ r' := by
    obtain ⟨c, t, rfl, hc, -⟩ := hbegins a s ha
    obtain ⟨c', t', rfl, hc', -⟩ := hbegins b s' hb
    obtain ⟨hgg, hcc, htt⟩ := hg.append_inj hg' hc hc' h
    exact ⟨hgg, congrArg₂ List.cons hcc htt⟩
  obtain ⟨hab, hs, hrest⟩ := hR a b s s' r r' hn ha hb hr hr' hspaces.2
  exact ⟨hab, hspaces.1, hs, hrest⟩

/-- A text of items behind the first one tells them, up to the closing bracket. -/
theorem Following.determinate (hR : Determinate R n) (hbegins : Begins R) {as bs : List α}
    {s s' r r' : List Char} {c : Char} (hc : IsCloser c) (ha : Following R as s)
    (hb : Following R bs s') (hn : s.length ≤ n) (h : s ++ c :: r = s' ++ c :: r') :
    as = bs ∧ s = s' ∧ r = r' := by
  have hcomma : isSpace ',' = false := by decide
  induction ha generalizing bs s' with
  | nil hg =>
    cases hb with
    | nil hg' =>
      obtain ⟨rfl, -, hr⟩ := hg.append_inj hg' hc.spec.1 hc.spec.1 h
      exact ⟨rfl, rfl, hr⟩
    | cons hg' _ _ _ =>
      rw [List.append_assoc, List.cons_append] at h
      exact absurd (hg.append_inj hg' hc.spec.1 hcomma h).2.1 hc.spec.2.1
  | cons hg hg' ha has ih =>
    cases hb with
    | nil hg'' =>
      rw [List.append_assoc, List.cons_append] at h
      exact absurd (hg.append_inj hg'' hcomma hc.spec.1 h).2.1.symm hc.spec.2.1
    | cons hh hh' hb hbs =>
      simp only [List.length_append, List.length_cons] at hn
      simp only [List.append_assoc, List.cons_append] at h
      obtain ⟨rfl, -, hitem⟩ := hg.append_inj hh hcomma hcomma h
      obtain ⟨rfl, rfl, rfl, hrest⟩ := hR.spaced hbegins hg' hh' (by omega) ha hb (has.stops hc)
        (hbs.stops hc) hitem
      obtain ⟨rfl, rfl, hr⟩ := ih hbs (by omega) hrest
      exact ⟨rfl, rfl, hr⟩

/-- A text of items tells them, up to the closing bracket. -/
theorem Listed.determinate (hR : Determinate R n) (hbegins : Begins R) {as bs : List α}
    {s s' r r' : List Char} {c : Char} (hc : IsCloser c) (ha : Listed R as s)
    (hb : Listed R bs s') (hn : s.length ≤ n) (h : s ++ c :: r = s' ++ c :: r') :
    as = bs ∧ s = s' ∧ r = r' := by
  -- No item starts with the bracket that ends an empty list.
  have hempty : ∀ {g g' s t r r' : List Char} {a : α}, Spaces g → Spaces g' → R a s →
      g ++ c :: r ≠ g' ++ (s ++ t) ++ c :: r' := by
    intro g g' s t r r' a hg hg' ha heq
    obtain ⟨d, u, rfl, hd, hcloser⟩ := hbegins a s ha
    simp only [List.append_assoc, List.cons_append] at heq
    obtain ⟨-, rfl, -⟩ := hg.append_inj hg' hc.spec.1 hd heq
    exact hcloser hc
  cases ha with
  | nil hg =>
    cases hb with
    | nil hg' =>
      obtain ⟨rfl, -, hr⟩ := hg.append_inj hg' hc.spec.1 hc.spec.1 h
      exact ⟨rfl, rfl, hr⟩
    | cons hg' hb _ => exact absurd h (hempty hg hg' hb)
  | cons hg ha has =>
    cases hb with
    | nil hg' => exact absurd h.symm (hempty hg' hg ha)
    | cons hg' hb hbs =>
      simp only [List.length_append] at hn
      simp only [List.append_assoc] at h
      obtain ⟨rfl, rfl, rfl, hrest⟩ := hR.spaced hbegins hg hg' (by omega) ha hb (has.stops hc)
        (hbs.stops hc) h
      obtain ⟨rfl, rfl, hr⟩ := has.determinate hR hbegins hc hbs (by omega) hrest
      exact ⟨rfl, rfl, hr⟩

/-- A member starts with the quote of its key. -/
theorem Member.begins : Begins (Member R) := by
  rintro _ _ ⟨⟨hcs⟩, -, -, -⟩
  exact ⟨'"', _, rfl, by decide, by rintro (h | h) <;> exact absurd h (by decide)⟩

/-- A text of a member tells it if texts of values do. -/
theorem Member.determinate (hR : Determinate R n) (hbegins : Begins R) :
    Determinate (Member R) n := by
  rintro _ _ _ _ r r' hn ⟨hkey, hg, hg', ha⟩ ⟨hkey', hh, hh', hb⟩ hr hr' h
  have hcolon : isSpace ':' = false := by decide
  simp only [List.length_append, List.length_cons] at hn
  simp only [List.append_assoc, List.cons_append] at h
  obtain ⟨rfl, rfl, hafter⟩ := hkey.determinate hkey' h
  obtain ⟨rfl, -, hvalue⟩ := hg.append_inj hh hcolon hcolon hafter
  obtain ⟨rfl, rfl, rfl, hrest⟩ := hR.spaced hbegins hg' hh' (by omega) ha hb hr hr' hvalue
  exact ⟨rfl, rfl, hrest⟩

end

/-- The character that a document starts with, where all numbers count as starting with a zero. -/
def Tree.lead {ν : Type} : Tree ν → Char
  | .null => 'n'
  | .bool true => 't'
  | .bool false => 'f'
  | .num _ => '0'
  | .str _ => '"'
  | .arr _ => '['
  | .obj _ => '\x7b'

/-- The characters that documents start with. -/
theorem Tree.lead_mem {ν : Type} (t : Tree ν) :
    t.lead ∈ ['n', 't', 'f', '0', '"', '[', '\x7b'] := by
  cases t with
  | bool b => cases b <;> simp [lead]
  | _ => simp [lead]

/-- A character at the start of a document, where all of numbers count as a zero. -/
def leadOf (c : Char) : Char := if isNumeric c then '0' else c

/-- A document starts with its character. -/
theorem Spells.exists_lead {d : Document} {s : List Char} (h : Spells d s) :
    ∃ c t, s = c :: t ∧ leadOf c = d.lead := by
  cases h with
  | null => exact ⟨'n', _, rfl, by decide⟩
  | true => exact ⟨'t', _, rfl, by decide⟩
  | false => exact ⟨'f', _, rfl, by decide⟩
  | num l =>
    have hnumeric := l.text_isNumeric
    have hne : l.text ≠ [] := by
      obtain ⟨d, s, -, hs⟩ := l.exists_digit
      unfold Literal.text
      rw [hs]
      split_ifs <;> exact nofun
    obtain ⟨c, t, ht⟩ := List.exists_cons_of_ne_nil hne
    rw [ht] at hnumeric
    refine ⟨c, t, ht, ?_⟩
    rw [leadOf, if_pos (hnumeric c (List.mem_cons_self ..))]
    rfl
  | str hx =>
    obtain ⟨hcs⟩ := hx
    exact ⟨'"', _, rfl, rfl⟩
  | arr _ => exact ⟨'[', _, rfl, rfl⟩
  | obj _ => exact ⟨'\x7b', _, rfl, rfl⟩

/-- A document starts neither with white space nor with a closing bracket. -/
theorem Spells.begins : Begins Spells := by
  intro d s h
  obtain ⟨c, t, rfl, hlead⟩ := h.exists_lead
  -- Such a character is no lead.
  have hne : ∀ e : Char, leadOf e = e → e ∉ ['n', 't', 'f', '0', '"', '[', '\x7b'] → c ≠ e := by
    rintro e he hmem rfl
    rw [he] at hlead
    refine hmem (hlead ▸ ?_)
    exact d.lead_mem
  refine ⟨c, t, rfl, ?_, ?_⟩
  · simp only [isSpace, Bool.or_eq_false_iff, beq_eq_false_iff_ne]
    exact ⟨⟨⟨hne _ (by decide) (by decide), hne _ (by decide) (by decide)⟩,
      hne _ (by decide) (by decide)⟩, hne _ (by decide) (by decide)⟩
  · rintro (hc | hc)
    · exact hne _ (by decide) (by decide) hc
    · exact hne _ (by decide) (by decide) hc

/-- A text of a document tells it and where it ends, if no number could go on behind it. -/
theorem Spells.determinate (n : ℕ) : Determinate Spells n := by
  induction n with
  | zero =>
    intro d d' s s' r r' hn h
    obtain ⟨c, t, rfl, -⟩ := h.exists_lead
    exact absurd hn (by simp)
  | succ n ih =>
    intro d d' s s' r r' hn h h' hr hr' heq
    have hlead : d.lead = d'.lead := by
      obtain ⟨c, t, rfl, hc⟩ := h.exists_lead
      obtain ⟨c', t', rfl, hc'⟩ := h'.exists_lead
      rw [← hc, ← hc', (List.cons.inj heq).1]
    -- The first character tells the constructor, and its arguments are told by what is inside.
    cases h with
    | null =>
      cases h' with
      | null => exact ⟨rfl, rfl, List.append_cancel_left heq⟩
      | _ => exact absurd hlead (by simp [Tree.lead])
    | true =>
      cases h' with
      | true => exact ⟨rfl, rfl, List.append_cancel_left heq⟩
      | _ => exact absurd hlead (by simp [Tree.lead])
    | false =>
      cases h' with
      | false => exact ⟨rfl, rfl, List.append_cancel_left heq⟩
      | _ => exact absurd hlead (by simp [Tree.lead])
    | num l =>
      cases h' with
      | num l' =>
        obtain ⟨htext, hrest⟩ := hr.append_inj hr' l.text_isNumeric l'.text_isNumeric heq
        obtain rfl := Literal.text_inj htext
        exact ⟨rfl, rfl, hrest⟩
      | _ => exact absurd hlead (by simp [Tree.lead])
    | str hx =>
      cases h' with
      | str hx' =>
        obtain ⟨rfl, rfl, hrest⟩ := hx.determinate hx' heq
        exact ⟨rfl, rfl, hrest⟩
      | _ => exact absurd hlead (by simp [Tree.lead])
    | arr hds =>
      cases h' with
      | arr hds' =>
        simp only [List.length_cons, List.length_append, List.length_nil] at hn
        simp only [List.append_assoc, List.cons_append, List.cons.injEq, true_and] at heq
        obtain ⟨rfl, rfl, hrest⟩ :=
          hds.determinate ih Spells.begins (.inl rfl) hds' (by omega) heq
        exact ⟨rfl, rfl, hrest⟩
      | _ => exact absurd hlead (by simp [Tree.lead])
    | obj hms =>
      cases h' with
      | obj hms' =>
        simp only [List.length_cons, List.length_append, List.length_nil] at hn
        simp only [List.append_assoc, List.cons_append, List.cons.injEq, true_and] at heq
        obtain ⟨rfl, rfl, hrest⟩ := hms.determinate (Member.determinate ih Spells.begins)
          Member.begins (.inr rfl) hms' (by omega) heq
        exact ⟨rfl, rfl, hrest⟩
      | _ => exact absurd hlead (by simp [Tree.lead])

/-- A text is one of a single document at most. -/
theorem Written.unique {d d' : Document} {s : List Char} (h : Written d s) (h' : Written d' s) :
    d = d' := by
  obtain @⟨g, t, g', hg, ht, hg'⟩ := h
  generalize heq : g ++ (t ++ g') = s at h'
  obtain @⟨e, u, e', he, hu, he'⟩ := h'
  have hstops : ∀ {g : List Char}, Spaces g → Stops isNumeric g := by
    intro g hg
    have hbracket := hg.stops (c := ']') (s := []) (by decide)
    intro c hc
    exact hbracket c (by rw [List.head?_append, hc]; rfl)
  exact ((Spells.determinate t.length).spaced Spells.begins hg he (Nat.le_refl _) ht hu
    (hstops hg') (hstops he') heq).1

end CodeTidy.Json
