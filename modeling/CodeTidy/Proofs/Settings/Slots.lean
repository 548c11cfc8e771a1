import CodeTidy.Settings.Reading
import Mathlib.Data.Option.Basic

/-!
# The fields of overrides

A `slot` is what overrides hold for a field, in the form in which it is written. Overrides are told
by their slots (`slot_ext`). Setting a field from a value fails or puts what the value stands for in
the slot of the field, whatever the overrides held before, and leaves the other slots as they are
(`setField_eq_ok_iff`). What is written for a slot stands for just this slot (`valueOf_slot`).
-/

namespace CodeTidy

namespace Field

/-- Every setting is one of them. -/
theorem mem_all (f : Field) : f ∈ all := by
  cases f <;> decide

/-- A setting is found by its key. -/
theorem ofKey?_key (f : Field) : ofKey? f.key = some f := by
  cases f <;> decide

end Field

/-! ## Values tell themselves -/

/-- A token is told by what is written for it. -/
theorem IndentToken.toJson_injective : Function.Injective IndentToken.toJson := by
  rintro (⟨_, _, _⟩ | _) (⟨_, _, _⟩ | _) h
  · obtain rfl := Int.ofNat.inj (Json.Number.int.inj (Json.num.inj h))
    rfl
  · cases h
  · cases h
  · rfl

/-- A width is told by its columns. -/
theorem LineWidth.columns_injective : Function.Injective LineWidth.columns := by
  rintro ⟨_, _⟩ ⟨_, _⟩ rfl
  rfl

/-- A natural number is told by what is written for it. -/
theorem Json.ofNat_injective : Function.Injective Json.ofNat := by
  intro m n h
  exact Int.ofNat.inj (Json.Number.int.inj (Json.num.inj h))

/-- A policy for trailing commas is told by its name. -/
theorem TrailingComma.name_injective : Function.Injective TrailingComma.name := by
  rintro (_ | _ | _) (_ | _ | _) <;> decide

/-- A keyword case is told by its name. -/
theorem KeywordCase.name_injective : Function.Injective KeywordCase.name := by
  rintro (_ | _ | _) (_ | _ | _) <;> decide

/-- A comma position is told by its name. -/
theorem CommaPosition.name_injective : Function.Injective CommaPosition.name := by
  rintro (_ | _) (_ | _) <;> decide

namespace Overrides

/-! ## Slots -/

/-- What overrides hold for a field, as it is written, or nothing if the field is left open. -/
def slot (o : Overrides) : Field → Option Json
  | .indentSize => o.indentSize.map IndentToken.toJson
  | .useTabs => o.useTabs.map .bool
  | .singleQuote => o.singleQuote.map .bool
  | .semi => o.semi.map .bool
  | .trailingComma => o.trailingComma.map fun t => .str t.name
  | .lineWrap => o.lineWrap.map fun w => .ofNat w.columns
  | .keywordCase => o.keywordCase.map fun k => .str k.name
  | .commaPosition => o.commaPosition.map fun p => .str p.name
  | .alignEntries => o.alignEntries.map .bool
  | .alignComments => o.alignComments.map .bool
  | .indentTables => o.indentTables.map .bool

/-- Where nothing is set every slot is empty. -/
theorem slot_empty (f : Field) : ({} : Overrides).slot f = none := by
  cases f <;> rfl

/-- Overrides are told by their slots. -/
theorem slot_ext {o o' : Overrides} (h : ∀ f, o.slot f = o'.slot f) : o = o' := by
  -- each field is told by its slot, because what is written for a value tells the value
  have hbool : Function.Injective (Option.map Json.bool) :=
    Option.map_injective fun _ _ => Json.bool.inj
  have hname : ∀ {α : Type} {name : α → String}, Function.Injective name →
      Function.Injective (Option.map fun a => Json.str (name a)) :=
    fun hinj => Option.map_injective fun _ _ heq => hinj (Json.str.inj heq)
  have h1 := Option.map_injective IndentToken.toJson_injective (h .indentSize)
  have h2 := hbool (h .useTabs)
  have h3 := hbool (h .singleQuote)
  have h4 := hbool (h .semi)
  have h5 := hname TrailingComma.name_injective (h .trailingComma)
  have h6 := Option.map_injective (Json.ofNat_injective.comp LineWidth.columns_injective)
    (h .lineWrap)
  have h7 := hname KeywordCase.name_injective (h .keywordCase)
  have h8 := hname CommaPosition.name_injective (h .commaPosition)
  have h9 := hbool (h .alignEntries)
  have h10 := hbool (h .alignComments)
  have h11 := hbool (h .indentTables)
  obtain ⟨_, _, _, _, _, _, _, _, _, _, _⟩ := o
  obtain ⟨_, _, _, _, _, _, _, _, _, _, _⟩ := o'
  subst h1 h2 h3 h4 h5 h6 h7 h8 h9 h10 h11
  rfl

/-! ## Setting a field -/

/-- The overrides with one field as others have it. -/
def take (o other : Overrides) : Field → Overrides
  | .indentSize => { o with indentSize := other.indentSize }
  | .useTabs => { o with useTabs := other.useTabs }
  | .singleQuote => { o with singleQuote := other.singleQuote }
  | .semi => { o with semi := other.semi }
  | .trailingComma => { o with trailingComma := other.trailingComma }
  | .lineWrap => { o with lineWrap := other.lineWrap }
  | .keywordCase => { o with keywordCase := other.keywordCase }
  | .commaPosition => { o with commaPosition := other.commaPosition }
  | .alignEntries => { o with alignEntries := other.alignEntries }
  | .alignComments => { o with alignComments := other.alignComments }
  | .indentTables => { o with indentTables := other.indentTables }

/-- The slot of the field comes from the others. -/
theorem slot_take_self (o other : Overrides) (f : Field) :
    (o.take other f).slot f = other.slot f := by
  cases f <;> rfl

/-- The other slots stay. -/
theorem slot_take_ne (o other : Overrides) {f g : Field} (h : g ≠ f) :
    (o.take other f).slot g = o.slot g := by
  cases f <;> cases g <;> first | rfl | exact absurd rfl h

/-- What a field is set to does not depend on what the overrides hold. -/
theorem setField_eq (how : Datum.Notation) (o : Overrides) (f : Field) (d : Datum) :
    setField how o f d = (setField how {} f d).map fun other => o.take other f := by
  cases f
  -- in each case the value is read without a look at `o`, and only then put in its place
  all_goals
    unfold setField
    dsimp only
    generalize optional _ d = read
    cases read <;> rfl

end Overrides

/-- What a value stands for as the value of a field: the slot that it sets. -/
def Field.valueOf (how : Datum.Notation) (f : Field) (d : Datum) :
    Except Datum.Fault (Option Json) :=
  (Overrides.setField how {} f d).map fun o => o.slot f

namespace Overrides

variable {how : Datum.Notation} {o o' : Overrides} {f : Field} {d : Datum}

/-- A value that stands for something can be set. -/
theorem exists_setField {slot : Option Json} (h : f.valueOf how d = .ok slot) (o : Overrides) :
    ∃ o', setField how o f d = .ok o' := by
  unfold Field.valueOf at h
  rw [setField_eq]
  cases hset : setField how {} f d with
  | error fault =>
    rw [hset] at h
    cases h
  | ok other => exact ⟨_, rfl⟩

/-- A field is set if the value stands for what then is in its slot and the other slots stay. -/
theorem setField_eq_ok_iff :
    setField how o f d = .ok o' ↔
      f.valueOf how d = .ok (o'.slot f) ∧ ∀ g ≠ f, o'.slot g = o.slot g := by
  unfold Field.valueOf
  rw [setField_eq]
  cases setField how {} f d with
  | error fault => simp [Except.map]
  | ok other =>
    show Except.ok (o.take other f) = .ok o' ↔ Except.ok (other.slot f) = .ok (o'.slot f) ∧ _
    rw [Except.ok.injEq, Except.ok.injEq]
    constructor
    · rintro rfl
      exact ⟨(slot_take_self o other f).symm, fun g hg => slot_take_ne o other hg⟩
    · rintro ⟨hself, hframe⟩
      apply slot_ext
      intro g
      by_cases hg : g = f
      · rw [hg, slot_take_self, hself]
      · rw [slot_take_ne o other hg, hframe g hg]

end Overrides

/-! ## What is written for a slot -/

/-- A natural number of 64 bits is within the bounds of integers. -/
theorem Datum.natCast_in_bounds {n : Nat} (h : n < 0x10000000000000000) :
    (decide ((n : Int) < -0x8000000000000000) || decide (0x10000000000000000 ≤ (n : Int))) =
      false := by
  rw [Bool.or_eq_false_iff, decide_eq_false_iff_not, decide_eq_false_iff_not]
  omega

/-- A natural number of 64 bits asks for a width of that many columns. -/
theorem IndentToken.ofDatum_natCast {n : Nat} (h : n < 0x10000000000000000) :
    ofDatum (.int n) = ofNat n := by
  unfold ofDatum
  dsimp only
  rw [Datum.natCast_in_bounds h, if_neg Bool.false_ne_true, if_neg (by omega), Int.toNat_natCast]

/-- What is written for a token is read as the token. -/
theorem IndentToken.ofDatum_toJson (t : IndentToken) : ofDatum (Datum.ofJson t.toJson) = .ok t := by
  cases t with
  | width size =>
    obtain ⟨n, hone, height⟩ := size
    have hwidth : IndentSize.ofNat? n = some ⟨n, hone, height⟩ := dif_pos ⟨hone, height⟩
    refine (ofDatum_natCast (Nat.lt_of_le_of_lt height (by decide))).trans ?_
    unfold ofNat IndentSize.ofNat
    rw [hwidth]
    rfl
  | tab =>
    show ofText "tab" = _
    unfold ofText
    exact if_pos (by decide)

/-- What is written for a width is read as the width. -/
theorem LineWidth.ofDatum_columns (w : LineWidth) :
    ofDatum (Datum.ofJson (.ofNat w.columns)) = .ok w := by
  obtain ⟨n, hbound⟩ := w
  have hread : (Datum.int n).toNatural 0x10000000000000000 "usize" = .ok n := by
    unfold Datum.toNatural
    dsimp only
    rw [Datum.natCast_in_bounds hbound, if_neg Bool.false_ne_true, if_pos (by simp; omega),
      Int.toNat_natCast]
  show ofDatum (.int n) = _
  unfold ofDatum
  rw [hread]
  exact dif_pos hbound

/-- The name of a policy for trailing commas is read as the policy. -/
theorem TrailingComma.toVariant_name (t : TrailingComma) :
    Datum.toVariant .json named (Datum.ofJson (.str t.name)) = .ok t := by
  cases t <;> rfl

/-- The name of a keyword case is read as the case. -/
theorem KeywordCase.toVariant_name (k : KeywordCase) :
    Datum.toVariant .json named (Datum.ofJson (.str k.name)) = .ok k := by
  cases k <;> rfl

/-- The name of a comma position is read as the position. -/
theorem CommaPosition.toVariant_name (p : CommaPosition) :
    Datum.toVariant .json named (Datum.ofJson (.str p.name)) = .ok p := by
  cases p <;> rfl

namespace Overrides

/-- A value that is no null is read even where it may be left open. -/
theorem optional_eq {α : Type} (read : Datum → Except Datum.Fault α) {d : Datum} (hd : d ≠ .null) :
    optional read d = (read d).map some := by
  cases d <;> first | exact absurd rfl hd | rfl

/-- A value that is read as `a` and is no null sets a field to `a`. -/
theorem optional_of_read {α : Type} {read : Datum → Except Datum.Fault α} {d : Datum} {a : α}
    (hread : read d = .ok a) (hd : d ≠ .null) : optional read d = .ok (some a) := by
  rw [optional_eq read hd, hread]
  rfl

/-- What is in a slot is, as it is written, a value for the slot. -/
theorem valueOf_slot {o : Overrides} {f : Field} {j : Json} (h : o.slot f = some j) :
    f.valueOf .json (Datum.ofJson j) = .ok (some j) := by
  unfold Field.valueOf setField
  cases f with
  | indentSize =>
    obtain ⟨t, -, rfl⟩ := Option.map_eq_some_iff.mp h
    have hd : Datum.ofJson t.toJson ≠ .null := by cases t <;> nofun
    dsimp only
    rw [optional_of_read t.ofDatum_toJson hd]
    rfl
  | trailingComma =>
    obtain ⟨t, -, rfl⟩ := Option.map_eq_some_iff.mp h
    dsimp only
    rw [optional_of_read t.toVariant_name nofun]
    rfl
  | lineWrap =>
    obtain ⟨w, -, rfl⟩ := Option.map_eq_some_iff.mp h
    dsimp only
    rw [optional_of_read w.ofDatum_columns nofun]
    rfl
  | keywordCase =>
    obtain ⟨k, -, rfl⟩ := Option.map_eq_some_iff.mp h
    dsimp only
    rw [optional_of_read k.toVariant_name nofun]
    rfl
  | commaPosition =>
    obtain ⟨p, -, rfl⟩ := Option.map_eq_some_iff.mp h
    dsimp only
    rw [optional_of_read p.toVariant_name nofun]
    rfl
  | useTabs | singleQuote | semi | alignEntries | alignComments | indentTables =>
    obtain ⟨b, -, rfl⟩ := Option.map_eq_some_iff.mp h
    rfl

end Overrides

end CodeTidy
