import CodeTidy.Proofs.Settings.Slots
import CodeTidy.Proofs.Table

/-!
# Settings bags

A settings bag is read member by member, but what comes out is decided field by field:
`readMembers_eq_ok_iff` says that a bag is accepted if no setting is given twice and each value
stands for something, and that each field is then what its value stands for. So neither the order
of the members matters nor any member whose key names no setting. What is written for overrides is
a bag that is read as these overrides (`ofJson_toJson`).
-/

namespace CodeTidy

/-- The data of members are the data of their values under their keys. -/
theorem Datum.ofMembers_eq_map (ms : List (String × Json)) :
    ofMembers ms = ms.map fun m => (m.1, ofJson m.2) := by
  induction ms with
  | nil => rfl
  | cons m ms ih =>
    obtain ⟨k, v⟩ := m
    rw [ofMembers, ih, List.map_cons]

namespace Overrides

variable {how : Datum.Notation} {o o' : Overrides} {seen : List Field} {key : String}
  {field : Field} {d : Datum} {rest : List (String × Datum)}

/-! ## Reading one member -/

/-- A member whose key names no setting is passed over. -/
theorem readMembers_unknown (hkey : Field.ofKey? key = none) :
    readMembers .json o seen ((key, d) :: rest) = readMembers .json o seen rest := by
  conv_lhs => unfold readMembers
  rw [hkey]

/-- A setting is read if it was not given before and its value can be set. The other members are
read on top of it. -/
theorem readMembers_field (hkey : Field.ofKey? key = some field) :
    readMembers how o seen ((key, d) :: rest) = .ok o' ↔
      field ∉ seen ∧
        ∃ o₁, setField how o field d = .ok o₁ ∧ readMembers how o₁ (field :: seen) rest = .ok o' := by
  conv_lhs => unfold readMembers
  rw [hkey]
  dsimp only
  by_cases hnew : field ∈ seen
  · rw [if_pos (by simpa using hnew)]
    simp [Datum.fail, hnew]
  · rw [if_neg (by simpa using hnew), and_iff_right hnew]
    cases setField how o field d <;> simp [Datum.within]

/-! ## Reading a bag -/

/-- The settings that members give, each with its value, in the order of the members. -/
def given (ms : List (String × Datum)) : List (Field × Datum) :=
  ms.filterMap fun m => (Field.ofKey? m.1).map fun f => (f, m.2)

/-- The overrides `o'` hold what a table of values stands for, and are as `o` elsewhere. -/
def Holds (table : List (Field × Datum)) (o o' : Overrides) : Prop :=
  ∀ f, match table.lookup f with
    | some d => f.valueOf .json d = .ok (o'.slot f)
    | none => o'.slot f = o.slot f

/-- A table with one more value in front is held if the value is set first, and the others then. -/
theorem holds_cons {table : List (Field × Datum)} (hnew : field ∉ table.map Prod.fst) :
    Holds ((field, d) :: table) o o' ↔
      ∃ o₁, setField .json o field d = .ok o₁ ∧ Holds table o₁ o' := by
  -- the table behind says nothing about the field, so what is set first is what stays
  have hself : table.lookup field = none := Table.lookup_eq_none_of_notMem hnew
  constructor
  · intro h
    have hfield := h field
    rw [Table.lookup_cons, if_pos rfl] at hfield
    obtain ⟨o₁, hset⟩ := exists_setField hfield o
    obtain ⟨hvalue, hframe⟩ := setField_eq_ok_iff.mp hset
    refine ⟨o₁, hset, ?_⟩
    intro g
    have hg := h g
    rw [Table.lookup_cons] at hg
    by_cases hgf : g = field
    · subst hgf
      rw [hself]
      exact Except.ok.inj (hfield.symm.trans hvalue)
    · rw [if_neg hgf] at hg
      rw [← hframe g hgf] at hg
      exact hg
  · rintro ⟨o₁, hset, h⟩ g
    obtain ⟨hvalue, hframe⟩ := setField_eq_ok_iff.mp hset
    have hg := h g
    rw [Table.lookup_cons]
    by_cases hgf : g = field
    · subst hgf
      rw [hself] at hg
      rw [if_pos rfl]
      dsimp only at hg ⊢
      rw [hvalue, hg]
    · rw [if_neg hgf, ← hframe g hgf]
      exact hg

/-- A bag is accepted if no setting is given twice, and gives overrides that hold its values. -/
theorem readMembers_eq_ok_iff {ms : List (String × Datum)} :
    readMembers .json o seen ms = .ok o' ↔
      (∀ f ∈ seen, f ∉ (given ms).map Prod.fst) ∧ Table.Distinct (given ms) ∧
        Holds (given ms) o o' := by
  -- by induction on the members; `seen` and what was set before vary, since a member adds to both
  induction ms generalizing o seen with
  | nil =>
    have hholds : Holds (given []) o o' ↔ o = o' := by
      constructor
      · intro h
        exact slot_ext fun f => (h f).symm
      · rintro rfl
        exact fun f => rfl
    rw [hholds]
    simp [readMembers, given, Table.Distinct]
  | cons m ms ih =>
    obtain ⟨key, d⟩ := m
    cases hkey : Field.ofKey? key with
    | none =>
      have hgiven : given ((key, d) :: ms) = given ms := by simp [given, hkey]
      rw [readMembers_unknown hkey, hgiven, ih]
    | some field =>
      have hgiven : given ((key, d) :: ms) = (field, d) :: given ms := by simp [given, hkey]
      rw [readMembers_field hkey, hgiven]
      simp only [ih]
      constructor
      · rintro ⟨hnew, o₁, hset, hseen, hdistinct, hholds⟩
        have hfresh := hseen field List.mem_cons_self
        refine ⟨?_, List.nodup_cons.mpr ⟨hfresh, hdistinct⟩,
          (holds_cons hfresh).mpr ⟨o₁, hset, hholds⟩⟩
        intro f hf hmem
        rcases List.mem_cons.mp hmem with rfl | hmem
        · exact hnew hf
        · exact hseen f (List.mem_cons_of_mem _ hf) hmem
      · rintro ⟨hseen, hdistinct, hholds⟩
        obtain ⟨hfresh, hdistinct⟩ := List.nodup_cons.mp hdistinct
        obtain ⟨o₁, hset, hholds⟩ := (holds_cons hfresh).mp hholds
        refine ⟨fun h => hseen field h List.mem_cons_self, o₁, hset, ?_, hdistinct, hholds⟩
        intro f hf hmem
        rcases List.mem_cons.mp hf with rfl | hf
        · exact hfresh hmem
        · exact hseen f hf (List.mem_cons_of_mem _ hmem)

/-- An object is accepted if its members are. -/
theorem ofJson_obj {ms : List (String × Json)} :
    ofJson (.obj ms) = .ok o ↔ readMembers .json {} [] (Datum.ofMembers ms) = .ok o := by
  unfold ofJson
  dsimp only
  cases readMembers .json {} [] (Datum.ofMembers ms) <;> simp

/-- An object is accepted if no setting is given twice, and sets what its values stand for. -/
theorem ofJson_obj_iff {ms : List (String × Json)} :
    ofJson (.obj ms) = .ok o ↔
      Table.Distinct (given (Datum.ofMembers ms)) ∧ Holds (given (Datum.ofMembers ms)) {} o := by
  rw [ofJson_obj, readMembers_eq_ok_iff]
  simp

/-! ## The order of the members -/

/-- The members of an object whose keys name settings. -/
def recognized (ms : List (String × Json)) : List (String × Json) :=
  ms.filter fun m => (Field.ofKey? m.1).isSome

/-- The other members give nothing. -/
theorem given_recognized (ms : List (String × Json)) :
    given (Datum.ofMembers (recognized ms)) = given (Datum.ofMembers ms) := by
  unfold given recognized
  rw [Datum.ofMembers_eq_map, Datum.ofMembers_eq_map, List.filterMap_map, List.filterMap_map,
    List.filterMap_filter]
  congr 1
  funext m
  cases h : Field.ofKey? m.1 <;> simp [h]

/-- Members with the same settings in another order give the same values. -/
theorem given_perm {ms ms' : List (String × Json)} (h : (recognized ms).Perm (recognized ms')) :
    (given (Datum.ofMembers ms)).Perm (given (Datum.ofMembers ms')) := by
  rw [← given_recognized ms, ← given_recognized ms', Datum.ofMembers_eq_map,
    Datum.ofMembers_eq_map]
  exact (h.map _).filterMap _

/-- An object with the same settings in another order, and with any other members, is read alike. -/
theorem ofJson_perm {ms ms' : List (String × Json)} (h : (recognized ms).Perm (recognized ms'))
    (hread : ofJson (.obj ms) = .ok o) : ofJson (.obj ms') = .ok o := by
  have hperm := given_perm h
  obtain ⟨hdistinct, hholds⟩ := ofJson_obj_iff.mp hread
  refine ofJson_obj_iff.mpr ⟨(hperm.map Prod.fst).nodup_iff.mp hdistinct, ?_⟩
  intro f
  rw [← hdistinct.lookup_perm hperm]
  exact hholds f

/-! ## Writing a bag -/

/-- There is a member for a field if its slot is filled. -/
theorem member_eq {α : Type} (key : String) (write : α → Json) (a? : Option α) :
    member key write a? = ((a?.map write).map fun j => (key, j)).toList := by
  cases a? <;> rfl

/-- What is written for overrides are their slots, in the order of the settings. -/
theorem toJson_eq (o : Overrides) :
    o.toJson = .obj (Field.all.filterMap fun f => (o.slot f).map fun j => (f.key, j)) := by
  unfold toJson Field.all
  simp only [member_eq, List.filterMap_eq_flatMap_toList, List.flatMap_cons, List.flatMap_nil,
    List.append_assoc, List.append_nil]
  rfl

/-- What is written for overrides gives each field what is in its slot. -/
theorem given_toJson (o : Overrides) :
    given (Datum.ofMembers (Field.all.filterMap fun f => (o.slot f).map fun j => (f.key, j))) =
      Table.ofKeys Field.all fun f => (o.slot f).map Datum.ofJson := by
  unfold given Table.ofKeys
  rw [Datum.ofMembers_eq_map, List.filterMap_map, List.filterMap_filterMap]
  congr 1
  funext f
  cases h : o.slot f <;> simp [Field.ofKey?_key, h]

/-- What is written for overrides is read as these overrides. -/
theorem ofJson_toJson (o : Overrides) : ofJson o.toJson = .ok o := by
  have hall : Field.all.Nodup := by decide
  rw [toJson_eq, ofJson_obj_iff, given_toJson]
  refine ⟨Table.distinct_ofKeys hall _, ?_⟩
  intro f
  rw [Table.lookup_ofKeys hall _ f.mem_all]
  cases h : o.slot f with
  | none => exact (slot_empty f).symm
  | some j => exact valueOf_slot h

/-- Settings bags and overrides go back and forth. What is written for overrides is read as these
overrides. An object that is accepted is read alike whatever the order of its members is and
whatever other members it has. So what is written for the overrides that a bag is read as is a
normal form of the bag: it is read alike, and it is the same for bags that are read alike. -/
theorem bag_round_trip :
    (∀ o : Overrides, ofJson o.toJson = .ok o) ∧
    (∀ ms ms' o, (recognized ms).Perm (recognized ms') → ofJson (.obj ms) = .ok o →
      ofJson (.obj ms') = .ok o) ∧
    ∀ bag bag' o o', ofJson bag = .ok o → ofJson bag' = .ok o' →
      ofJson o.toJson = ofJson bag ∧ (o.toJson = o'.toJson ↔ ofJson bag = ofJson bag') := by
  refine ⟨ofJson_toJson, ?_, ?_⟩
  · intro ms ms' o hperm hread
    exact ofJson_perm hperm hread
  · intro bag bag' o o' hbag hbag'
    refine ⟨(ofJson_toJson o).trans hbag.symm, ?_⟩
    rw [hbag, hbag']
    constructor
    · intro heq
      rw [← ofJson_toJson o, heq, ofJson_toJson o']
    · intro heq
      rw [Except.ok.inj heq]

/-- A bag with a member that names no setting, and the bag without it in reverse, are read alike, and
what is written for them is read alike too. -/
theorem bag_round_trip_reversed :
    let unknown : String × Json := ("unrelatedKey", .str "ignored")
    let settings : List (String × Json) :=
      [("indentSize", .str "tab"), ("quoteStyle", .bool true), ("lineWrap", .ofNat 120)]
    let o : Overrides :=
      { indentSize := some .tab, singleQuote := some true, lineWrap := some ⟨120, by decide⟩ }
    (recognized (unknown :: settings)).Perm (recognized settings.reverse) ∧
      ofJson (.obj (unknown :: settings)) = .ok o ∧ ofJson (.obj settings.reverse) = .ok o ∧
      ofJson o.toJson = ofJson (.obj (unknown :: settings)) := by
  intro unknown settings o
  have hperm : (recognized (unknown :: settings)).Perm (recognized settings.reverse) :=
    (List.reverse_perm settings).symm
  have hread : ofJson (.obj (unknown :: settings)) = .ok o := rfl
  have hreversed := bag_round_trip.2.1 (unknown :: settings) settings.reverse o hperm hread
  exact ⟨hperm, hread, hreversed, (bag_round_trip.2.2 _ _ o o hread hreversed).1⟩

end Overrides

end CodeTidy
