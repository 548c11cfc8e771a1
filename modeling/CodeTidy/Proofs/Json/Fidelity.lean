import CodeTidy.Backend.Plugin
import CodeTidy.Proofs.Json.Printing
import CodeTidy.Proofs.Json.Reading
import CodeTidy.Settings.Resolve
import Mathlib.Data.List.Nodup
import Mathlib.Tactic.Linarith

/-!
# What formatting keeps of the data

The JSON plugin reads a text into a value and writes the value. `format_spec` says that the text is
one of a document, and the output one of the document that is left of it. `data_formatted` tells
which documents keep their data: those without a key that occurs twice in an object, and with
numbers that are not changed by reading and writing them. Integers of 64 bits are not.
-/

namespace CodeTidy.Json

/-! ## Members -/

section
variable {α : Type}

/-- A key that is there keeps its place. -/
theorem keys_setMember_of_mem {k : String} {ms : List (String × α)} (h : k ∈ ms.map Prod.fst)
    (v : α) : (setMember k v ms).map Prod.fst = ms.map Prod.fst := by
  induction ms with
  | nil => exact absurd h List.not_mem_nil
  | cons m ms ih =>
    obtain ⟨k', v'⟩ := m
    unfold setMember
    split_ifs with hk
    · rfl
    · rw [List.map_cons, List.mem_cons] at h
      have hmem := h.resolve_left fun heq => hk (beq_iff_eq.mpr heq.symm)
      rw [List.map_cons, List.map_cons, ih hmem]

/-- A key that is not there goes to the end. -/
theorem setMember_of_not_mem {k : String} {ms : List (String × α)} (h : k ∉ ms.map Prod.fst)
    (v : α) : setMember k v ms = ms ++ [(k, v)] := by
  induction ms with
  | nil => rfl
  | cons m ms ih =>
    obtain ⟨k', v'⟩ := m
    rw [List.map_cons, List.mem_cons, not_or] at h
    unfold setMember
    rw [if_neg fun heq => h.1 (beq_iff_eq.mp heq).symm, ih h.2, List.cons_append]

/-- No key is there twice after a key is set. -/
theorem nodup_setMember {ms : List (String × α)} (h : (ms.map Prod.fst).Nodup) (k : String)
    (v : α) : ((setMember k v ms).map Prod.fst).Nodup := by
  by_cases hk : k ∈ ms.map Prod.fst
  · rwa [keys_setMember_of_mem hk]
  · rw [setMember_of_not_mem hk, List.map_append]
    exact h.append (List.nodup_singleton k) (List.disjoint_singleton.mpr hk)

end

/-- No key is kept twice. -/
theorem nodup_gather (ms : List (String × Json)) : ((gather ms).map Prod.fst).Nodup := by
  have hfold : ∀ {done : List (String × Json)}, (done.map Prod.fst).Nodup →
      ((ms.foldl (fun done m => setMember m.1 m.2 done) done).map Prod.fst).Nodup := by
    induction ms with
    | nil => exact id
    | cons m ms ih => exact fun h => ih (nodup_setMember h m.1 m.2)
  exact hfold List.nodup_nil

/-- Members with different keys are kept as they are. -/
theorem gather_of_nodup {ms : List (String × Json)} (h : (ms.map Prod.fst).Nodup) :
    gather ms = ms := by
  have hfold : ∀ {done : List (String × Json)}, ((done ++ ms).map Prod.fst).Nodup →
      ms.foldl (fun done m => setMember m.1 m.2 done) done = done ++ ms := by
    induction ms with
    | nil => exact fun _ => (List.append_nil _).symm
    | cons m ms ih =>
      intro done hdone
      have hm : m.1 ∉ done.map Prod.fst := by
        rw [List.map_append, List.map_cons] at hdone
        exact fun hmem => List.disjoint_of_nodup_append hdone hmem (List.mem_cons_self ..)
      rw [List.append_cons] at hdone ⊢
      rw [List.foldl_cons, setMember_of_not_mem hm]
      exact ih (List.nodup_cons.mp h).2 hdone
  exact hfold (by rwa [List.nil_append])

/-! ## Data -/

/-- A literal keeps its value: the number that is read is written as a decimal of the value. -/
def Literal.Kept (l : Literal) : Prop := l.number.decimal = l.value

/-- An integer of 64 bits, with or without sign. -/
structure Literal.Fits (l : Literal) : Prop where
  fraction : l.fraction = []
  exponent : l.exponent = none
  lower : -2 ^ 63 ≤ l.value
  upper : l.value < 2 ^ 64

/-- What is left of a document when it has been read and written. -/
noncomputable def Document.formatted (d : Document) : Document := document (Document.read d)

/-- A document keeps its data if and only if its numbers keep their values and no object has a key
twice. -/
theorem data_formatted (d : Document) :
    d.formatted.data = d.data ↔ d.Plain Literal.Kept := by
  unfold Document.formatted Document.data
  induction d using Tree.induction with
  | num l =>
    rw [Document.read, document, Tree.map, Tree.map, Tree.Plain, Number.literal_value]
    exact ⟨fun h => Tree.num.inj h, fun h => congrArg Tree.num h⟩
  | arr ds ih =>
    rw [Document.read, document, Tree.map, Tree.map, Tree.Plain]
    have hitems : ((ds.map Document.read).map document).map (Tree.map Literal.value) =
        ds.map (Tree.map Literal.value) ↔ ∀ d ∈ ds, d.Plain Literal.Kept := by
      rw [List.map_map, List.map_map, List.map_inj_left]
      exact forall₂_congr ih
    exact ⟨fun h => hitems.mp (Tree.arr.inj h), fun h => congrArg Tree.arr (hitems.mpr h)⟩
  | obj ms ih =>
    rw [Document.read, document, Tree.map, Tree.map, Tree.Plain, Tree.obj.injEq]
    have hkeys : (ms.map fun m => (m.1, Document.read m.2)).map Prod.fst = ms.map Prod.fst := by
      rw [List.map_map]
      rfl
    constructor
    · -- The keys that are kept are different, so these are all keys, and nothing was merged.
      intro h
      have hnodup : (ms.map Prod.fst).Nodup := by
        have hfst := congrArg (List.map Prod.fst) h
        simp only [List.map_map] at hfst
        have hkept := nodup_gather (ms.map fun m => (m.1, Document.read m.2))
        rwa [show (gather (ms.map fun m => (m.1, Document.read m.2))).map Prod.fst = ms.map Prod.fst
          from hfst] at hkept
      rw [gather_of_nodup (hkeys ▸ hnodup), List.map_map, List.map_map, List.map_inj_left] at h
      exact ⟨hnodup, fun m hm => (ih m hm).mp (Prod.mk.inj (h m hm)).2⟩
    · rintro ⟨hnodup, hms⟩
      rw [gather_of_nodup (hkeys ▸ hnodup), List.map_map, List.map_map, List.map_inj_left]
      exact fun m hm => congrArg (Prod.mk m.1) ((ih m hm).mpr (hms m hm))
  | _ =>
    rw [Document.read, document, Tree.map, Tree.Plain]
    exact iff_of_true rfl trivial

/-! ## Integers -/

/-- Digits of a number of 64 bits are all added. -/
theorem addDigits_of_le {n : ℕ} {ds : List Char} (h : Nat.ofDigitChars 10 ds n ≤ maxNatural) :
    addDigits n ds = (Nat.ofDigitChars 10 ds n, ds.length, 0) := by
  induction ds generalizing n with
  | nil => rfl
  | cons d ds ih =>
    rw [Nat.ofDigitChars_cons] at h
    have hfirst : n * 10 + (d.toNat - '0'.toNat) ≤ maxNatural := by
      rw [Nat.ofDigitChars_eq_ofDigitChars_zero] at h
      have hpos := Nat.one_le_pow ds.length 10 (by decide)
      have hmul := Nat.mul_le_mul_right (10 * n + (d.toNat - '0'.toNat)) hpos
      omega
    unfold addDigits
    dsimp only
    rw [if_pos hfirst, Nat.mul_comm n 10, ih h, Nat.ofDigitChars_cons]
    rfl

/-- A zero with a sign is written as nothing. -/
theorem decimal_negative_zero : (Number.real (-(0 : ℕ).toUInt64.toFloat)).decimal = 0 := by
  have hmantissa : (Decimal.Binary.ofFloat (-(0 : ℕ).toUInt64.toFloat)).mantissa = 0 := by
    decide +kernel
  unfold Number.decimal Decimal.Binary.shortest signed
  dsimp only
  rw [hmantissa, if_pos (by rfl)]
  simp

/-- An integer of 64 bits is read as it is, but a zero with a sign as a floating-point number. -/
theorem Literal.Fits.number_cases {l : Literal} (h : l.Fits) :
    (∃ z : ℤ, l.number = .int z ∧ l.value = z) ∨
      l.negative = true ∧ l.number = .real (-(0 : ℕ).toUInt64.toFloat) ∧ l.value = 0 := by
  generalize hn : Nat.ofDigitChars 10 l.whole 0 = n
  have hvalue : l.value = signed l.negative n := by
    have hpower : l.value = signed l.negative (n * 10 ^ (0 : ℤ)) := by
      refine Literal.value_eq ?_ ?_
      · rw [h.fraction, List.append_nil, hn]
      · rw [h.fraction, h.exponent]
        rfl
    rwa [zpow_zero, mul_one] at hpower
  have hlower := h.lower
  have hupper := h.upper
  rw [hvalue] at hlower hupper ⊢
  have hadd : n ≤ maxNatural → addDigits 0 l.whole = (n, l.whole.length, 0) := by
    rw [← hn]
    exact addDigits_of_le
  cases hsign : l.negative with
  | false =>
    simp only [hsign, signed, Bool.false_eq_true, if_false] at hupper ⊢
    have hle : n ≤ maxNatural := by
      have hlt : n < 2 ^ 64 := by exact_mod_cast hupper
      unfold maxNatural
      omega
    rw [Literal.number_integer h.fraction h.exponent (by rw [hadd hle]), hadd hle, hsign]
    exact .inl ⟨n, rfl, rfl⟩
  | true =>
    simp only [hsign, signed, if_true] at hlower ⊢
    have hle : n ≤ 0x8000000000000000 := by
      have hcast : (n : ℚ) ≤ (2 ^ 63 : ℕ) := by
        push_cast
        linarith
      exact_mod_cast hcast
    have hle' : n ≤ maxNatural := by
      unfold maxNatural
      omega
    rw [Literal.number_integer h.fraction h.exponent (by rw [hadd hle']), hadd hle', hsign,
      if_neg (by decide)]
    split_ifs with hlarge
    · -- Only zero is left.
      simp only [Bool.or_eq_true, beq_iff_eq, decide_eq_true_eq] at hlarge
      obtain rfl : n = 0 := by omega
      exact .inr ⟨trivial, rfl, by simp⟩
    · exact .inl ⟨-n, rfl, by push_cast; rfl⟩

/-- Integers of 64 bits keep their values. -/
theorem Literal.Fits.kept {l : Literal} (h : l.Fits) : l.Kept := by
  unfold Literal.Kept
  rcases h.number_cases with ⟨z, hnumber, hvalue⟩ | ⟨-, hnumber, hvalue⟩
  · rw [hnumber, hvalue]
    rfl
  · rw [hnumber, hvalue, decimal_negative_zero]

example : ¬(intLiteral 18446744073709551617).Kept := by
  unfold Literal.Kept
  decide +kernel

/-- The literal of an integer of 64 bits is one. -/
theorem fits_intLiteral {n : ℤ} (h : -2 ^ 63 ≤ n ∧ n < 2 ^ 64) : (intLiteral n).Fits where
  fraction := rfl
  exponent := rfl
  lower := by
    rw [intLiteral_value]
    exact_mod_cast h.1
  upper := by
    rw [intLiteral_value]
    exact_mod_cast h.2

/-- The literal of an integer of 64 bits is read as the integer. -/
theorem number_intLiteral {n : ℤ} (h : -2 ^ 63 ≤ n ∧ n < 2 ^ 64) :
    (intLiteral n).number = .int n := by
  have hvalue := intLiteral_value n
  rcases (fits_intLiteral h).number_cases with ⟨z, hnumber, hz⟩ | ⟨hsign, -, hz⟩
  · rw [hnumber, Int.cast_injective (hz.symm.trans hvalue)]
  · -- An integer with a sign is not zero.
    have hzero : n = 0 := by exact_mod_cast hvalue.symm.trans hz
    rw [hzero] at hsign
    exact absurd hsign (by decide)

/-- All numbers are integers of 64 bits, and no object has a key twice. -/
def Plain : Json → Prop
  | .null | .bool _ | .str _ => True
  | .num (.int n) => -2 ^ 63 ≤ n ∧ n < 2 ^ 64
  | .num (.real _) => False
  | .arr vs => ∀ v ∈ vs, Plain v
  | .obj ms => (ms.map Prod.fst).Nodup ∧ ∀ m ∈ ms, Plain m.2
termination_by v => v
decreasing_by
  · decreasing_tactic
  · rw [Json.obj.sizeOf_spec]
    exact sizeOf_member_lt ‹_›

/-- A plain value is read from its document. -/
theorem read_document {v : Json} (h : v.Plain) : Document.read (document v) = v := by
  induction v using Json.induction with
  | num n =>
    cases n with
    | int n =>
      rw [Plain] at h
      rw [document, Document.read, Number.literal_int, number_intLiteral h]
    | real x =>
      rw [Plain] at h
      exact h.elim
  | arr vs ih =>
    rw [Plain] at h
    rw [document, Document.read, List.map_map]
    have hvs : vs.map (Document.read ∘ document) = vs.map id :=
      List.map_congr_left fun v hv => ih v hv (h v hv)
    rw [List.map_id] at hvs
    exact congrArg Json.arr hvs
  | obj ms ih =>
    rw [Plain] at h
    rw [document, Document.read, List.map_map]
    have hms : ms.map ((fun m => (m.1, Document.read m.2)) ∘ fun m => (m.1, document m.2)) =
        ms.map id :=
      List.map_congr_left fun m hm => congrArg (Prod.mk m.1) (ih m hm (h.2 m hm))
    rw [List.map_id] at hms
    rw [hms, gather_of_nodup h.1]
  | _ => rw [document, Document.read]

/-- The document of a plain value has integers of 64 bits, and no object with a key twice. -/
theorem plain_document {v : Json} (h : v.Plain) : (document v).Plain Literal.Fits := by
  induction v using Json.induction with
  | num n =>
    cases n with
    | int n =>
      rw [Plain] at h
      rw [document, Tree.Plain, Number.literal_int]
      exact fits_intLiteral h
    | real x =>
      rw [Plain] at h
      exact h.elim
  | arr vs ih =>
    rw [Plain] at h
    rw [document, Tree.Plain, List.forall_mem_map]
    exact fun v hv => ih v hv (h v hv)
  | obj ms ih =>
    rw [Plain] at h
    rw [document, Tree.Plain, List.forall_mem_map, List.map_map]
    exact ⟨h.1, fun m hm => ih m hm (h.2 m hm)⟩
  | _ =>
    rw [document, Tree.Plain]
    trivial

/-! ## The plugin -/

/-- A unit of indentation is white space. -/
theorem spaces_indentUnit (settings : Settings) : Spaces settings.indentUnit := by
  unfold Settings.indentUnit
  split_ifs
  · intro c hc
    rw [List.mem_singleton.mp hc]
    decide
  · intro c hc
    rw [List.eq_of_mem_replicate hc]
    decide

/-- A line break is white space. -/
theorem spaces_lineBreak : Spaces ['\n'] := by
  intro c hc
  rw [List.mem_singleton.mp hc]
  decide

/-- A form of a value in a text of its own, with a line break behind it. -/
theorem written_pretty {unit : List Char} (hunit : Spaces unit) (v : Json) :
    Written (document v) (pretty unit 0 v ++ ['\n']) := by
  have hspells := spells_spaced (Spacing.blank_indented hunit) 0 v
  rw [pretty_eq]
  exact .mk spaces_nil hspells spaces_lineBreak

/-- What the plugin accepts is a text of a document, and what it writes is a text of what is left of
the document. -/
theorem format_spec {r : Request} {out : String} (h : Plugin.json.format r = .ok out) :
    ∃ d : Document, Written d r.code.toList ∧ Written d.formatted out.toList := by
  unfold Plugin.json at h
  dsimp only at h
  split at h
  · rename_i v hv
    obtain ⟨d, hd, rfl⟩ := parse_spec hv
    obtain rfl := Except.ok.inj h
    refine ⟨d, hd, ?_⟩
    rw [String.toList_ofList]
    exact written_pretty (spaces_indentUnit r.settings) (Document.read d)
  · exact absurd h nofun

/-- The texts of a document are told from those of all others. -/
theorem Written.iff {d : Document} {s : List Char} (h : Written d s) (e : Document) :
    Written e s ↔ e = d :=
  ⟨fun he => he.unique h, fun he => he ▸ h⟩

/-- A text that the plugin accepts is one of a single document, and so is what it writes. The two
have the same data, with every item and every member in its place, the same strings and the same
values of numbers, if and only if no object of the text has a key twice and each number keeps its
value. Integers of 64 bits do. -/
theorem format_keeps_data {r : Request} {out : String} (h : Plugin.json.format r = .ok out) :
    ∃ d d' : Document, (∀ e, Written e r.code.toList ↔ e = d) ∧
      (∀ e, Written e out.toList ↔ e = d') ∧
      (d'.data = d.data ↔ d.Plain Literal.Kept) ∧ (d.Plain Literal.Fits → d'.data = d.data) := by
  obtain ⟨d, hd, hd'⟩ := format_spec h
  have hdata := data_formatted d
  refine ⟨d, d.formatted, hd.iff, hd'.iff, hdata, fun hfits => hdata.mpr ?_⟩
  exact Tree.Plain.imp (fun l => Literal.Fits.kept) d hfits

/-- A compact form is a text of the document of its value. -/
theorem written_compact (v : Json) : Written (document v) (compact v) := by
  have hspells := spells_spaced Spacing.blank_compact 0 v
  rw [compact_eq v 0, ← List.append_nil (spaced .compact 0 v)]
  exact .mk spaces_nil hspells spaces_nil

/-- A result that is there is the one of a success. -/
theorem eq_ok_of_toOption {ε α : Type} {x : Except ε α} {a : α} (h : x.toOption = some a) :
    x = .ok a := by
  cases x with
  | error e => exact absurd h (Option.some_ne_none a).symm
  | ok b => rw [Option.some.inj h]

/-- An object with two keys is kept. -/
theorem format_keeps_data_members :
    ∃ d d' : Document, Written d "\x7b\"a\":1,\"b\":2\x7d".toList ∧
      Written d' "\x7b\n  \"a\": 1,\n  \"b\": 2\n\x7d\n".toList ∧ d'.data = d.data := by
  have hformat : Plugin.json.format ⟨"\x7b\"a\":1,\"b\":2\x7d", "json", Settings.usual⟩ =
      .ok "\x7b\n  \"a\": 1,\n  \"b\": 2\n\x7d\n" :=
    eq_ok_of_toOption (by decide +kernel)
  obtain ⟨d, d', hd, hd', -, hfits⟩ := format_keeps_data hformat
  refine ⟨d, d', (hd d).mpr rfl, (hd' d').mpr rfl, hfits ?_⟩
  have hcode := written_compact (.obj [("a", .ofNat 1), ("b", .ofNat 2)])
  have htext : compact (.obj [("a", .ofNat 1), ("b", .ofNat 2)]) =
      "\x7b\"a\":1,\"b\":2\x7d".toList := by decide +kernel
  rw [htext] at hcode
  rw [← (hd _).mp hcode]
  refine plain_document ?_
  simp [Plain, ofNat]

/-- An object with the same key twice is not: only the second member is left. -/
theorem format_merges_members :
    ∃ d d' : Document,
      Plugin.json.format ⟨"\x7b\"a\":1,\"a\":2\x7d", "json", Settings.usual⟩ =
        .ok "\x7b\n  \"a\": 2\n\x7d\n" ∧
      (∀ e, Written e "\x7b\"a\":1,\"a\":2\x7d".toList ↔ e = d) ∧
      (∀ e, Written e "\x7b\n  \"a\": 2\n\x7d\n".toList ↔ e = d') ∧ d'.data ≠ d.data := by
  have hformat : Plugin.json.format ⟨"\x7b\"a\":1,\"a\":2\x7d", "json", Settings.usual⟩ =
      .ok "\x7b\n  \"a\": 2\n\x7d\n" := eq_ok_of_toOption (by decide +kernel)
  obtain ⟨d, hd, hd'⟩ := format_spec hformat
  have hcode := written_compact (.obj [("a", .ofNat 1), ("a", .ofNat 2)])
  have htext : compact (.obj [("a", .ofNat 1), ("a", .ofNat 2)]) =
      "\x7b\"a\":1,\"a\":2\x7d".toList := by decide +kernel
  rw [htext] at hcode
  obtain rfl := hcode.unique hd
  refine ⟨_, _, hformat, hd.iff, hd'.iff, fun hdata => ?_⟩
  have hplain := (data_formatted _).mp hdata
  rw [document, Tree.Plain] at hplain
  exact absurd hplain.1 (by decide)

end CodeTidy.Json
