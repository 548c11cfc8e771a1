import CodeTidy.Cli.Run
import CodeTidy.Proofs.Settings.Bag
import Mathlib.Tactic.SplitIfs

/-!
# The settings given on a command line

A command line can give the indentation, the quotes and the width of a line. They are read as a
settings bag, so a bag that is read sets just the fields that were given, each to what was given.
-/

namespace CodeTidy

/-- A width of a line that is read from a number has that number of columns. -/
theorem LineWidth.ofDatum_natCast {n : Nat} {width : LineWidth}
    (h : LineWidth.ofDatum (.int n) = .ok width) : width.columns = n := by
  unfold LineWidth.ofDatum Datum.toNatural at h
  dsimp only at h
  split_ifs at h with hwide hrange
  · cases h
  · dsimp only at h
    split_ifs at h with hbound
    · cases h
      exact Int.toNat_natCast n
    · cases h
  · cases h

namespace Overrides

variable {how : Datum.Notation} {o o' : Overrides} {seen : List Field} {key : String}
  {field : Field} {rest : List (String × Datum)}

/-- Sets a field if there is a value for it. -/
def setField? (how : Datum.Notation) (o : Overrides) (field : Field) :
    Option Datum → Except Datum.Fault Overrides
  | none => .ok o
  | some d => setField how o field d

/-- If members are read that may start with a field, the field is set if it is there, and the others
are read on top of it. -/
theorem readMembers_option {d? : Option Datum} (hkey : Field.ofKey? key = some field)
    (h : readMembers how o seen ((d?.map fun d => (key, d)).toList ++ rest) = .ok o') :
    ∃ o₁ seen', setField? how o field d? = .ok o₁ ∧ readMembers how o₁ seen' rest = .ok o' := by
  cases d? with
  | none => exact ⟨o, seen, rfl, h⟩
  | some d =>
    obtain ⟨-, o₁, hset, hrest⟩ := (readMembers_field hkey).mp h
    exact ⟨o₁, field :: seen, hset, hrest⟩

/-- A field that is set and not left open has been read. -/
theorem optional_bind {α : Type} (read : Datum → Except Datum.Fault α) {d : Datum}
    (set : Option α → Overrides)
    (h : (optional read d >>= fun a? => Except.ok (set a?)) = .ok o') (hd : d ≠ .null) :
    ∃ a, read d = .ok a ∧ o' = set (some a) := by
  rw [optional_eq read hd] at h
  cases hr : read d with
  | error f =>
    rw [hr] at h
    cases h
  | ok a =>
    rw [hr] at h
    cases h
    exact ⟨a, rfl, rfl⟩

/-- The indentation that may be set as a text is the token that the text writes. -/
theorem setField?_indentSize {text? : Option String} (hopen : o.indentSize = none)
    (h : setField? how o .indentSize (text?.map .str) = .ok o') :
    ∃ i : Option IndentToken, i.map .ok = text?.map IndentToken.ofText ∧
      o' = { o with indentSize := i } := by
  cases text? with
  | none =>
    cases h
    exact ⟨none, rfl, by rw [← hopen]⟩
  | some text =>
    obtain ⟨token, htoken, rfl⟩ :=
      optional_bind IndentToken.ofDatum (fun token? => { o with indentSize := token? }) h nofun
    exact ⟨some token, congrArg some htoken.symm, rfl⟩

/-- The quotes that may be set as a truth value are that value. -/
theorem setField?_singleQuote {b? : Option Bool} (hopen : o.singleQuote = none)
    (h : setField? how o .singleQuote (b?.map .bool) = .ok o') :
    o' = { o with singleQuote := b? } := by
  cases b? with
  | none =>
    cases h
    rw [← hopen]
  | some b =>
    cases h
    rfl

/-- The width of a line that may be set as a number has that number of columns. -/
theorem setField?_lineWrap {n? : Option Nat} (hopen : o.lineWrap = none)
    (h : setField? how o .lineWrap (n?.map fun (n : Nat) => .int n) = .ok o') :
    ∃ w : Option LineWidth, w.map LineWidth.columns = n? ∧ o' = { o with lineWrap := w } := by
  cases n? with
  | none =>
    cases h
    exact ⟨none, rfl, by rw [← hopen]⟩
  | some n =>
    obtain ⟨width, hwidth, rfl⟩ :=
      optional_bind LineWidth.ofDatum (fun width? => { o with lineWrap := width? }) h nofun
    exact ⟨some width, congrArg some (LineWidth.ofDatum_natCast hwidth), rfl⟩

end Overrides

namespace Cli

open Overrides

/-- The overrides say what a command line gives: the indentation that its text writes, single quotes
if they are asked for and the width of a line, and nothing about any other field. -/
structure FormatArguments.Gives (a : FormatArguments) (given : Overrides) : Prop where
  indent : given.indentSize.map .ok = a.indent.map IndentToken.ofText
  quote : given.singleQuote = if a.singleQuote then some true else none
  wrap : given.lineWrap.map LineWidth.columns = a.lineWrap
  others : given =
    { indentSize := given.indentSize, singleQuote := given.singleQuote, lineWrap := given.lineWrap }

/-- The settings that a command line gives, as the members of a map. -/
def FormatArguments.members (a : FormatArguments) : List (String × Datum) :=
  let quote := if a.singleQuote then some true else none
  ((a.indent.map .str).map fun d => ("indentSize", d)).toList ++
    (((quote.map .bool).map fun d => ("singleQuote", d)).toList ++
      (((a.lineWrap.map fun (n : Nat) => .int n).map fun d => ("lineWrap", d)).toList ++ []))

/-- If the settings given are accepted, their members are read. -/
theorem FormatArguments.readMembers_members {a : FormatArguments} {given : Overrides}
    (h : Overrides.ofJson a.bag = .ok given) : readMembers .json {} [] a.members = .ok given := by
  obtain ⟨path, language, indent, singleQuote, lineWrap, stats⟩ := a
  cases indent <;> cases singleQuote <;> cases lineWrap <;> exact ofJson_obj.mp h

/-- Overrides that are read off a command line say what it gives. -/
theorem FormatArguments.gives_of_bag {a : FormatArguments} {given : Overrides}
    (h : Overrides.ofJson a.bag = .ok given) : a.Gives given := by
  have hindentKey : Field.ofKey? "indentSize" = some .indentSize := by decide
  have hquoteKey : Field.ofKey? "singleQuote" = some .singleQuote := by decide
  have hwrapKey : Field.ofKey? "lineWrap" = some .lineWrap := by decide
  -- The fields are read in this order, each on top of what was read before it.
  obtain ⟨o₁, seen₁, hset₁, hread⟩ := readMembers_option hindentKey (readMembers_members h)
  obtain ⟨i, hi, rfl⟩ := setField?_indentSize rfl hset₁
  obtain ⟨o₂, seen₂, hset₂, hread⟩ := readMembers_option hquoteKey hread
  obtain rfl := setField?_singleQuote rfl hset₂
  obtain ⟨o₃, seen₃, hset₃, hread⟩ := readMembers_option hwrapKey hread
  obtain ⟨w, hw, rfl⟩ := setField?_lineWrap rfl hset₃
  cases hread
  exact ⟨hi, rfl, hw, rfl⟩

/-- `user` is `base` with what a command line gives laid over it: a field that is given wins, and
every other field is that of `base`. -/
structure FormatArguments.Overlays (a : FormatArguments) (base user : Overrides) : Prop where
  indent : user.indentSize.map .ok =
    (a.indent.map IndentToken.ofText <|> base.indentSize.map .ok)
  quote : user.singleQuote = if a.singleQuote then some true else base.singleQuote
  wrap : user.lineWrap.map LineWidth.columns =
    (a.lineWrap <|> base.lineWrap.map LineWidth.columns)
  others : user = { base with
    indentSize := user.indentSize, singleQuote := user.singleQuote, lineWrap := user.lineWrap }

/-- Overrides are laid over others by merging. -/
theorem FormatArguments.Gives.overlays {a : FormatArguments} {given : Overrides} (h : a.Gives given)
    (base : Overrides) : a.Overlays base (base.mergedWith given) := by
  obtain ⟨hindent, hquote, hwrap, hothers⟩ := h
  refine ⟨?_, ?_, ?_, ?_⟩
  · show (given.indentSize <|> base.indentSize).map Except.ok = _
    rw [← hindent]
    cases given.indentSize <;> rfl
  · show (given.singleQuote <|> base.singleQuote) = _
    rw [hquote]
    cases a.singleQuote <;> rfl
  · show (given.lineWrap <|> base.lineWrap).map LineWidth.columns = _
    rw [← hwrap]
    cases given.lineWrap <;> rfl
  · rw [hothers]
    rfl

end Cli

end CodeTidy
