import CodeTidy.Settings.Resolve
import Mathlib.Tactic.SplitIfs

/-!
# Merged layers

A user may set things in two layers, one on top of the other, which are merged into one layer before
they are resolved. `ofLayers_mergedWith` compares this with resolving the stack of the two layers.
Every field comes out the same but one. The indentation setting carries two things, and merging
keeps only one token of it: if the upper layer asks for tabs then a width below it is gone, and the
width is taken from the layers behind.
-/

namespace CodeTidy.Settings

variable {α : Type}

/-! ## One field of a stack -/

/-- What a stack sets first is what its topmost layer sets, if that sets anything. -/
theorem firstSet_cons (top : Overrides) (rest : List Overrides) (field : Overrides → Option α) :
    firstSet (top :: rest) field = (field top <|> firstSet rest field) := by
  unfold firstSet
  rw [List.findSome?_cons]
  cases field top <;> rfl

/-- A layer stands for two if it sets what the upper one sets or else what the lower one sets. -/
theorem firstSet_merged (field : Overrides → Option α) {lower upper merged : Overrides}
    (h : field merged = (field upper <|> field lower)) (rest : List Overrides) :
    firstSet (merged :: rest) field = firstSet (upper :: lower :: rest) field := by
  rw [firstSet_cons, firstSet_cons, firstSet_cons, h]
  cases field upper <;> rfl

/-! ## The width of the indentation -/

/-- The width that a layer gives, if it gives one. -/
def givenWidth (o : Overrides) : Option IndentSize := o.indentSize.bind IndentToken.size?

/-- Below a layer that asks for tabs a merged layer gives no width. -/
theorem givenWidth_mergedWith_tab (lower : Overrides) {upper : Overrides}
    (h : upper.indentSize = some .tab) : givenWidth (lower.mergedWith upper) = none := by
  unfold givenWidth Overrides.mergedWith
  rw [h]
  rfl

/-- A merged layer gives the width that the upper layer gives or else the one of the lower layer,
unless the upper layer asks for tabs. -/
theorem givenWidth_mergedWith (lower : Overrides) {upper : Overrides}
    (h : upper.indentSize ≠ some .tab) :
    givenWidth (lower.mergedWith upper) = (givenWidth upper <|> givenWidth lower) := by
  unfold givenWidth Overrides.mergedWith
  rcases hupper : upper.indentSize with _ | _ | _
  · rfl
  · rfl
  · exact absurd hupper h

/-- The width of a stack is the first one that a layer gives. -/
theorem ofLayers_indentWidth (layers : List Overrides) :
    (ofLayers layers).indentWidth = (firstSet layers givenWidth).getD .two := rfl

/-- Below a layer that asks for tabs the width is given by the next layer that gives one. -/
theorem indentWidth_below_tab {upper : Overrides} (h : upper.indentSize = some .tab)
    (lower : Overrides) (rest : List Overrides) :
    (ofLayers (upper :: lower :: rest)).indentWidth =
      (givenWidth lower).getD (ofLayers rest).indentWidth := by
  have hupper : givenWidth upper = none := by
    unfold givenWidth
    rw [h]
    rfl
  rw [ofLayers_indentWidth, ofLayers_indentWidth, firstSet_cons, firstSet_cons, hupper]
  cases givenWidth lower <;> rfl

/-- The width of a stack whose two topmost layers are merged. -/
theorem indentWidth_mergedWith (lower upper : Overrides) (rest : List Overrides) :
    (ofLayers (lower.mergedWith upper :: rest)).indentWidth =
      if upper.indentSize = some .tab then (ofLayers rest).indentWidth
      else (ofLayers (upper :: lower :: rest)).indentWidth := by
  split_ifs with h
  · rw [ofLayers_indentWidth, ofLayers_indentWidth, firstSet_cons,
      givenWidth_mergedWith_tab lower h]
    rfl
  · rw [ofLayers_indentWidth, ofLayers_indentWidth,
      firstSet_merged givenWidth (givenWidth_mergedWith lower h)]

/-! ## All fields -/

/-- A stack whose two topmost layers are merged resolves to what the stack resolves to, but below a
layer that asks for tabs the width comes from behind the two. -/
theorem ofLayers_mergedWith (lower upper : Overrides) (rest : List Overrides) :
    ofLayers (lower.mergedWith upper :: rest) =
      { ofLayers (upper :: lower :: rest) with
        indentWidth :=
          if upper.indentSize = some .tab then (ofLayers rest).indentWidth
          else (ofLayers (upper :: lower :: rest)).indentWidth } := by
  rw [← indentWidth_mergedWith]
  unfold ofLayers
  rw [firstSet_merged (·.indentSize) rfl, firstSet_merged (·.useTabs) rfl,
    firstSet_merged (·.singleQuote) rfl, firstSet_merged (·.semi) rfl,
    firstSet_merged (·.trailingComma) rfl, firstSet_merged (·.lineWrap) rfl,
    firstSet_merged (·.keywordCase) rfl, firstSet_merged (·.commaPosition) rfl,
    firstSet_merged (·.alignEntries) rfl, firstSet_merged (·.alignComments) rfl,
    firstSet_merged (·.indentTables) rfl]

/-- The upper layer asks for tabs, and the lower one gives a width other than `usual`. -/
def HidesWidth (upper lower : Overrides) (usual : IndentSize) : Prop :=
  upper.indentSize = some .tab ∧ ∃ size, lower.indentSize = some (.width size) ∧ size ≠ usual

/-- Merging the two topmost layers of a stack changes what it resolves to just if a width is hidden
by tabs that the layers behind do not give. -/
theorem ofLayers_mergedWith_eq_iff (lower upper : Overrides) (rest : List Overrides) :
    ofLayers (lower.mergedWith upper :: rest) = ofLayers (upper :: lower :: rest) ↔
      ¬HidesWidth upper lower (ofLayers rest).indentWidth := by
  -- the width is the only field in which the two can differ
  have hwidth : ofLayers (lower.mergedWith upper :: rest) = ofLayers (upper :: lower :: rest) ↔
      (ofLayers (lower.mergedWith upper :: rest)).indentWidth =
        (ofLayers (upper :: lower :: rest)).indentWidth := by
    refine ⟨congrArg Settings.indentWidth, ?_⟩
    intro h
    rw [indentWidth_mergedWith] at h
    rw [ofLayers_mergedWith, h]
  rw [hwidth, indentWidth_mergedWith]
  unfold HidesWidth
  by_cases htab : upper.indentSize = some .tab
  · rw [if_pos htab, indentWidth_below_tab htab]
    unfold givenWidth
    rcases lower.indentSize with _ | size | _ <;> simp [htab, IndentToken.size?, eq_comm]
  · rw [if_neg htab]
    exact iff_of_true rfl fun h => htab h.1

/-! ## The settings of a user for a language -/

/-- What a user's two layers resolve to for a language, without merging them. -/
def resolveStacked (upper lower : Overrides) (language : String) : Settings :=
  ofLayers [upper, lower, languageDefaults (Language.normalize language), globalDefaults]

/-- A layer that sets nothing makes no difference to the width. -/
theorem indentWidth_empty (rest : List Overrides) :
    (ofLayers ({} :: rest)).indentWidth = (ofLayers rest).indentWidth := rfl

/-- Merging two layers and resolving is resolving the stack of the two in every field but the width,
and in the width too unless the upper layer asks for tabs. Then the width is the one that the
language has by itself. So the two are the same just if no other width is hidden by tabs. -/
theorem resolve_mergedWith (lower upper : Overrides) (language : String) :
    resolve (lower.mergedWith upper) language =
      { resolveStacked upper lower language with
        indentWidth :=
          if upper.indentSize = some .tab then (ofLanguage language).indentWidth
          else (resolveStacked upper lower language).indentWidth } ∧
    (resolve (lower.mergedWith upper) language = resolveStacked upper lower language ↔
      ¬HidesWidth upper lower (ofLanguage language).indentWidth) := by
  unfold ofLanguage resolve resolveStacked
  rw [indentWidth_empty]
  exact ⟨ofLayers_mergedWith lower upper _, ofLayers_mergedWith_eq_iff lower upper _⟩

/-- A width of eight columns is lost below tabs: markup has two columns by itself. -/
theorem resolve_mergedWith_forgets :
    resolve (Overrides.mergedWith { indentSize := some (.width ⟨8, by decide, by decide⟩) }
        { indentSize := some .tab }) "html" ≠
      resolveStacked { indentSize := some .tab }
        { indentSize := some (.width ⟨8, by decide, by decide⟩) } "html" := by
  decide +kernel

end CodeTidy.Settings
