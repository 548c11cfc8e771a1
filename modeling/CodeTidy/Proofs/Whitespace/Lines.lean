import CodeTidy.Whitespace.Layout
import Mathlib.Data.List.DropRight
import Mathlib.Data.List.TakeWhile
import Mathlib.Tactic.SplitIfs

/-!
# Which lines come out

The lines of a result are those of the text, in their order, each treated on its own in the state in
which the scan enters it. Some may be left out, but only spare ones. `Emits` puts the two lists side
by side, and says of each line either what comes out of it or why it may go.
-/

namespace CodeTidy.Whitespace

/-- The elements of the second list come from those of the first, in their order. An element shows
as one element, or it is left out. -/
inductive Emits {α β : Type} (Shows : α → β → Prop) (Skips : α → Prop) : List α → List β → Prop
  | nil : Emits Shows Skips [] []
  | emit {x : α} {y : β} {xs : List α} {ys : List β} (h : Shows x y)
    (hs : Emits Shows Skips xs ys) : Emits Shows Skips (x :: xs) (y :: ys)
  | skip {x : α} {xs : List α} {ys : List β} (h : Skips x) (hs : Emits Shows Skips xs ys) :
    Emits Shows Skips (x :: xs) ys

namespace Emits

variable {α β γ : Type} {Shows : α → β → Prop} {Skips : α → Prop}

/-- A list comes from itself. -/
theorem refl (Skips : α → Prop) (xs : List α) : Emits (fun x y => y = x) Skips xs xs := by
  induction xs with
  | nil => exact .nil
  | cons x xs ih => exact .emit rfl ih

/-- Each element shows as what a function makes of it. -/
theorem map (f : α → β) (xs : List α) :
    Emits (fun x y => y = f x) (fun _ => False) xs (xs.map f) := by
  induction xs with
  | nil => exact .nil
  | cons x xs ih => exact .emit rfl ih

/-- All elements are left out. -/
theorem skip_all {xs : List α} (h : ∀ x ∈ xs, Skips x) : Emits Shows Skips xs [] := by
  induction xs with
  | nil => exact .nil
  | cons x xs ih =>
    exact .skip (h x List.mem_cons_self) (ih fun y hy => h y (List.mem_cons_of_mem _ hy))

/-- Lists that come from lists may be put one behind the other. -/
theorem append {xs xs' : List α} {ys ys' : List β} (h : Emits Shows Skips xs ys)
    (h' : Emits Shows Skips xs' ys') : Emits Shows Skips (xs ++ xs') (ys ++ ys') := by
  induction h with
  | nil => exact h'
  | emit hshow _ ih => exact .emit hshow ih
  | skip hskip _ ih => exact .skip hskip ih

/-- What comes from a list that comes from another comes from that. -/
theorem comp {Shows' : β → γ → Prop} {Skips' : β → Prop} {Shows'' : α → γ → Prop}
    {Skips'' : α → Prop} {xs : List α} {ys : List β} {zs : List γ}
    (h : Emits Shows Skips xs ys) (h' : Emits Shows' Skips' ys zs)
    (hshow : ∀ x y z, Shows x y → Shows' y z → Shows'' x z)
    (hskip : ∀ x, Skips x → Skips'' x) (hskip' : ∀ x y, Shows x y → Skips' y → Skips'' x) :
    Emits Shows'' Skips'' xs zs := by
  induction h generalizing zs with
  | nil =>
    cases h'
    exact .nil
  | emit hfirst _ ih =>
    cases h' with
    | emit hsecond hrest => exact .emit (hshow _ _ _ hfirst hsecond) (ih hrest)
    | skip hsecond hrest => exact .skip (hskip' _ _ hfirst hsecond) (ih hrest)
  | skip hfirst _ ih => exact .skip (hskip _ hfirst) (ih h')

/-- Elements that show unchanged under a view come in their order, with none put in. -/
theorem sublist {f : α → γ} {g : β → γ} {xs : List α} {ys : List β} (h : Emits Shows Skips xs ys)
    (hview : ∀ x y, Shows x y → g y = f x) : (ys.map g).Sublist (xs.map f) := by
  induction h with
  | nil => exact .slnil
  | emit hshow _ ih =>
    rw [List.map_cons, List.map_cons, hview _ _ hshow]
    exact ih.cons_cons _
  | skip _ _ ih => exact ih.cons _

/-- Selected elements, of which none is left out, are the same under a view. -/
theorem filter_map {f : α → γ} {g : β → γ} {p : α → Bool} {q : β → Bool} {xs : List α}
    {ys : List β} (h : Emits Shows Skips xs ys) (hselect : ∀ x y, Shows x y → q y = p x)
    (hview : ∀ x y, Shows x y → p x = true → g y = f x) (hskip : ∀ x, Skips x → p x = false) :
    (ys.filter q).map g = (xs.filter p).map f := by
  induction h with
  | nil => rfl
  | @emit x y xs ys hshow _ ih =>
    rw [List.filter_cons, List.filter_cons, hselect x y hshow]
    cases hp : p x with
    | false => exact ih
    | true =>
      rw [if_pos rfl, if_pos rfl, List.map_cons, List.map_cons, hview x y hshow hp, ih]
  | @skip x xs ys hdrop _ ih =>
    rw [List.filter_cons, hskip x hdrop]
    exact ih

end Emits

/-! ## Treating lines -/

/-- A line of a text, with the states in which the scan enters and leaves it. -/
structure ScannedLine where
  entry : Carry
  text : List Char
  exit : Carry

/-- The lines of a text with the states around them. The first is entered in a given state. -/
def scanned (lex : Lexicon) : Carry → List (List Char) → List ScannedLine
  | _, [] => []
  | entry, l :: ls =>
    let exit := (scanLine lex entry l).2
    ⟨entry, l, exit⟩ :: scanned lex exit ls

/-- Lines are treated one after the other. -/
theorem mapLines_cons (f : Progress → List Char → Line × Progress) (st : Progress)
    (l : List Char) (ls : List (List Char)) :
    mapLines f st (l :: ls) = (f st l).1 :: mapLines f (f st l).2 ls := by
  -- The lines treated so far stand in front, in reverse.
  have hgo : ∀ (ls : List (List Char)) (st : Progress) (done : List Line),
      mapLines.go f st done ls = done.reverse ++ mapLines.go f st [] ls := by
    intro ls
    induction ls with
    | nil => simp [mapLines.go]
    | cons l ls ih =>
      intro st done
      unfold mapLines.go
      dsimp only
      rw [ih, ih _ [(f st l).1]]
      simp
  exact hgo ls (f st l).2 [(f st l).1]

/-- What holds of every line that is treated, wherever it stands, holds of all lines. -/
theorem mapLines_shows {f : Progress → List Char → Line × Progress}
    {Shows : List Char → Line → Prop} (h : ∀ st raw, Shows raw (f st raw).1)
    (lines : List (List Char)) (st : Progress) :
    Emits Shows (fun _ => False) lines (mapLines f st lines) := by
  induction lines generalizing st with
  | nil => exact .nil
  | cons l ls ih =>
    rw [mapLines_cons]
    exact .emit (h st l) (ih (f st l).2)

/-- What holds of every line that is treated, in every state, holds along a text. -/
theorem mapLines_emits {lex : Lexicon} {f : Progress → List Char → Line × Progress}
    {Shows : ScannedLine → Line → Prop}
    (hcarry : ∀ st raw, (f st raw).2.carry = (scanLine lex st.carry raw).2)
    (hshow : ∀ st raw, Shows ⟨st.carry, raw, (scanLine lex st.carry raw).2⟩ (f st raw).1)
    (lines : List (List Char)) (st : Progress) :
    Emits Shows (fun _ => False) (scanned lex st.carry lines) (mapLines f st lines) := by
  induction lines generalizing st with
  | nil => exact .nil
  | cons l ls ih =>
    rw [mapLines_cons]
    unfold scanned
    dsimp only
    rw [← hcarry]
    exact .emit (by rw [hcarry]; exact hshow st l) (ih (f st l).2)

/-! ## Leaving lines out -/

/-- Dropping runs of blank lines leaves out spare lines only. -/
theorem dropRuns_emits (lines : List Line) :
    Emits (fun l l' => l' = l) (fun l => l.isSpare = true) lines (dropRuns lines) := by
  -- Which lines go depends on those kept so far, but what is kept stands behind them in any case.
  have hgo : ∀ (lines done : List Line), ∃ out, dropRuns.go done lines = done.reverse ++ out ∧
      Emits (fun l l' => l' = l) (fun l => l.isSpare = true) lines out := by
    intro lines
    induction lines with
    | nil => exact fun done => ⟨[], by simp [dropRuns.go], .nil⟩
    | cons l ls ih =>
      intro done
      unfold dropRuns.go
      dsimp only
      split_ifs with hspare
      · obtain ⟨out, hout, hemits⟩ := ih done
        exact ⟨out, hout, .skip (Bool.and_eq_true_iff.mp hspare).1 hemits⟩
      · obtain ⟨out, hout, hemits⟩ := ih (l :: done)
        exact ⟨l :: out, by rw [hout]; simp, .emit rfl hemits⟩
  obtain ⟨out, hout, hemits⟩ := hgo lines []
  unfold dropRuns
  rw [hout]
  exact hemits

/-- Dropping the spare lines at the end leaves out spare lines only. -/
theorem dropEnd_emits (lines : List Line) :
    Emits (fun l l' => l' = l) (fun l => l.isSpare = true) lines
      (lines.reverse.dropWhile Line.isSpare).reverse := by
  have hsplit : (lines.reverse.dropWhile Line.isSpare).reverse ++
      (lines.reverse.takeWhile Line.isSpare).reverse = lines := by
    rw [← List.reverse_append, List.takeWhile_append_dropWhile, List.reverse_reverse]
  have hend : Emits (fun l l' : Line => l' = l) (fun l => l.isSpare = true)
      (lines.reverse.takeWhile Line.isSpare).reverse [] :=
    Emits.skip_all fun l hl => List.mem_takeWhile_imp (List.mem_reverse.mp hl)
  have hemits := (Emits.refl (fun l => l.isSpare = true)
    (lines.reverse.dropWhile Line.isSpare).reverse).append hend
  rw [hsplit, List.append_nil] at hemits
  exact hemits

/-- The lines that are kept when runs of spare lines and those at the end are dropped. -/
def kept (lines : List Line) : List Line := (dropRuns lines).rdropWhile Line.isSpare

/-- Only spare lines are not kept. -/
theorem kept_emits (lines : List Line) :
    Emits (fun l l' => l' = l) (fun l => l.isSpare = true) lines (kept lines) :=
  (dropRuns_emits lines).comp (dropEnd_emits (dropRuns lines)) (fun _ _ _ h h' => h'.trans h)
    (fun _ h => h) fun _ _ h h' => h ▸ h'

/-- The texts that come out are those of the lines, without some spare lines. -/
theorem finish_emits (lines : List Line) :
    Emits (fun l text => text = l.text) (fun l => l.isSpare = true) lines (finish lines) :=
  (kept_emits lines).comp (Emits.map Line.text _) (fun _ _ _ h h' => by rw [h', h]) (fun _ h => h)
    fun _ _ _ h' => h'.elim

end CodeTidy.Whitespace
