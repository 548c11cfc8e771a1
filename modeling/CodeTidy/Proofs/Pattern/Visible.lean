import CodeTidy.Pattern.Reader
import CodeTidy.Proofs.Text.Blank
import CodeTidy.Proofs.Text.Letter

/-!
# Patterns that need a visible character

Some patterns match a character that is not white space wherever they match at all, which their form
tells. Such a pattern is found in no text of white space: what remains of it behind white space is
of the same kind again, and none of that kind matches the empty text.
-/

namespace CodeTidy

/-- No white space is in the set. -/
def CharSet.isVisible (set : CharSet) : Bool :=
  Text.blankCodes.all fun n => !set.contains (Char.ofNat n)

/-- So says the definition: the code points of white space are all there is to look at. -/
theorem CharSet.IsVisible.not_contains {set : CharSet} (h : set.isVisible = true) {c : Char}
    (hc : Text.isBlank c = true) : set.contains c = false := by
  refine Text.forall_blank (P := fun c => set.contains c = false) ?_ hc
  intro n hn
  simpa using List.all_eq_true.mp h n hn

namespace Pattern

/-- Whatever the pattern matches has a character in it that is not white space. -/
def needsVisible : Pattern → Bool
  | .fail => true
  | .empty => false
  | .char set => set.isVisible
  | .anchor _ => false
  | .seq p q => p.needsVisible || q.needsVisible
  | .alt p q => p.needsVisible && q.needsVisible
  | .star _ => false

variable {p q : Pattern} {before : Option Char}

/-- A sequence needs what its first part needs, -/
theorem needsVisible_andThen_left (h : p.needsVisible = true) (q : Pattern) :
    (p.andThen q).needsVisible = true := by
  cases p <;> simp_all [andThen, needsVisible]

/-- and what its second part needs. -/
theorem needsVisible_andThen_right (p : Pattern) (h : q.needsVisible = true) :
    (p.andThen q).needsVisible = true := by
  cases p <;> simp_all [andThen, needsVisible]

/-- A pattern that needs a visible character does not match the empty text. -/
theorem nullable_of_needsVisible (h : p.needsVisible = true) (next : Option Char) :
    p.nullable before next = false := by
  induction p with
  | fail | char => rfl
  | empty | anchor | star => simp [needsVisible] at h
  | seq p q ihp ihq =>
    rcases (Bool.or_eq_true _ _).mp h with hp | hq
    · rw [nullable, ihp hp, Bool.false_and]
    · rw [nullable, ihq hq, Bool.and_false]
  | alt p q ihp ihq =>
    obtain ⟨hp, hq⟩ := (Bool.and_eq_true _ _).mp h
    rw [nullable, ihp hp, ihq hq, Bool.or_false]

/-- Behind white space it still needs one. -/
theorem needsVisible_of_mem_after {c : Char} (hc : Text.isBlank c = true)
    (h : p.needsVisible = true) (hq : q ∈ p.after before c) : q.needsVisible = true := by
  induction p generalizing q with
  | fail | empty | anchor => simp [after] at hq
  | star => simp [needsVisible] at h
  | char set => simp [after, CharSet.IsVisible.not_contains h hc] at hq
  | seq p r ihp ihr =>
    -- What remains is a part of the first pattern in front of the second, or part of the second.
    have hmem : (∃ p' ∈ p.after before c, p'.andThen r = q) ∨
        p.nullable before (some c) = true ∧ q ∈ r.after before c := by
      unfold after at hq
      dsimp only at hq
      split_ifs at hq with hnull
      · rw [List.mem_append, List.mem_map] at hq
        exact hq.imp_right fun hr => ⟨hnull, hr⟩
      · exact .inl (List.mem_map.mp hq)
    rcases (Bool.or_eq_true _ _).mp h with hp | hr
    · rcases hmem with ⟨p', hp', rfl⟩ | ⟨hnull, -⟩
      · exact needsVisible_andThen_left (ihp hp hp') r
      · rw [nullable_of_needsVisible hp] at hnull
        exact Bool.noConfusion hnull
    · rcases hmem with ⟨p', -, rfl⟩ | ⟨-, hq⟩
      · exact needsVisible_andThen_right p' hr
      · exact ihr hr hq
  | alt p r ihp ihr =>
    obtain ⟨hp, hr⟩ := (Bool.and_eq_true _ _).mp h
    rcases List.mem_append.mp hq with hq | hq
    · exact ihp hp hq
    · exact ihr hr hq

/-- Reading white space finds nothing if all that is alive needs a visible character. -/
theorem scan_blank (h : p.needsVisible = true) {live : List Pattern}
    (hlive : ∀ q ∈ live, q.needsVisible = true) {text : List Char}
    (htext : Text.allBlank text = true) : p.scan before live text = false := by
  induction text generalizing before live with
  | nil =>
    have hany : live.any (·.nullable before none) = false :=
      List.any_eq_false.mpr fun q hq => by simp [nullable_of_needsVisible (hlive q hq)]
    rw [scan, nullable_of_needsVisible h, hany, Bool.or_false]
  | cons c rest ih =>
    have hc : Text.isBlank c = true := Text.allBlank_iff.mp htext c List.mem_cons_self
    have hany : live.any (·.nullable before (some c)) = false :=
      List.any_eq_false.mpr fun q hq => by simp [nullable_of_needsVisible (hlive q hq)]
    have hnext : ∀ q ∈ live.flatMap (·.after before c) ++ p.after before c,
        q.needsVisible = true := by
      intro q hq
      rcases List.mem_append.mp hq with hq | hq
      · obtain ⟨q', hq', hq⟩ := List.mem_flatMap.mp hq
        exact needsVisible_of_mem_after hc (hlive q' hq') hq
      · exact needsVisible_of_mem_after hc h hq
    rw [scan, nullable_of_needsVisible h, hany, Bool.false_or, Bool.false_or]
    refine ih ?_ (Text.allBlank_of_cons htext)
    split
    next => simp
    next heq => rwa [heq] at hnext
    next => exact fun q hq => hnext q (List.mem_eraseDups.mp hq)

/-- A pattern that needs a visible character is not found in white space. -/
theorem isFoundIn_blank (h : p.needsVisible = true) {text : List Char}
    (htext : Text.allBlank text = true) : p.isFoundIn text = false :=
  scan_blank h (by simp) htext

/-- The pattern that characters write, if they write one. -/
def ofChars? (cs : List Char) : Option Pattern :=
  let (o, rest) := options cs
  match alternatives o (4 * rest.length + 4) rest with
  | some (p, []) => some p
  | _ => none

/-- It is the pattern that their string writes. -/
theorem ofString?_ofList (cs : List Char) : ofString? (String.ofList cs) = ofChars? cs := by
  unfold ofString?
  rw [String.toList_ofList]
  rfl

end Pattern

end CodeTidy
