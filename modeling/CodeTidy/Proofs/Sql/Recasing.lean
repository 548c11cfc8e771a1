import CodeTidy.Proofs.Sql.Reading
import CodeTidy.Proofs.Text.Ascii
import CodeTidy.Sql.Layout

/-!
# Keywords in another case

A keyword consists of ASCII letters, so in either case it is a word and the same keyword. `recased`
is a token as the layout writes it. It is laid out like the token itself: no decision of the layout
depends on the case of a keyword, and writing it again in the wanted case changes nothing.
-/

namespace CodeTidy.Sql

namespace Token

/-- The token with the characters that the layout writes for it. -/
def recased (wanted : KeywordCase) (t : Token) : Token :=
  if t.isKeyword then .word (cased wanted t.text) else t

variable {wanted : KeywordCase} {t : Token}

/-- A keyword is a word that is listed in upper case. -/
theorem exists_word_of_isKeyword (h : t.isKeyword = true) :
    ∃ w, t = .word w ∧ String.ofList (w.map Text.upperAscii) ∈ keywords := by
  cases t with
  | word w =>
    refine ⟨w, rfl, ?_⟩
    unfold isKeyword keyword? at h
    by_contra hnot
    simp [hnot] at h
  | _ => simp [isKeyword, keyword?] at h

/-- Every keyword has letters, and nothing else. -/
theorem letters_of_mem_keywords {k : String} (h : k ∈ keywords) :
    k.toList ≠ [] ∧ ∀ c ∈ k.toList, Text.isAsciiLetter c = true := by
  have hall : ∀ k ∈ keywords, k.toList ≠ [] ∧ k.toList.all Text.isAsciiLetter = true := by
    decide +kernel
  obtain ⟨hne, hletters⟩ := hall k h
  exact ⟨hne, List.all_eq_true.mp hletters⟩

/-- A word of letters is a token. -/
theorem isToken_of_letters {w : List Char} (hne : w ≠ [])
    (hw : ∀ c ∈ w, Text.isAsciiLetter c = true) : IsToken (.word w) := by
  have hletter : ∀ c, Text.isAsciiLetter c = true →
      Text.isAsciiDigit c = false ∧ startsWord c = true ∧ continuesWord c = true := by
    intro c hc
    exact Text.forall_ascii (P := fun c => Text.isAsciiLetter c = true →
      Text.isAsciiDigit c = false ∧ startsWord c = true ∧ continuesWord c = true)
      (by decide +kernel) (Text.ascii_of_isAsciiLetter hc) hc
  cases w with
  | nil => exact absurd rfl hne
  | cons c tail =>
    obtain ⟨hdigit, hstarts, -⟩ := hletter c (hw c List.mem_cons_self)
    exact .word hdigit hstarts fun d hd => (hletter d (hw d (List.mem_cons_of_mem _ hd))).2.2

/-- The letters of a keyword are letters in the wanted case too. -/
theorem isToken_cased {w : List Char} (h : String.ofList (w.map Text.upperAscii) ∈ keywords) :
    IsToken (.word (cased wanted w)) := by
  obtain ⟨hne, hletters⟩ := letters_of_mem_keywords h
  rw [String.toList_ofList] at hne hletters
  have hw : ∀ c ∈ w, Text.isAsciiLetter c = true :=
    fun c hc => Text.isAsciiLetter_of_upper (hletters _ (List.mem_map_of_mem hc))
  have hwne : w ≠ [] := by simpa using hne
  cases wanted with
  | preserve => exact isToken_of_letters hwne hw
  | upper => exact isToken_of_letters hne hletters
  | lower =>
    refine isToken_of_letters (by simpa [cased] using hwne) ?_
    intro c hc
    obtain ⟨d, hd, rfl⟩ := List.mem_map.mp hc
    exact (Text.isAsciiLetter_case (hw d hd)).2

/-- A token as it is written is a token. -/
theorem IsToken.recased (h : t.IsToken) : (t.recased wanted).IsToken := by
  unfold Token.recased
  split_ifs with hkeyword
  · obtain ⟨w, rfl, hw⟩ := exists_word_of_isKeyword hkeyword
    exact isToken_cased hw
  · exact h

/-- The characters of a token as it is written. -/
theorem text_recased : (t.recased wanted).text = written wanted t := by
  unfold recased written
  split_ifs <;> rfl

/-- A word as it is written is a word. -/
theorem exists_recased_word (wanted : KeywordCase) (w : List Char) :
    ∃ w', (Token.word w).recased wanted = .word w' := by
  unfold recased
  split_ifs <;> exact ⟨_, rfl⟩

/-- Any other token is written as it is. -/
theorem recased_of_not_word (h : ∀ w, t ≠ .word w) : t.recased wanted = t := by
  unfold recased
  rw [if_neg]
  intro hkeyword
  obtain ⟨w, rfl, -⟩ := exists_word_of_isKeyword hkeyword
  exact h w rfl

/-- The same characters stop a token as it is written. -/
theorem stops_recased {rest : List Char} : (t.recased wanted).Stops rest ↔ t.Stops rest := by
  unfold recased
  split_ifs with hkeyword
  · obtain ⟨w, rfl, -⟩ := exists_word_of_isKeyword hkeyword
    exact Iff.rfl
  · exact Iff.rfl

/-- The case of a word does not show in upper case. -/
theorem map_upper_cased (w : List Char) :
    (cased wanted w).map Text.upperAscii = w.map Text.upperAscii := by
  cases wanted <;> simp [cased, Text.case_case, Function.comp_def]

/-- Nor does it in lower case. -/
theorem map_lower_cased (w : List Char) :
    (cased wanted w).map Text.lowerAscii = w.map Text.lowerAscii := by
  cases wanted <;> simp [cased, Text.case_case, Function.comp_def]

/-- A word in the wanted case stays as it is. -/
theorem cased_cased (w : List Char) : cased wanted (cased wanted w) = cased wanted w := by
  cases wanted <;> simp [cased, Text.case_case, Function.comp_def]

/-- A keyword as it is written is the same keyword. -/
theorem keyword?_recased : (t.recased wanted).keyword? = t.keyword? := by
  unfold recased
  split_ifs with hkeyword
  · obtain ⟨w, rfl, -⟩ := exists_word_of_isKeyword hkeyword
    simp only [keyword?, text, map_upper_cased]
  · rfl

/-- A keyword as it is written is a keyword. -/
theorem isKeyword_recased : (t.recased wanted).isKeyword = t.isKeyword := by
  unfold isKeyword
  rw [keyword?_recased]

/-- Writing a token as it is written changes nothing. -/
theorem written_recased : written wanted (t.recased wanted) = written wanted t := by
  unfold written
  rw [isKeyword_recased, text_recased]
  unfold written
  split_ifs with hkeyword
  · exact cased_cased _
  · rfl

end Token

end CodeTidy.Sql
