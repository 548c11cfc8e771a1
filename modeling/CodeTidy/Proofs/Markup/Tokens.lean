import CodeTidy.Markup.Token
import Mathlib.Data.List.Basic
import Mathlib.Data.Nat.Notation
import Mathlib.Tactic.SplitIfs

/-!
# The tokens of markup make up the text

Each cut takes a part off the start of the text and gives its characters to tokens, in their order.
It takes one character at least, so the whole text is cut up before the fuel runs out, and
`flatMap_raw_tokenize` says that the tokens hold the text.
-/

namespace CodeTidy.Markup

/-- A tag that ends takes at least its closing bracket. -/
theorem lt_of_tagEnd? {quote : Option Char} {n m : ℕ} {s : List Char}
    (h : tagEnd? quote n s = some m) : n < m := by
  induction s generalizing quote n with
  | nil => exact absurd h nofun
  | cons c s ih =>
    unfold tagEnd? at h
    cases quote with
    | some q => exact Nat.lt_of_succ_lt (ih h)
    | none =>
      dsimp only at h
      split_ifs at h with hquote hend
      · exact Nat.lt_of_succ_lt (ih h)
      · rw [← Option.some.inj h]
        exact Nat.lt_succ_self n
      · exact Nat.lt_of_succ_lt (ih h)

/-- The tokens of a tag are the tag, and perhaps a part of what follows. -/
theorem exists_tagTokens (html : Bool) (raw rest : List Char) :
    ∃ content, content <+: rest ∧
      (tagTokens html raw rest).flatMap Token.raw = raw ++ content := by
  unfold tagTokens
  dsimp only
  split_ifs
  · exact ⟨[], List.nil_prefix, rfl⟩
  · exact ⟨[], List.nil_prefix, rfl⟩
  · split
    · rename_i n _
      refine ⟨rest.take n, List.take_prefix n rest, ?_⟩
      show raw ++ (rest.take n ++ []) = raw ++ rest.take n
      rw [List.append_nil]
    · exact ⟨[], List.nil_prefix, rfl⟩
  · exact ⟨[], List.nil_prefix, rfl⟩

/-- The first tokens hold characters from the start of the text, and one at least. -/
theorem leading_prefix (html : Bool) (c : Char) (rest : List Char) :
    (leading html (c :: rest)).flatMap Token.raw <+: c :: rest ∧
      (leading html (c :: rest)).flatMap Token.raw ≠ [] := by
  have hsingle : ∀ token : Token, [token].flatMap Token.raw = token.raw :=
    fun token => List.flatMap_singleton _ _
  have htake : ∀ n, 0 < n → (c :: rest).take n ≠ [] := by
    intro n hn hnil
    rcases List.take_eq_nil_iff.mp hnil with hzero | hnone
    · omega
    · exact absurd hnone nofun
  unfold leading
  split
  · rename_i rest' heq
    split_ifs
    · -- A comment.
      split
      · rename_i n _
        rw [hsingle]
        exact ⟨List.take_prefix _ _, htake _ (Nat.succ_pos _)⟩
      · rw [hsingle]
        exact ⟨List.prefix_rfl, nofun⟩
    · -- A tag, or what looks like one up to the end of the text.
      split
      · rename_i n hn
        obtain ⟨content, ⟨after, hafter⟩, hraw⟩ :=
          exists_tagTokens html ((c :: rest).take n) ((c :: rest).drop n)
        rw [hraw]
        refine ⟨⟨after, ?_⟩, ?_⟩
        · rw [List.append_assoc, hafter, List.take_append_drop]
        · intro hnil
          have hlt := lt_of_tagEnd? hn
          exact htake n (by omega) (List.append_eq_nil_iff.mp hnil).1
      · rw [hsingle]
        exact ⟨List.prefix_rfl, nofun⟩
  · -- A text up to the next tag.
    rename_i hopen
    rw [hsingle]
    refine ⟨List.takeWhile_prefix _, ?_⟩
    have hc : (c != '<') = true := by
      rw [bne_iff_ne]
      rintro rfl
      exact hopen rest rfl
    show (c :: rest).takeWhile (· != '<') ≠ []
    rw [List.takeWhile_cons_of_pos (p := (· != '<')) hc]
    exact nofun

/-- The width of tokens is the number of their characters. -/
theorem width_eq (tokens : List Token) : width tokens = (tokens.flatMap Token.raw).length := by
  have hfold : ∀ n, tokens.foldl (fun n t => n + t.raw.length) n =
      n + (tokens.flatMap Token.raw).length := by
    induction tokens with
    | nil => exact fun n => rfl
    | cons token tokens ih =>
      intro n
      rw [List.foldl_cons, ih, List.flatMap_cons, List.length_append, Nat.add_assoc]
  unfold width
  rw [hfold, Nat.zero_add]

/-- The tokens hold what was cut off before and the whole text, if there is fuel for its length. -/
theorem tokenizeFrom_flatMap_raw (html : Bool) {fuel : ℕ} (done : List Token) {text : List Char}
    (hfuel : text.length ≤ fuel) :
    (tokenizeFrom html fuel done text).flatMap Token.raw =
      done.reverse.flatMap Token.raw ++ text := by
  induction fuel generalizing done text with
  | zero =>
    rw [List.length_eq_zero_iff.mp (Nat.le_zero.mp hfuel), List.append_nil]
    rfl
  | succ fuel ih =>
    cases text with
    | nil => exact (List.append_nil _).symm
    | cons c rest =>
      obtain ⟨hleading, hne⟩ := leading_prefix html c rest
      have hrest := List.prefix_iff_eq_append.mp hleading
      have hpos := List.length_pos_of_ne_nil hne
      unfold tokenizeFrom
      dsimp only
      rw [width_eq, ih]
      · rw [List.reverse_append, List.reverse_reverse, List.flatMap_append, List.append_assoc,
          hrest]
      · rw [List.length_drop]
        omega

/-- The tokens of a text hold the text. -/
theorem flatMap_raw_tokenize (html : Bool) (text : List Char) :
    (tokenize html text).flatMap Token.raw = text :=
  tokenizeFrom_flatMap_raw html [] (Nat.le_refl text.length)

end CodeTidy.Markup
