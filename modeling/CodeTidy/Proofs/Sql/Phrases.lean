import CodeTidy.Proofs.Sql.Laying
import Mathlib.Data.List.Infix
import Mathlib.Data.Option.Basic

/-!
# Clause phrases among the tokens

Whether a phrase of the table is laid out as a whole is decided token by token, from the first token
on. Two facts about the table make the result independent of where the reading starts: a phrase
stands in front of the phrases it starts with, so the longest is taken (`clauses_ordered`), and no
phrase goes on from the end of another (`clauses_apart`). So a reading outside of parentheses never
stops in the middle of a phrase (`Uncut`), and a token that is no word of a phrase is always laid
out by itself (`State.exists_run_append`).
-/

namespace CodeTidy.Sql

open Token

/-! ## The table -/

/-- A phrase is no proper beginning of one behind it. -/
theorem clauses_ordered : clauses.Pairwise fun p q => p <+: q → p = q := by
  decide +kernel

/-- What a phrase ends in starts another one only if it is the other one. -/
theorem clauses_apart : ∀ p ∈ clauses, ∀ q ∈ clauses, ∀ part ∈ p.tails.tail, part ≠ [] →
    part <+: q → part = q := by
  decide +kernel

/-- A phrase has a word. -/
theorem ne_nil_of_mem_clauses {phrase : List String} (h : phrase ∈ clauses) : phrase ≠ [] := by
  have hall : ∀ p ∈ clauses, p ≠ [] := by decide
  exact hall phrase h

/-- A word of a phrase is neither an `AND` nor an `OR` nor a `BETWEEN`. -/
theorem ne_of_mem_clauses {k : String} (hk : k ∈ clauses.flatten) :
    k ≠ "AND" ∧ k ≠ "OR" ∧ k ≠ "BETWEEN" := by
  have hall : ∀ k ∈ clauses.flatten, k ≠ "AND" ∧ k ≠ "OR" ∧ k ≠ "BETWEEN" := by decide
  exact hall k hk

/-! ## The phrase at the start of tokens -/

/-- A word is a keyword in some case exactly if it is that keyword. -/
theorem eqIgnoringCase_iff {w : List Char} {k : String} (hk : k ∈ clauses.flatten) :
    Text.eqIgnoringAsciiCase w k.toList = true ↔ (Token.word w).keyword? = some k := by
  refine ⟨fun heq => State.keyword?_of_eqIgnoringCase heq hk, fun hkey => ?_⟩
  unfold Token.keyword? at hkey
  dsimp only at hkey
  split_ifs at hkey
  obtain rfl := Option.some.inj hkey
  unfold Text.eqIgnoringAsciiCase
  rw [String.toList_ofList, List.map_map, beq_iff_eq]
  exact List.map_congr_left fun c _ => (Text.case_case c).2.2.1.symm

/-- Tokens start with the words of a phrase exactly if they start with its keywords. -/
theorem startsWith_iff {phrase : List String} (hphrase : ∀ k ∈ phrase, k ∈ clauses.flatten)
    {us : List Token} :
    startsWith phrase us = true ↔ phrase.map some <+: us.map Token.keyword? := by
  induction phrase, us using startsWith.induct with
  | case1 us => simp [startsWith]
  | case2 k phrase w us ih =>
    obtain ⟨hk, hrest⟩ := List.forall_mem_cons.mp hphrase
    rw [startsWith, Bool.and_eq_true, eqIgnoringCase_iff hk, ih hrest, List.map_cons,
      List.map_cons, List.cons_prefix_cons, eq_comm]
  | case3 k phrase us hus =>
    rw [startsWith.eq_3 _ _ _ hus]
    refine iff_of_false Bool.false_ne_true ?_
    cases us with
    | nil => simp
    | cons u us =>
      -- Only words are keywords.
      have hkey : u.keyword? = none := by
        cases u with
        | word w => exact (hus w us rfl).elim
        | _ => rfl
      rw [List.map_cons, List.map_cons, List.cons_prefix_cons, hkey]
      simp

/-- So without a phrase the tokens start with none, -/
theorem not_prefix_of_clauseLength {us : List Token} (h : clauseLength us = 0)
    {phrase : List String} (hphrase : phrase ∈ clauses) :
    ¬phrase.map some <+: us.map Token.keyword? := by
  intro hpre
  have hstarts := (startsWith_iff fun k hk => List.mem_flatten.mpr ⟨phrase, hphrase, hk⟩).mpr hpre
  unfold clauseLength at h
  cases hfind : clauses.find? (startsWith · us) with
  | none => exact List.find?_eq_none.mp hfind phrase hphrase hstarts
  | some found =>
    rw [hfind] at h
    exact ne_nil_of_mem_clauses (List.mem_of_find?_eq_some hfind) (List.length_eq_zero_iff.mp h)

/-- and otherwise with the longest. -/
theorem exists_phrase_of_clauseLength {us vs : List Token} (h : clauseLength (us ++ vs) = us.length)
    (hne : us ≠ []) :
    ∃ phrase ∈ clauses, us.map Token.keyword? = phrase.map some ∧
      ∀ longer ∈ clauses, phrase <+: longer →
        longer.map some <+: (us ++ vs).map Token.keyword? → longer = phrase := by
  unfold clauseLength at h
  cases hfind : clauses.find? (startsWith · (us ++ vs)) with
  | none =>
    rw [hfind] at h
    exact absurd (List.length_eq_zero_iff.mp h.symm) hne
  | some phrase =>
    rw [hfind] at h
    have hmem := List.mem_of_find?_eq_some hfind
    obtain ⟨hstarts, above, below, htable, habove⟩ := List.find?_eq_some_iff_append.mp hfind
    have hwords : ∀ p ∈ clauses, ∀ k ∈ p, k ∈ clauses.flatten :=
      fun p hp k hk => List.mem_flatten.mpr ⟨p, hp, hk⟩
    have hpre := (startsWith_iff (hwords phrase hmem)).mp hstarts
    refine ⟨phrase, hmem, ?_, ?_⟩
    · have hall := List.prefix_of_prefix_length_le hpre
        (by rw [List.map_append]; exact List.prefix_append _ _ : us.map Token.keyword? <+: _)
        (by simp [h])
      exact (hall.eq_of_length (by simp [h])).symm
    · intro longer hlonger hle hmatch
      have hstarts' := (startsWith_iff (hwords longer hlonger)).mpr hmatch
      have hordered := clauses_ordered
      rw [htable] at hlonger hordered
      rcases List.mem_append.mp hlonger with hlonger | hlonger
      · have hnot := habove longer hlonger
        rw [hstarts'] at hnot
        exact Bool.noConfusion hnot
      · rcases List.mem_cons.mp hlonger with rfl | hlonger
        · rfl
        · have hbelow := (List.pairwise_cons.mp (List.pairwise_append.mp hordered).2.1).1
          exact (hbelow longer hlonger hle).symm

/-- Each token of a phrase is a word of the table. -/
theorem exists_word_of_phrase {phrase : List String} (hphrase : phrase ∈ clauses)
    {us : List Token} (hkeys : us.map Token.keyword? = phrase.map some) {v : Token} (hv : v ∈ us) :
    ∃ k ∈ clauses.flatten, v.keyword? = some k := by
  have hkey := List.mem_map_of_mem (f := Token.keyword?) hv
  rw [hkeys] at hkey
  obtain ⟨k, hk, heq⟩ := List.mem_map.mp hkey
  exact ⟨k, List.mem_flatten.mpr ⟨phrase, hphrase, hk⟩, heq.symm⟩

/-! ## No phrase is cut -/

/-- No phrase starts among tokens and goes on behind them. -/
def Uncut (ts us : List Token) : Prop :=
  ∀ front back, front ++ back ∈ clauses → front ≠ [] →
    front.map some <:+ ts.map Token.keyword? → back.map some <+: us.map Token.keyword? → back = []

variable {ts us vs : List Token} {u : Token}

/-- Keywords that tokens end in end in the last token. -/
theorem exists_concat_of_suffix {front : List String} (hne : front ≠ [])
    (h : front.map some <:+ (ts ++ [u]).map Token.keyword?) :
    ∃ init k, front = init ++ [k] ∧ u.keyword? = some k ∧
      init.map some <:+ ts.map Token.keyword? := by
  obtain ⟨init, k, rfl⟩ := (List.eq_nil_or_concat' front).resolve_left hne
  rw [List.map_append, List.map_append, List.map_singleton, List.map_singleton] at h
  obtain ⟨above, habove⟩ := h
  rw [← List.append_assoc] at habove
  obtain ⟨hinit, hkey⟩ := List.append_inj' habove rfl
  exact ⟨init, k, rfl, (List.singleton_inj.mp hkey).symm, above, hinit⟩

/-- A token that opens no clause ends none. -/
theorem Uncut.not_ended (h : Uncut ts (u :: us)) (hnone : clauseLength (u :: us) = 0)
    {front back : List String} (hphrase : front ++ back ∈ clauses) (hne : front ≠ [])
    (hfront : front.map some <:+ (ts ++ [u]).map Token.keyword?)
    (hback : back.map some <+: us.map Token.keyword?) : False := by
  obtain ⟨init, k, rfl, hkey, hinit⟩ := exists_concat_of_suffix hne hfront
  have hnext : (k :: back).map some <+: (u :: us).map Token.keyword? := by
    rw [List.map_cons, List.map_cons, List.cons_prefix_cons]
    exact ⟨hkey.symm, hback⟩
  rw [List.append_assoc, List.singleton_append] at hphrase
  cases init with
  | nil => exact not_prefix_of_clauseLength hnone hphrase hnext
  | cons k' init =>
    exact List.cons_ne_nil _ _ (h (k' :: init) (k :: back) hphrase (List.cons_ne_nil _ _) hinit
      hnext)

/-- The longest phrase is not the beginning of one. -/
theorem Uncut.clause (h : Uncut ts (us ++ vs)) (hlength : clauseLength (us ++ vs) = us.length)
    (hne : us ≠ []) : Uncut (ts ++ us) vs := by
  obtain ⟨phrase, hmem, hkeys, hlongest⟩ := exists_phrase_of_clauseLength hlength hne
  intro front back hphrase hfront hsuffix hpre
  have hall : ∀ more : List String, more.map some <+: vs.map Token.keyword? →
      (phrase ++ more).map some <+: (us ++ vs).map Token.keyword? := by
    intro more hmore
    rw [List.map_append, List.map_append, hkeys, List.prefix_append_right_inj]
    exact hmore
  -- A phrase with the longest in front of it is the longest.
  have hsame : ∀ more : List String, phrase ++ more ∈ clauses →
      more.map some <+: vs.map Token.keyword? → more = [] := fun more hmore hvs =>
    List.append_right_eq_self.mp (hlongest _ hmore (List.prefix_append _ _) (hall more hvs))
  rw [List.map_append, hkeys] at hsuffix
  obtain ⟨above, habove⟩ := hsuffix
  rcases List.append_eq_append_iff.mp habove with ⟨part, hts, hpart⟩ | ⟨part, habove, hpart⟩
  · -- The words end in the longest phrase, and what is in front of it is not cut.
    obtain ⟨init, last, rfl, rfl, hlast⟩ := List.map_eq_append_iff.mp hpart
    obtain rfl := List.map_injective_iff.mpr (Option.some_injective _) hlast
    by_cases hinit : init = []
    · subst hinit
      exact hsame back hphrase hpre
    · rw [List.append_assoc] at hphrase
      have hnil := h init (last ++ back) hphrase hinit ⟨above, hts.symm⟩ (hall back hpre)
      exact (List.append_eq_nil_iff.mp hnil).2
  · -- The words are what the longest phrase ends in.
    obtain ⟨init, last, rfl, rfl, hlast⟩ := List.map_eq_append_iff.mp hpart
    obtain rfl := List.map_injective_iff.mpr (Option.some_injective _) hlast
    cases init with
    | nil => exact hsame back hphrase hpre
    | cons k init =>
      have htail : last ∈ (k :: init ++ last).tails.tail := by
        rw [List.cons_append, List.tails_cons, List.tail_cons, List.mem_tails]
        exact List.suffix_append _ _
      have heq := clauses_apart _ hmem _ hphrase last htail hfront (List.prefix_append _ _)
      exact List.append_right_eq_self.mp heq.symm

/-! ## The run up to a token -/

/-- A token that is no word of a phrase. -/
def Token.Plain (t : Token) : Prop := ∀ k ∈ clauses.flatten, t.keyword? ≠ some k

/-- `AND` and `OR` are none. -/
theorem plain_of_condition {t : Token}
    (hkey : t.keyword? = some "AND" ∨ t.keyword? = some "OR") : t.Plain := by
  intro k hk heq
  obtain ⟨hand, hor, -⟩ := ne_of_mem_clauses hk
  rw [heq, Option.some_inj, Option.some_inj] at hkey
  exact hkey.elim hand hor

/-- No phrase goes on with a token that is no word of a phrase. -/
theorem le_of_clauseLength {before rest : List Token} {n : ℕ}
    (hrest : ∀ t, rest.head? = some t → t.Plain) (h : clauseLength (before ++ rest) = n) :
    n ≤ before.length := by
  have hn : n ≤ (before ++ rest).length := (State.isClauseWord_of_clauseLength h).1
  by_contra hlt
  rw [← List.take_append_drop n (before ++ rest)] at h
  have htaken : ((before ++ rest).take n).length = n := List.length_take_of_le hn
  obtain ⟨phrase, hmem, hkeys, -⟩ := exists_phrase_of_clauseLength (h.trans htaken.symm) (by
    rw [← List.length_pos_iff, htaken]
    omega)
  cases rest with
  | nil => exact hlt (by rwa [List.append_nil] at hn)
  | cons t rest =>
    have ht : t ∈ (before ++ t :: rest).take n := by
      have hover : n - before.length = n - before.length - 1 + 1 := by omega
      rw [List.take_append, List.mem_append, hover, List.take_succ_cons]
      exact .inr List.mem_cons_self
    obtain ⟨k, hk, hkey⟩ := exists_word_of_phrase hmem hkeys ht
    exact hrest t rfl k hk hkey

namespace State

variable {cfg : Config} {st : State}

/-- A phrase ends in front of a token that is no word of a phrase. -/
theorem run_phrase_append (cfg : Config) (fuel : ℕ) {n : ℕ} {before rest : List Token}
    (hrest : ∀ t, rest.head? = some t → t.Plain)
    (hn : (if st.startStatement.depth == 0 then clauseLength (u :: (before ++ rest)) else 0) =
      n + 1) :
    st.startStatement.depth = 0 ∧ n ≤ before.length ∧
      (∀ v ∈ u :: before.take n, IsClauseWord v) ∧
      clauseLength (u :: before.take n ++ (before.drop n ++ rest)) =
        (u :: before.take n).length ∧
      State.run cfg (fuel + 1) st (u :: (before ++ rest)) =
        State.run cfg fuel (st.startStatement.clause cfg (u :: before.take n))
          (before.drop n ++ rest) := by
  have hdepth : st.startStatement.depth = 0 := by
    by_contra hdepth
    simp [hdepth] at hn
  have hlength : clauseLength ((u :: before) ++ rest) = n + 1 := by
    simpa [hdepth] using hn
  have hle : n ≤ before.length := Nat.le_of_succ_le_succ (le_of_clauseLength hrest hlength)
  have htake : (before ++ rest).take n = before.take n := List.take_append_of_le_length hle
  have hwords := isClauseWord_of_phrase hn
  have hrun : State.run cfg (fuel + 1) st (u :: (before ++ rest)) =
      State.run cfg fuel (st.startStatement.clause cfg (u :: (before ++ rest).take n))
        ((before ++ rest).drop n) := run_clause hn
  rw [htake] at hwords hrun
  rw [List.drop_append_of_le_length hle] at hrun
  refine ⟨hdepth, hle, hwords, ?_, hrun⟩
  rw [List.cons_append, ← List.append_assoc, List.take_append_drop, ← List.cons_append, hlength,
    List.length_cons, List.length_take_of_le hle]

/-- What every step keeps holds in front of a token that is no word of a phrase, and in the end. It
may tell something of the tokens laid out, of the state and of the tokens that follow. -/
theorem exists_run_append {motive : List Token → State → List Token → Prop}
    (htoken : ∀ {ts st u us}, motive ts st (u :: us) → u.IsToken →
      (st.startStatement.depth = 0 → clauseLength (u :: us) = 0) →
      motive (ts ++ [u]) (st.startStatement.token cfg u (!us.isEmpty)) us)
    (hclause : ∀ {ts st u us vs}, motive ts st (u :: us ++ vs) →
      (∀ v ∈ u :: us, IsClauseWord v ∧ v.IsToken) → st.startStatement.depth = 0 →
      clauseLength (u :: us ++ vs) = (u :: us).length →
      motive (ts ++ u :: us) (st.startStatement.clause cfg (u :: us)) vs)
    {fuel : ℕ} {before rest : List Token} (hfuel : (before ++ rest).length ≤ fuel)
    (hbefore : ∀ u ∈ before, u.IsToken) (hrest : ∀ t, rest.head? = some t → t.Plain)
    (h : motive ts st (before ++ rest)) :
    ∃ fuel' st', motive (ts ++ before) st' rest ∧ rest.length ≤ fuel' ∧
      State.run cfg fuel st (before ++ rest) = State.run cfg fuel' st' rest := by
  induction fuel generalizing ts st before with
  | zero =>
    obtain ⟨rfl, rfl⟩ := List.append_eq_nil_iff.mp
      (List.length_eq_zero_iff.mp (Nat.le_zero.mp hfuel))
    exact ⟨0, st, by rwa [List.append_nil], Nat.le_refl _, rfl⟩
  | succ fuel ih =>
    cases before with
    | nil => exact ⟨fuel + 1, st, by rwa [List.append_nil], hfuel, rfl⟩
    | cons u before =>
      obtain ⟨hu, hbefore'⟩ := List.forall_mem_cons.mp hbefore
      have hlength : (before ++ rest).length ≤ fuel := Nat.le_of_succ_le_succ hfuel
      cases hn : (if st.startStatement.depth == 0 then
          clauseLength (u :: (before ++ rest)) else 0) with
      | zero =>
        have hnone : st.startStatement.depth = 0 → clauseLength (u :: (before ++ rest)) = 0 := by
          intro hdepth
          simpa [hdepth] using hn
        obtain ⟨fuel', st', hst', hfuel', hrun⟩ := ih hlength hbefore' (htoken h hu hnone)
        rw [List.append_assoc] at hst'
        exact ⟨fuel', st', hst', hfuel', (run_token hn).trans hrun⟩
      | succ n =>
        obtain ⟨hdepth, hle, hwords, hphrase, hstep⟩ :=
          run_phrase_append cfg fuel hrest hn
        have hsplit : u :: before ++ rest = u :: before.take n ++ (before.drop n ++ rest) := by
          rw [List.cons_append, List.cons_append, ← List.append_assoc, List.take_append_drop]
        have hnext := hclause (hsplit ▸ h)
          (fun v hv => ⟨hwords v hv, hbefore v (List.mem_of_mem_take (i := n + 1) hv)⟩) hdepth hphrase
        have hlength' : (before.drop n ++ rest).length ≤ fuel := by
          rw [List.length_append, List.length_drop]
          rw [List.length_append] at hlength
          omega
        obtain ⟨fuel', st', hst', hfuel', hrun⟩ := ih hlength'
          (fun v hv => hbefore' v (List.mem_of_mem_drop hv)) hnext
        rw [List.append_assoc, List.cons_append, List.take_append_drop] at hst'
        exact ⟨fuel', st', hst', hfuel', hstep.trans hrun⟩

end State

end CodeTidy.Sql
