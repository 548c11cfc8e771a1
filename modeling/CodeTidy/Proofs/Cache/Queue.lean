import CodeTidy.Proofs.Cache.Residency
import CodeTidy.Proofs.Table
import Mathlib.Data.List.DropRight

/-!
# The store is a bounded queue

A result arrives when it is written under a key that is not held, in a store that has places. The
keys held are those of the last arrivals since the store was cleared, as many as there are places,
and under each key stands the text last written for it. Looking up, asking and writing again change
nothing about the order. `Queued` says this of a run and the store behind it, together with what the
counters have counted; `Queued.apply` carries it over one operation.
-/

namespace CodeTidy.Cache

variable {κ : Type} [DecidableEq κ]

/-- What is done to a store. -/
inductive Op (κ : Type) where
  | insert (key : κ) (text : String)
  | get (key : κ)
  | contains (key : κ)
  | clear

namespace Op

/-- Does the operation look a key up? -/
def isGet : Op κ → Bool
  | .get _ => true
  | _ => false

/-- Does the operation drop every result? -/
def isClear : Op κ → Bool
  | .clear => true
  | _ => false

/-- The text that the operation writes for a key. -/
def written? (key : κ) : Op κ → Option String
  | .insert k text => if k = key then some text else none
  | _ => none

end Op

/-- The store behind an operation. -/
def apply (c : Cache κ) : Op κ → Cache κ
  | .insert key text => c.insert key text
  | .get key => (c.get key).2
  | .contains _ => c
  | .clear => c.clear

/-- The keys held, the oldest first. -/
def keys (c : Cache κ) : List κ := c.entries.map Prod.fst

/-- The key under which a result arrives: that of a write, if the store has places and does not
hold the key. -/
def arriving? (c : Cache κ) : Op κ → Option κ
  | .insert key _ => if 0 < c.capacity ∧ key ∉ c.keys then some key else none
  | _ => none

/-- Does the operation make an entry give way? A result arrives and all places are taken. -/
def evicts (c : Cache κ) (op : Op κ) : Bool :=
  (c.arriving? op).isSome && c.size == c.capacity

/-- The store behind a run of operations, which is empty in front of it. -/
def behind (capacity : ℕ) (ops : List (Op κ)) : Cache κ := ops.foldl apply { capacity }

/-- The operations of a run, each with the store that it meets. -/
def moments (c : Cache κ) : List (Op κ) → List (Cache κ × Op κ)
  | [] => []
  | op :: ops => (c, op) :: moments (c.apply op) ops

/-- The keys under which results arrive at some moments, in their order. -/
def arrivals (ms : List (Cache κ × Op κ)) : List κ := ms.filterMap fun m => m.1.arriving? m.2

/-- The moments behind the last at which the store is cleared. -/
def sinceClear (ms : List (Cache κ × Op κ)) : List (Cache κ × Op κ) :=
  ms.rtakeWhile fun m => !m.2.isClear

/-- The text last written for a key. -/
def lastText? (key : κ) (ops : List (Op κ)) : Option String :=
  ops.reverse.findSome? (Op.written? key)

/-! ## One more operation -/

/-- One more operation is one more moment, which meets the store behind the others. -/
theorem moments_concat (c : Cache κ) (ops : List (Op κ)) (op : Op κ) :
    moments c (ops ++ [op]) = moments c ops ++ [(ops.foldl apply c, op)] := by
  induction ops generalizing c with
  | nil => rfl
  | cons first rest ih =>
    rw [List.cons_append, moments, moments, ih, List.foldl_cons, List.cons_append]

/-- One more moment may bring one more arrival. -/
theorem arrivals_concat (ms : List (Cache κ × Op κ)) (c : Cache κ) (op : Op κ) :
    arrivals (ms ++ [(c, op)]) = arrivals ms ++ (c.arriving? op).toList := by
  unfold arrivals
  rw [List.filterMap_append, List.filterMap_cons, List.filterMap_nil]
  cases c.arriving? op <;> rfl

omit [DecidableEq κ] in
/-- One more moment comes behind the last clearing, or is one. -/
theorem sinceClear_concat (ms : List (Cache κ × Op κ)) (c : Cache κ) (op : Op κ) :
    sinceClear (ms ++ [(c, op)]) = if op.isClear then [] else sinceClear ms ++ [(c, op)] := by
  unfold sinceClear
  rw [List.rtakeWhile_concat]
  cases op <;> rfl

/-- The text written last wins. -/
theorem lastText?_concat (key : κ) (ops : List (Op κ)) (op : Op κ) :
    lastText? key (ops ++ [op]) = (op.written? key).or (lastText? key ops) := by
  unfold lastText?
  rw [List.reverse_append, List.reverse_singleton, List.singleton_append, List.findSome?_cons]
  cases op.written? key <;> rfl

/-! ## What an operation changes -/

/-- What is held is what stands among the keys. -/
theorem contains_iff (c : Cache κ) (key : κ) : c.contains key = true ↔ key ∈ c.keys := by
  unfold contains find? keys
  refine ⟨?_, ?_⟩
  · intro h
    obtain ⟨text, htext⟩ := Option.isSome_iff_exists.mp h
    exact List.mem_map.mpr ⟨(key, text), Table.mem_of_lookup htext, rfl⟩
  · intro h
    by_contra hmissing
    rw [Option.not_isSome_iff_eq_none, List.lookup_eq_none_iff] at hmissing
    obtain ⟨entry, hentry, rfl⟩ := List.mem_map.mp h
    simpa using hmissing entry hentry

/-- Writing a key again leaves the keys in their order. -/
theorem keys_replace (key : κ) (text : String) (entries : List (κ × String)) :
    (replace key text entries).map Prod.fst = entries.map Prod.fst := by
  induction entries with
  | nil => rfl
  | cons entry rest ih =>
    obtain ⟨k, t⟩ := entry
    unfold replace
    split_ifs
    · rfl
    · rw [List.map_cons, List.map_cons, ih]

/-- While no key is held twice, a key written again has the new text only. -/
theorem mem_replace_of_distinct {key : κ} {text : String} {p : κ × String} :
    ∀ {entries : List (κ × String)}, Table.Distinct entries → p ∈ replace key text entries →
      p = (key, text) ∨ p.1 ≠ key ∧ p ∈ entries
  | [], _, h => by simp [replace] at h
  | (k, t) :: rest, hdistinct, h => by
    obtain ⟨hfirst, hrest⟩ := List.nodup_cons.mp hdistinct
    unfold replace at h
    split_ifs at h with hk
    · subst hk
      rcases List.mem_cons.mp h with rfl | hp
      · exact .inl rfl
      · refine .inr ⟨?_, List.mem_cons_of_mem _ hp⟩
        rintro rfl
        exact hfirst (List.mem_map.mpr ⟨p, hp, rfl⟩)
    · rcases List.mem_cons.mp h with rfl | hp
      · exact .inr ⟨hk, List.mem_cons_self⟩
      · rcases mem_replace_of_distinct hrest hp with hnew | ⟨hne, hold⟩
        · exact .inl hnew
        · exact .inr ⟨hne, List.mem_cons_of_mem _ hold⟩

/-- A write under which a result arrives. -/
theorem insert_arriving {c : Cache κ} {key : κ} (h : 0 < c.capacity ∧ key ∉ c.keys)
    (text : String) :
    c.insert key text = { c with
      entries := c.entries.drop (c.size + 1 - c.capacity) ++ [(key, text)]
      stats := { c.stats with
        writes := c.stats.writes + 1
        evictions := c.stats.evictions + (c.size + 1 - c.capacity) } } := by
  have hmissing : ¬c.contains key = true := fun hheld => h.2 ((c.contains_iff key).mp hheld)
  unfold insert
  rw [if_neg (Nat.ne_of_gt h.1), if_neg hmissing]

/-- A write under which none arrives leaves the keys and the counters alone. -/
theorem insert_staying {c : Cache κ} {key : κ} (h : ¬(0 < c.capacity ∧ key ∉ c.keys))
    (text : String) :
    (c.insert key text).keys = c.keys ∧ (c.insert key text).stats = c.stats := by
  unfold insert
  split_ifs with hzero hheld
  · exact ⟨rfl, rfl⟩
  · exact ⟨keys_replace key text c.entries, rfl⟩
  · exact absurd ⟨Nat.pos_of_ne_zero hzero, fun hmem => hheld ((c.contains_iff key).mpr hmem)⟩ h

/-- A result arrives by a write, in a store that has places and does not hold its key. -/
theorem arriving?_eq_some {c : Cache κ} {op : Op κ} {key : κ} (h : c.arriving? op = some key) :
    0 < c.capacity ∧ key ∉ c.keys ∧ op.isClear = false := by
  cases op with
  | insert k text =>
    unfold arriving? at h
    dsimp only at h
    split_ifs at h with hroom
    obtain rfl := Option.some.inj h
    exact ⟨hroom.1, hroom.2, rfl⟩
  | get k => cases h
  | contains k => cases h
  | clear => cases h

/-- An operation leaves the capacity alone. -/
theorem apply_capacity (c : Cache κ) (op : Op κ) : (c.apply op).capacity = c.capacity := by
  cases op with
  | insert key text => exact c.insert_capacity key text
  | get key => exact c.get_capacity key
  | contains key => rfl
  | clear => rfl

/-- The key of an arrival goes to the end, behind the keys for which there is room. Otherwise the
keys stay, unless the store is cleared. -/
theorem apply_keys (c : Cache κ) (op : Op κ) :
    (c.apply op).keys =
      match c.arriving? op with
      | some key => c.keys.drop (c.size + 1 - c.capacity) ++ [key]
      | none => if op.isClear then [] else c.keys := by
  cases op with
  | insert key text =>
    by_cases h : 0 < c.capacity ∧ key ∉ c.keys
    · have harrives : c.arriving? (.insert key text) = some key := if_pos h
      rw [harrives, apply, insert_arriving h]
      unfold keys
      rw [List.map_append, List.map_drop, List.map_singleton]
    · have hstays : c.arriving? (.insert key text) = none := if_neg h
      rw [hstays]
      exact (insert_staying h text).1
  | get key => exact congrArg (List.map Prod.fst) (c.get_entries key)
  | contains key => rfl
  | clear => rfl

/-- An operation counts a write if a result arrives. -/
theorem apply_writes (c : Cache κ) (op : Op κ) :
    (c.apply op).stats.writes = c.stats.writes + (c.arriving? op).toList.length := by
  cases op with
  | insert key text =>
    by_cases h : 0 < c.capacity ∧ key ∉ c.keys
    · have harrives : c.arriving? (.insert key text) = some key := if_pos h
      rw [harrives, apply, insert_arriving h]
      rfl
    · have hstays : c.arriving? (.insert key text) = none := if_neg h
      rw [hstays, apply, (insert_staying h text).2]
      rfl
  | get key => exact c.get_writes key
  | contains key => rfl
  | clear => rfl

/-- An operation counts an eviction if an entry gives way. -/
theorem apply_evictions {c : Cache κ} (hsize : c.size ≤ c.capacity) (op : Op κ) :
    (c.apply op).stats.evictions = c.stats.evictions + if c.evicts op then 1 else 0 := by
  unfold evicts
  cases op with
  | insert key text =>
    by_cases h : 0 < c.capacity ∧ key ∉ c.keys
    · have harrives : c.arriving? (.insert key text) = some key := if_pos h
      rw [harrives, apply, insert_arriving h]
      show c.stats.evictions + (c.size + 1 - c.capacity) = _
      by_cases hfull : c.size = c.capacity
      · simp [hfull]
      · simp only [Option.isSome_some, Bool.true_and, beq_iff_eq, hfull, if_false]
        omega
    · have hstays : c.arriving? (.insert key text) = none := if_neg h
      rw [hstays, apply, (insert_staying h text).2]
      rfl
  | get key => exact c.get_evictions key
  | contains key => rfl
  | clear => rfl

/-- An operation counts a hit or a miss if it looks a key up. -/
theorem apply_lookUps (c : Cache κ) (op : Op κ) :
    (c.apply op).stats.hits + (c.apply op).stats.misses =
      c.stats.hits + c.stats.misses + if op.isGet then 1 else 0 := by
  cases op with
  | insert key text =>
    obtain ⟨hhits, hmisses⟩ := c.insert_lookUps key text
    rw [apply, hhits, hmisses]
    rfl
  | get key =>
    rw [apply]
    cases h : c.find? key with
    | none =>
      rw [get_miss h]
      exact (Nat.add_assoc _ _ _).symm
    | some text =>
      rw [get_hit h]
      exact Nat.add_right_comm _ _ _
  | contains key => rfl
  | clear => rfl

/-- An entry behind an operation was written by it, or was there and is not written by it. -/
theorem mem_apply {c : Cache κ} (hsize : c.size ≤ c.capacity) (hdistinct : Table.Distinct c.entries)
    {op : Op κ} {entry : κ × String} (h : entry ∈ (c.apply op).entries) :
    op.written? entry.1 = some entry.2 ∨ op.written? entry.1 = none ∧ entry ∈ c.entries := by
  cases op with
  | insert key text =>
    have hother : ∀ {p : κ × String}, p.1 ≠ key → (Op.insert key text).written? p.1 = none :=
      fun hne => if_neg (Ne.symm hne)
    rw [apply] at h
    unfold insert at h
    split_ifs at h with hzero hheld
    · -- A store without places is empty.
      have hempty : c.entries = [] := List.eq_nil_of_length_eq_zero (by unfold size at hsize; omega)
      rw [hempty] at h
      exact absurd h List.not_mem_nil
    · rcases mem_replace_of_distinct hdistinct h with rfl | ⟨hne, hold⟩
      · exact .inl (if_pos rfl)
      · exact .inr ⟨hother hne, hold⟩
    · rcases List.mem_append.mp h with hdrop | hnew
      · have hold := List.mem_of_mem_drop hdrop
        refine .inr ⟨hother ?_, hold⟩
        rintro rfl
        exact hheld ((c.contains_iff _).mpr (List.mem_map.mpr ⟨entry, hold, rfl⟩))
      · obtain rfl := List.mem_singleton.mp hnew
        exact .inl (if_pos rfl)
  | get key =>
    rw [apply, get_entries] at h
    exact .inr ⟨rfl, h⟩
  | contains key => exact .inr ⟨rfl, h⟩
  | clear => exact absurd h List.not_mem_nil

/-! ## A run -/

/-- What a run has to do with the store behind it. -/
structure Queued (capacity : ℕ) (ops : List (Op κ)) (c : Cache κ) : Prop where
  capacity_eq : c.capacity = capacity
  /-- The keys are those of the last arrivals since the store was cleared. -/
  keys_eq : c.keys = (arrivals (sinceClear (moments { capacity } ops))).rtake capacity
  distinct : Table.Distinct c.entries
  /-- Every text is the one last written for its key. -/
  texts : ∀ entry ∈ c.entries, lastText? entry.1 ops = some entry.2
  writes_eq : c.stats.writes = (arrivals (moments { capacity } ops)).length
  evictions_eq :
    c.stats.evictions = (moments { capacity } ops).countP fun m => m.1.evicts m.2
  lookUps_eq : c.stats.hits + c.stats.misses = ops.countP Op.isGet

section

variable {capacity : ℕ} {ops : List (Op κ)}

/-- No more results are held than there are places. -/
theorem Queued.size_le {c : Cache κ} (h : Queued capacity ops c) : c.size ≤ c.capacity := by
  have hsize : c.size = c.keys.length := (List.length_map Prod.fst).symm
  rw [hsize, h.keys_eq, h.capacity_eq, List.rtake, List.length_drop]
  omega

omit [DecidableEq κ] in
/-- One more arrival is the last. -/
theorem rtake_arrival {n : ℕ} (hn : 0 < n) (arrived : List κ) (key : κ) :
    (arrived.rtake n).drop ((arrived.rtake n).length + 1 - n) ++ [key] =
      (arrived ++ [key]).rtake n := by
  unfold List.rtake
  rw [List.drop_drop, List.length_drop, List.length_append, List.length_singleton,
    List.drop_append_of_le_length (by omega)]
  congr 2
  omega

/-- One more operation keeps what a run has to do with the store. -/
theorem Queued.apply (h : Queued capacity ops (behind capacity ops)) (op : Op κ) :
    Queued capacity (ops ++ [op]) ((behind capacity ops).apply op) := by
  have hmoments : moments { capacity } (ops ++ [op])
      = moments { capacity } ops ++ [(behind capacity ops, op)] := moments_concat _ ops op
  generalize behind capacity ops = c at h hmoments ⊢
  have hkeys := c.apply_keys op
  refine ⟨(c.apply_capacity op).trans h.capacity_eq, ?_, ?_, ?_, ?_, ?_, ?_⟩
  · -- The keys: an arrival, a clearing, or nothing that matters for them.
    rw [hkeys, hmoments, sinceClear_concat]
    cases harrives : c.arriving? op with
    | some key =>
      obtain ⟨hroom, -, hclear⟩ := arriving?_eq_some harrives
      rw [h.capacity_eq] at hroom
      have hsize : c.size = c.keys.length := (List.length_map Prod.fst).symm
      dsimp only
      rw [hclear, if_neg Bool.false_ne_true, arrivals_concat, harrives, Option.toList_some,
        ← rtake_arrival hroom, ← h.keys_eq, hsize, h.capacity_eq]
    | none =>
      dsimp only
      split_ifs
      · exact (List.rtake_nil capacity).symm
      · rw [arrivals_concat, harrives, Option.toList_none, List.append_nil, h.keys_eq]
  · -- The key that arrives is not held.
    show ((c.apply op).keys).Nodup
    have hold : c.keys.Nodup := h.distinct
    rw [hkeys]
    cases harrives : c.arriving? op with
    | some key =>
      obtain ⟨-, hnew, -⟩ := arriving?_eq_some harrives
      refine (hold.sublist (List.drop_sublist _ _)).append (List.nodup_singleton key) ?_
      rw [List.disjoint_singleton]
      exact fun hmem => hnew (List.mem_of_mem_drop hmem)
    | none =>
      dsimp only
      split_ifs
      · exact List.nodup_nil
      · exact hold
  · intro entry hentry
    rw [lastText?_concat]
    rcases mem_apply h.size_le h.distinct hentry with hnew | ⟨hother, hold⟩
    · rw [hnew, Option.some_or]
    · rw [hother, Option.none_or, h.texts entry hold]
  · rw [apply_writes, h.writes_eq, hmoments, arrivals_concat, List.length_append]
  · rw [apply_evictions h.size_le, h.evictions_eq, hmoments, List.countP_append,
      List.countP_singleton]
  · rw [apply_lookUps, h.lookUps_eq, List.countP_append, List.countP_singleton]

/-- A store behind a run gives what it holds, which is the text last written for the key. -/
theorem Queued.find? {c : Cache κ} (h : Queued capacity ops c) (key : κ) :
    c.find? key = if key ∈ c.keys then lastText? key ops else none := by
  unfold Cache.find?
  split_ifs with hheld
  · obtain ⟨entry, hentry, rfl⟩ := List.mem_map.mp hheld
    rw [h.distinct.lookup_of_mem hentry, h.texts entry hentry]
  · exact Table.lookup_eq_none_of_notMem hheld

end

/-- Reading the oldest result does not protect it, and writing it again does not make it younger. -/
example :
    (behind 2 [.insert 'a' "1", .insert 'b' "2", .get 'a', .insert 'a' "3",
      .insert 'c' "4"]).entries = [('b', "2"), ('c', "4")] := by
  decide

end CodeTidy.Cache
