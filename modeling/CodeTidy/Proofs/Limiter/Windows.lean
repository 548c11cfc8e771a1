import CodeTidy.Limiter
import CodeTidy.Proofs.Table

/-!
# The table of windows

A caller has at most one window, and setting one is seen by its caller only. Pruning a table drops
windows that are over, and a window that is over is as good as none: it stays over, so the next
request of its caller opens a new one either way.
-/

namespace CodeTidy.Limiter

open Table

/-! ## Setting a window -/

/-- A window that is set is found by its caller, and other callers find what they found before. -/
theorem lookup_setWindow (caller : String) (w : Window) (windows : List (String × Window))
    (other : String) :
    (setWindow caller w windows).lookup other =
      if other = caller then some w else windows.lookup other := by
  induction windows with
  | nil => exact lookup_cons (caller, w) [] other
  | cons entry rest ih =>
    obtain ⟨c, v⟩ := entry
    unfold setWindow
    split_ifs with hc hother hother
    · subst hc
      rw [lookup_cons, if_pos hother]
    · subst hc
      rw [lookup_cons, lookup_cons, if_neg hother, if_neg hother]
    · -- The entry in front is that of another caller.
      have hne : other ≠ c := fun heq => hc (heq.symm.trans hother)
      rw [lookup_cons, if_neg hne, ih, if_pos hother]
    · rw [lookup_cons, lookup_cons, ih, if_neg hother]

/-- A window in the table is the one that was set or was there before. -/
theorem mem_setWindow {caller : String} {w : Window} {entry : String × Window} :
    ∀ {windows : List (String × Window)}, entry ∈ setWindow caller w windows →
      entry = (caller, w) ∨ entry ∈ windows
  | [], h => .inl (List.mem_singleton.mp h)
  | (c, v) :: rest, h => by
    unfold setWindow at h
    split_ifs at h with hc
    · subst hc
      rcases List.mem_cons.mp h with hnew | hrest
      · exact .inl hnew
      · exact .inr (List.mem_cons_of_mem _ hrest)
    · rcases List.mem_cons.mp h with rfl | hrest
      · exact .inr List.mem_cons_self
      · exact (mem_setWindow hrest).imp_right (List.mem_cons_of_mem _)

/-- Setting a window adds at most one. -/
theorem length_setWindow_le (caller : String) (w : Window) (windows : List (String × Window)) :
    (setWindow caller w windows).length ≤ windows.length + 1 := by
  induction windows with
  | nil => exact Nat.le.refl
  | cons entry rest ih =>
    obtain ⟨c, v⟩ := entry
    unfold setWindow
    split_ifs
    · exact Nat.le_succ _
    · exact Nat.succ_le_succ ih

/-- Setting a window gives no caller a second one. -/
theorem distinct_setWindow {windows : List (String × Window)} (h : Distinct windows)
    (caller : String) (w : Window) : Distinct (setWindow caller w windows) := by
  unfold Distinct at *
  induction windows with
  | nil => exact List.nodup_singleton caller
  | cons entry rest ih =>
    obtain ⟨c, v⟩ := entry
    rw [List.map_cons, List.nodup_cons] at h
    unfold setWindow
    by_cases hc : c = caller
    · rw [if_pos hc, List.map_cons, List.nodup_cons]
      exact h
    · rw [if_neg hc, List.map_cons, List.nodup_cons]
      refine ⟨?_, ih h.2⟩
      intro hmem
      obtain ⟨entry, hentry, heq⟩ := List.mem_map.mp hmem
      rcases mem_setWindow hentry with rfl | hold
      · exact hc heq.symm
      · exact h.1 (List.mem_map.mpr ⟨entry, hold, heq⟩)

/-! ## Windows that are over -/

/-- A window that is over stays over. -/
theorem isOpen_mono {q : Quota} {w : Window} {now later : ℕ} (hle : now ≤ later)
    (h : isOpen q later w = true) : isOpen q now w = true := by
  unfold isOpen at *
  rw [decide_eq_true_eq] at *
  omega

/-- A new window is open. -/
theorem isOpen_new (q : Quota) (now admitted : ℕ) : isOpen q now ⟨now, admitted⟩ = true := by
  unfold isOpen
  rw [decide_eq_true_eq, Nat.sub_self]
  exact Nat.zero_le _

/-- The window in which a request falls is open. -/
theorem isOpen_windowAt (q : Quota) (now : ℕ) (found : Option Window) :
    isOpen q now (windowAt q now found) = true := by
  unfold windowAt
  cases found with
  | none => exact isOpen_new q now 0
  | some w =>
    dsimp only
    split_ifs with h
    · exact h
    · exact isOpen_new q now 0

/-- A window that is over at some time makes no difference to later requests. -/
theorem windowAt_filter (q : Quota) {now later : ℕ} (hle : now ≤ later) (found : Option Window) :
    windowAt q later (found.filter (isOpen q now)) = windowAt q later found := by
  cases found with
  | none => rfl
  | some w =>
    rw [Option.filter_some]
    split_ifs with h
    · rfl
    · have hover : ¬isOpen q later w = true := fun hlater => h (isOpen_mono hle hlater)
      unfold windowAt
      dsimp only
      rw [if_neg hover]

/-- Pruning gives no caller a second window. -/
theorem distinct_pruned {l : Limiter} (h : Distinct l.windows) (now : ℕ) :
    Distinct (l.pruned now) := by
  unfold pruned
  split_ifs
  · exact h.filter _
  · exact h

/-- Pruning makes no difference to the windows in which later requests fall. -/
theorem windowAt_pruned {l : Limiter} (h : Distinct l.windows) {now later : ℕ} (hle : now ≤ later)
    (caller : String) :
    windowAt l.quota later ((l.pruned now).lookup caller) =
      windowAt l.quota later (l.windows.lookup caller) := by
  unfold pruned
  split_ifs
  · rw [h.lookup_filter (isOpen l.quota now), windowAt_filter l.quota hle]
  · rfl

end CodeTidy.Limiter
