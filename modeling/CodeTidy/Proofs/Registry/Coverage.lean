import CodeTidy.Proofs.Registry.Registration
import CodeTidy.Settings.Resolve

/-!
# Which declared languages are bound

A language that a registered backend declares need not be bound. It is lost when the backend that
holds it is registered again without it: the binding goes with the old backend, and an earlier
backend, from which that one had taken the language, does not get it back. `declared_bound_iff` says
that this is the only way, and that the language stays lost until a backend that declares it is
registered.
-/

namespace CodeTidy.Registry

variable {σ : Type}

/-- The backend that held the language was registered again without it, and no backend that declares
the language has been registered since. -/
def Lost (xs : List (Registration σ)) (l : String) : Prop :=
  ∃ before x after, xs = before ++ x :: after ∧
    (ofHistory before).bindings.lookup l = some x.backend.id ∧ l ∉ declared x.backend ∧
    ∀ y ∈ after, l ∉ declared y.backend

/-- An element of a list with one more element behind it is that element, or it was there. -/
theorem split_concat {α : Type} {xs before after : List α} {x y : α}
    (h : xs ++ [x] = before ++ y :: after) :
    before = xs ∧ y = x ∧ after = [] ∨
      ∃ middle, after = middle ++ [x] ∧ xs = before ++ y :: middle := by
  rcases List.eq_nil_or_concat after with rfl | ⟨middle, z, rfl⟩
  · obtain ⟨rfl, hlast⟩ := List.append_inj' h rfl
    exact .inl ⟨rfl, (List.singleton_inj.mp hlast).symm, rfl⟩
  · rw [List.concat_eq_append, ← List.cons_append, ← List.append_assoc] at h
    obtain ⟨rfl, hlast⟩ := List.append_inj' h rfl
    rw [List.concat_eq_append, List.singleton_inj.mp hlast]
    exact .inr ⟨middle, rfl, rfl⟩

/-- A language that the latest backend declares is not lost. -/
theorem not_lost_concat {xs : List (Registration σ)} {x : Registration σ} {l : String}
    (h : l ∈ declared x.backend) : ¬Lost (xs ++ [x]) l := by
  rintro ⟨before, y, after, heq, -, hy, hafter⟩
  rcases split_concat heq with ⟨-, rfl, -⟩ | ⟨middle, rfl, -⟩
  · exact hy h
  · exact hafter x (by simp) h

/-- Registering a backend that does not declare a language loses it if the backend holds it. -/
theorem lost_concat_iff {xs : List (Registration σ)} {x : Registration σ} {l : String}
    (h : l ∉ declared x.backend) :
    Lost (xs ++ [x]) l ↔
      Lost xs l ∨ (ofHistory xs).bindings.lookup l = some x.backend.id := by
  refine ⟨?_, ?_⟩
  · rintro ⟨before, y, after, heq, hheld, hy, hafter⟩
    rcases split_concat heq with ⟨rfl, rfl, rfl⟩ | ⟨middle, rfl, rfl⟩
    · exact .inr hheld
    · exact .inl ⟨before, y, middle, rfl, hheld, hy,
        fun z hz => hafter z (List.mem_append_left _ hz)⟩
  · rintro (⟨before, y, after, rfl, hheld, hy, hafter⟩ | hheld)
    · refine ⟨before, y, after ++ [x], by simp, hheld, hy, ?_⟩
      intro z hz
      rcases List.mem_append.mp hz with hz | hz
      · exact hafter z hz
      · rwa [List.mem_singleton.mp hz]
    · exact ⟨xs, x, [], rfl, hheld, h, by simp⟩

/-- A registration binds the languages that the backend declares. -/
theorem lookup_enroll_of_declared {r : Registry σ} (h : Ascending r.bindings)
    {x : Registration σ} {l : String} (hl : l ∈ declared x.backend) :
    ((r.enroll x).bindings.lookup l).isSome = true := by
  cases x with
  | full b =>
    have hb : l ∈ declared b := hl
    show ((r.register b).bindings.lookup l).isSome = true
    rw [lookup_register h, if_pos hb, Option.isSome_some]
  | fallback b =>
    have hb : l ∈ declared b := hl
    show ((r.registerFallback b).bindings.lookup l).isSome = true
    rw [lookup_registerFallback h, if_pos hb, Option.isSome_or, Option.isSome_some, Bool.or_true]

/-- A registration frees the other languages that the backend holds. -/
theorem lookup_enroll_of_undeclared {r : Registry σ} (h : Ascending r.bindings)
    {x : Registration σ} {l : String} (hl : l ∉ declared x.backend) :
    (r.enroll x).bindings.lookup l = (r.bindings.lookup l).filter (· != x.backend.id) := by
  cases x with
  | full b =>
    have hb : l ∉ declared b := hl
    show (r.register b).bindings.lookup l = (r.bindings.lookup l).filter (· != b.id)
    rw [lookup_register h, if_neg hb]
  | fallback b =>
    have hb : l ∉ declared b := hl
    show (r.registerFallback b).bindings.lookup l = (r.bindings.lookup l).filter (· != b.id)
    rw [lookup_registerFallback h, if_neg hb, Option.or_none]

/-- A language is free if it was never declared or is lost. -/
theorem lookup_eq_none_iff (xs : List (Registration σ)) (l : String) :
    (ofHistory xs).bindings.lookup l = none ↔
      (∀ x ∈ xs, l ∉ declared x.backend) ∨ Lost xs l := by
  induction xs using List.reverseRecOn with
  | nil => simp [ofHistory]
  | append_singleton xs x ih =>
    have hascending := (ofHistory_sound xs).ascending
    rw [ofHistory_concat]
    by_cases hl : l ∈ declared x.backend
    · -- The language is bound now.
      have hbound := lookup_enroll_of_declared hascending hl
      refine iff_of_false (Option.isSome_iff_ne_none.mp hbound) ?_
      rintro (hnever | hlost)
      · exact hnever x (by simp) hl
      · exact not_lost_concat hl hlost
    · -- The language was free before, or the backend that held it is the one registered.
      rw [lookup_enroll_of_undeclared hascending hl, lost_concat_iff hl, ← or_assoc]
      have hnever : (∀ y ∈ xs ++ [x], l ∉ declared y.backend) ↔
          ∀ y ∈ xs, l ∉ declared y.backend := by
        simp [or_imp, forall_and, hl]
      rw [hnever, ← ih]
      cases (ofHistory xs).bindings.lookup l with
      | none => simp
      | some id => simp

/-- Every registered backend was registered. -/
theorem exists_registration {xs : List (Registration σ)} {b : Backend σ}
    (h : b ∈ (ofHistory xs).backends) : ∃ x ∈ xs, x.backend = b := by
  induction xs using List.reverseRecOn with
  | nil => exact absurd h List.not_mem_nil
  | append_singleton xs x ih =>
    rw [ofHistory_concat, enroll_backends] at h
    rcases List.mem_append.mp h with hold | hnew
    · obtain ⟨y, hy, hb⟩ := ih (List.mem_filter.mp hold).1
      exact ⟨y, List.mem_append_left _ hy, hb⟩
    · exact ⟨x, by simp, (List.mem_singleton.mp hnew).symm⟩

/-! ## Requests -/

section

variable {r : Registry σ} {name : String}

/-- A language has one backend under all its names. -/
theorem backend?_normalize (r : Registry σ) (name : String) :
    r.backend? (Language.normalize name) = r.backend? name := by
  unfold backend?
  rw [Language.normalize_normalize]

/-- A request for a bound language is answered by its backend. -/
theorem format_of_bound {b : Backend σ} (h : r.backend? name = some b) (code : String)
    (settings : Settings) (world : σ) :
    r.format code name settings world =
      b.answer ⟨code, Language.normalize name, settings⟩ world := by
  unfold format
  dsimp only
  rw [backend?_normalize, h]

/-- A request for a language that is not bound fails. -/
theorem format_of_unbound (h : r.backend? name = none) (code : String) (settings : Settings)
    (world : σ) :
    r.format code name settings world =
      (.failed code (.unsupported (Language.normalize name)), world) := by
  unfold format
  dsimp only
  rw [backend?_normalize, h]

end

/-- A language that a registered backend declares is bound, unless it is lost. If it is bound, a
request for it is answered by a registered backend that declares it, and if it is lost, a request
fails because no backend is bound. -/
theorem declared_bound_iff (xs : List (Registration σ)) (name : String)
    (h : ∃ b ∈ (ofHistory xs).backends, Language.normalize name ∈ declared b) :
    let r := ofHistory xs
    let l := Language.normalize name
    (¬Lost xs l → ∃ b ∈ r.backends, l ∈ declared b ∧ r.backend? name = some b ∧
      ∀ code settings world, r.format code name settings world =
        b.answer ⟨code, l, settings⟩ world) ∧
    (Lost xs l → r.backend? name = none ∧
      ∀ code settings world, r.format code name settings world =
        (.failed code (.unsupported l), world)) := by
  intro r l
  have hsame : r.backend? l = r.backend? name := backend?_normalize r name
  refine ⟨?_, ?_⟩
  · intro hkept
    have hbound : r.bindings.lookup l ≠ none := by
      rw [Ne, lookup_eq_none_iff]
      rintro (hnever | hlost)
      · obtain ⟨b, hb, hdeclared⟩ := h
        obtain ⟨x, hx, rfl⟩ := exists_registration hb
        exact hnever x hx hdeclared
      · exact hkept hlost
    obtain ⟨id, hid⟩ := Option.ne_none_iff_exists'.mp hbound
    obtain ⟨b, hmem, -, hdeclared, hb⟩ := (ofHistory_sound xs).exists_backend? hid
    have hbackend : r.backend? name = some b := hsame.symm.trans hb
    exact ⟨b, hmem, hdeclared, hbackend, format_of_bound hbackend⟩
  · intro hlost
    have hfree : r.bindings.lookup l = none := (lookup_eq_none_iff xs l).mpr (.inr hlost)
    have hbackend : r.backend? name = none := by
      unfold backend?
      rw [hfree]
      rfl
    exact ⟨hbackend, format_of_unbound hbackend⟩

/-- A backend for some languages, which gives the code back. -/
def echo (id : String) (languages : List String) : Backend Unit :=
  .pure ⟨id, id, languages, false, false, false⟩ fun q => .ok q.code

/-- JSON is declared by two backends and goes to the later one. -/
theorem declared_bound_iff_later :
    let xs : List (Registration Unit) := [.full (echo "a" ["json"]), .full (echo "b" ["json"])]
    (∃ b ∈ (ofHistory xs).backends, Language.normalize "JSON" ∈ declared b) ∧ ¬Lost xs "json" ∧
      ∃ b ∈ (ofHistory xs).backends, (ofHistory xs).backend? "JSON" = some b := by
  intro xs
  have hname : Language.normalize "JSON" = "json" := by decide +kernel
  have hbackends : (ofHistory xs).backends = [echo "a" ["json"], echo "b" ["json"]] := rfl
  have hdeclared : declared (echo "a" ["json"]) = ["json"] := by decide +kernel
  have hbindings : (ofHistory xs).bindings = [("json", "b")] := by decide +kernel
  have hkept : ¬Lost xs "json" := by
    intro hlost
    have hfree := (lookup_eq_none_iff xs "json").mpr (.inr hlost)
    simp [hbindings] at hfree
  have h : ∃ b ∈ (ofHistory xs).backends, Language.normalize "JSON" ∈ declared b := by
    rw [hbackends, hname]
    exact ⟨echo "a" ["json"], by simp, by simp [hdeclared]⟩
  obtain ⟨b, hmem, -, hb, -⟩ := (declared_bound_iff xs "JSON" h).1 (by rwa [hname])
  exact ⟨h, hkept, b, hmem, hb⟩

/-- JSON is declared by a registered backend and yet it is not bound: the backend that took it over
was registered again for another language. -/
theorem declared_unbound :
    let xs : List (Registration Unit) :=
      [.full (echo "a" ["json"]), .full (echo "b" ["json"]), .full (echo "b" ["yaml"])]
    (∃ b ∈ (ofHistory xs).backends, Language.normalize "json" ∈ declared b) ∧
      (ofHistory xs).isSupported "json" = false ∧
      (ofHistory xs).format "1" "json" (Settings.resolve {} "json") () =
        (.failed "1" (.unsupported "json"), ()) := by
  intro xs
  have hname : Language.normalize "json" = "json" := by decide +kernel
  have hbackends : (ofHistory xs).backends = [echo "a" ["json"], echo "b" ["yaml"]] := rfl
  have hdeclared : declared (echo "a" ["json"]) = ["json"] := by decide +kernel
  have hbindings : (ofHistory xs).bindings = [("yaml", "b")] := by decide +kernel
  have hbackend : (ofHistory xs).backend? "json" = none := by
    simp [backend?, hname, hbindings]
  refine ⟨⟨echo "a" ["json"], by simp [hbackends], by simp [hname, hdeclared]⟩, ?_, ?_⟩
  · unfold isSupported
    rw [hbackend]
    rfl
  · rw [format_of_unbound hbackend, hname]

end CodeTidy.Registry
