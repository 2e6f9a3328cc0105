import Mathlib.Data.List.Forall2
import VectorStyle.Except

/-!
# Lists of computations that can fail

A list is worked through member by member, and the first failure ends the work. So the results of a
list are the results of its members, or there are none.

Main statements: `mapM_eq_ok_iff`, and `exists_first_of_mapM_eq_error` for the failure.
-/

set_option autoImplicit false

namespace VectorStyle

variable {ε α β : Type}

theorem mapM_eq_ok_iff {f : α → Except ε β} {as : List α} {bs : List β} :
    as.mapM f = .ok bs ↔ List.Forall₂ (fun a b => f a = .ok b) as bs := by
  induction as generalizing bs with
  | nil =>
    rw [List.mapM_nil, List.forall₂_nil_left_iff]
    constructor
    · intro h
      exact (Except.ok.inj h).symm
    · rintro rfl
      rfl
  | cons a as ih =>
    rw [List.mapM_cons, List.forall₂_cons_left_iff]
    constructor
    · intro h
      cases hfirst : f a with
      | error e =>
        rw [hfirst] at h
        cases h
      | ok b =>
        cases hrest : as.mapM f with
        | error e =>
          rw [hfirst, hrest] at h
          cases h
        | ok cs =>
          rw [hfirst, hrest] at h
          exact ⟨b, cs, rfl, ih.1 hrest, (Except.ok.inj h).symm⟩
    · rintro ⟨b, cs, hfirst, hrest, rfl⟩
      rw [hfirst, ih.2 hrest]
      rfl

theorem exists_mem_of_forall₂ {R : α → β → Prop} {as : List α} {bs : List β}
    (h : List.Forall₂ R as bs) {b : β} (hb : b ∈ bs) : ∃ a ∈ as, R a b := by
  induction h with
  | nil => cases hb
  | @cons a b' as bs hab _ ih =>
    rcases List.mem_cons.1 hb with rfl | hb
    · exact ⟨a, List.mem_cons_self, hab⟩
    · obtain ⟨a', ha', hab'⟩ := ih hb
      exact ⟨a', List.mem_cons_of_mem a ha', hab'⟩

/-- A list with a member that fails fails with one of its members. -/
theorem exists_mapM_eq_error {f : α → Except ε β} {as : List α} {a : α} {e : ε} (ha : a ∈ as)
    (h : f a = .error e) : ∃ b ∈ as, ∃ e', f b = .error e' ∧ as.mapM f = .error e' := by
  induction as with
  | nil => cases ha
  | cons b as ih =>
    rw [List.mapM_cons]
    cases hfirst : f b with
    | error e' => exact ⟨b, List.mem_cons_self, e', hfirst, rfl⟩
    | ok c =>
      rcases List.mem_cons.1 ha with rfl | ha
      · rw [h] at hfirst
        cases hfirst
      · obtain ⟨d, hd, e', hd', hrest⟩ := ih ha
        refine ⟨d, List.mem_cons_of_mem b hd, e', hd', ?_⟩
        rw [hrest]
        rfl

/-- What a list fails with is what the first member that fails fails with. -/
theorem exists_first_of_mapM_eq_error {f : α → Except ε β} {as : List α} {e : ε}
    (h : as.mapM f = .error e) :
    ∃ (i : Nat) (a : α), as[i]? = some a ∧ f a = .error e ∧
      ∀ (j : Nat) (b : α), j < i → as[j]? = some b → ∃ c, f b = .ok c := by
  induction as with
  | nil => cases h
  | cons a as ih =>
    rw [List.mapM_cons] at h
    cases hfirst : f a with
    | error e' =>
      rw [hfirst] at h
      cases h
      exact ⟨0, a, rfl, hfirst, fun j b hj => absurd hj (Nat.not_lt_zero j)⟩
    | ok c =>
      rw [hfirst, ok_bind] at h
      cases hrest : as.mapM f with
      | ok cs =>
        rw [hrest] at h
        cases h
      | error e' =>
        rw [hrest] at h
        cases h
        obtain ⟨i, a', ha', hfail, hbefore⟩ := ih hrest
        refine ⟨i + 1, a', ha', hfail, ?_⟩
        intro j b hj hb
        cases j with
        | zero =>
          cases hb
          exact ⟨c, hfirst⟩
        | succ j => exact hbefore j b (Nat.lt_of_succ_lt_succ hj) hb

/-- What a list fails with is what one of its members fails with. -/
theorem exists_of_mapM_eq_error {f : α → Except ε β} {as : List α} {e : ε}
    (h : as.mapM f = .error e) : ∃ a ∈ as, f a = .error e := by
  obtain ⟨i, a, ha, hfail, -⟩ := exists_first_of_mapM_eq_error h
  exact ⟨a, List.mem_of_getElem? ha, hfail⟩

/-- Lists whose members have the same results, one by one, have the same results. -/
theorem forall₂_ok_congr {f : α → Except ε β} {as as' : List α}
    (h : List.Forall₂ (fun a a' => ∀ b, f a = .ok b ↔ f a' = .ok b) as as') {bs : List β} :
    List.Forall₂ (fun a b => f a = .ok b) as bs ↔ List.Forall₂ (fun a b => f a = .ok b) as' bs := by
  induction h generalizing bs with
  | nil => rfl
  | cons hfirst _ ih => simp only [List.forall₂_cons_left_iff, hfirst, ih]

/-- The results of the members of a list, each on its own. -/
theorem map_eq_map_ok {f : α → Except ε β} {as : List α} {bs : List β}
    (h : List.Forall₂ (fun a b => f a = .ok b) as bs) : as.map f = bs.map .ok := by
  induction h with
  | nil => rfl
  | cons hb _ ih => rw [List.map_cons, List.map_cons, hb, ih]

/-- Lists with the same results have them member by member. -/
theorem forall₂_of_mapM_eq_ok {f : α → Except ε β} {as as' : List α} {bs : List β}
    (h : as.mapM f = .ok bs) (h' : as'.mapM f = .ok bs) :
    List.Forall₂ (fun a a' => ∃ b, f a = .ok b ∧ f a' = .ok b) as as' := by
  rw [mapM_eq_ok_iff] at h h'
  induction h generalizing as' with
  | nil =>
    cases h'
    exact .nil
  | cons hb _ ih =>
    cases h' with
    | cons hb' h' => exact .cons ⟨_, hb, hb'⟩ (ih h')

/-- Lists with the same results are the same, if members with the same result are. -/
theorem eq_of_mapM_eq_ok {f : α → Except ε β} {P : α → Prop} {as as' : List α} {bs : List β}
    (hf : ∀ a a', P a → P a' → f a = f a' → a = a') (hP : ∀ a ∈ as, P a) (hP' : ∀ a ∈ as', P a)
    (h : as.mapM f = .ok bs) (h' : as'.mapM f = .ok bs) : as = as' := by
  have hmembers := forall₂_of_mapM_eq_ok h h'
  clear h h'
  induction hmembers with
  | nil => rfl
  | @cons a a' as as' hfirst _ ih =>
    rw [List.forall_mem_cons] at hP hP'
    obtain ⟨b, hb, hb'⟩ := hfirst
    obtain rfl := hf a a' hP.1 hP'.1 (hb.trans hb'.symm)
    rw [ih hP.2 hP'.2]

/-- Where each member has a result, so does the list. -/
theorem exists_forall₂_ok {f : α → Except ε β} {as : List α} (h : ∀ a ∈ as, ∃ b, f a = .ok b) :
    ∃ bs, List.Forall₂ (fun a b => f a = .ok b) as bs := by
  induction as with
  | nil => exact ⟨[], .nil⟩
  | cons a as ih =>
    rw [List.forall_mem_cons] at h
    obtain ⟨b, hfirst⟩ := h.1
    obtain ⟨bs, hrest⟩ := ih h.2
    exact ⟨b :: bs, .cons hfirst hrest⟩

/-- Where each member has a result that satisfies a condition, so does the list. -/
theorem exists_mapM_eq_ok {f : α → Except ε β} {P : β → Prop} {as : List α}
    (h : ∀ a ∈ as, ∃ b, f a = .ok b ∧ P b) : ∃ bs, as.mapM f = .ok bs ∧ ∀ b ∈ bs, P b := by
  obtain ⟨bs, hbs⟩ := exists_forall₂_ok fun a ha => (h a ha).imp fun b hb => hb.1
  refine ⟨bs, mapM_eq_ok_iff.2 hbs, ?_⟩
  induction hbs with
  | nil => exact List.forall_mem_nil P
  | @cons a b as bs hfirst _ ih =>
    rw [List.forall_mem_cons] at h ⊢
    obtain ⟨b', hfirst', hb'⟩ := h.1
    obtain rfl := Except.ok.inj (hfirst.symm.trans hfirst')
    exact ⟨hb', ih h.2⟩

end VectorStyle
