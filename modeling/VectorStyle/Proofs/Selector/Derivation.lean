import VectorStyle.Selector.Outcome

/-!
# Derivations of a match

`Matches` derives that a selector list matches a context, one rule for each way in which the
decision table leads to a match. It is how facts about successful matches are proved: by induction
on the derivation, without the rows that fail.

Main statements: `isMatch_eq_ok_true_iff`, a selector list matches a context exactly if there is a
derivation; and `exists_mem_of_outcome_eq_error`, a failure is about a part of a compound, so that
lists whose compounds hold descriptors only are always decided.
-/

set_option autoImplicit false

namespace VectorStyle.Context

/-- The selectors, target first, match the context. -/
inductive Matches : Context Profile → List Entity → Prop where
  | nil (context : Context Profile) : Matches context []
  | hop {near : List Profile} {up : Context Profile} {rest : List Entity} (e : Profile)
      (h : Matches (near :: up) rest) : Matches ((e :: near) :: up) (.combinator .nearby :: rest)
  | child {e : Profile} {up : Context Profile} {parts rest : List Entity} (near : List Profile)
      (he : e.describedBy parts = .ok true) (h : Matches up rest) :
      Matches ((e :: near) :: up) (.combinator .child :: .compound parts :: rest)
  | take {e : Profile} {up : Context Profile} {parts rest : List Entity} (near : List Profile)
      (he : e.describedBy parts = .ok true) (h : Matches up rest) :
      Matches ((e :: near) :: up) (.compound parts :: rest)
  | pass {e : Profile} {up : Context Profile} {parts rest : List Entity} (near : List Profile)
      (he : e.describedBy parts = .ok false) (h : Matches up (.compound parts :: rest)) :
      Matches ((e :: near) :: up) (.compound parts :: rest)
  | skip {level : List Profile} {up : Context Profile} {s : Entity} {rest : List Entity}
      (hs : s ≠ .combinator .child) (hlevel : s.isSelector = false ∨ level = [])
      (h : Matches up (s :: rest)) : Matches (level :: up) (s :: rest)

/-- Where the rows for elements do not apply and there is no `>`, the last row of the table skips a
level. -/
theorem exists_skip {level : List Profile} {selectors : List Entity} (hnil : selectors ≠ [])
    (hnearby : ∀ e near rest, selectors = .combinator .nearby :: rest → level = e :: near → False)
    (hchild : ∀ rest, selectors = .combinator .child :: rest → False)
    (hcompound : ∀ e near parts rest, selectors = .compound parts :: rest →
      level = e :: near → False) :
    ∃ s rest, selectors = s :: rest ∧ s ≠ .combinator .child ∧
      (s.isSelector = false ∨ level = []) := by
  obtain ⟨s, rest, rfl⟩ := List.exists_cons_of_ne_nil hnil
  have hs : s ≠ .combinator .child := fun h => hchild rest (by rw [h])
  refine ⟨s, rest, rfl, hs, ?_⟩
  cases level with
  | nil => exact Or.inr rfl
  | cons e near =>
    left
    -- at an element, the rows before this one are those of the selectors
    cases s with
    | combinator k =>
      cases k with
      | nearby => exact absurd rfl (hnearby e near rest rfl)
      | child => exact absurd rfl hs
    | compound parts => exact absurd rfl (hcompound e near parts rest rfl)
    | _ => rfl

/-- A list that matches has a derivation. -/
theorem matches_of_outcome {context : Context Profile} {selectors : List Entity}
    (h : outcome context selectors = .ok true) : Matches context selectors := by
  induction context, selectors using outcome.induct with
  | case1 context => exact .nil context
  | case2 s rest => simp [outcome] at h
  | case3 e near up rest ih =>
    rw [outcome] at h
    exact (ih h).hop e
  | case4 e near up parts rest ih =>
    rw [outcome_child_eq_ok_true_iff] at h
    exact .child near h.1 (ih h.2)
  | case5 level up rest hrow =>
    -- a `>` without an element and a compound to test it against fails
    rw [outcome] at h
    · cases h
    · exact hrow
  | case6 e near up parts rest ih ih' =>
    rcases outcome_compound_eq_ok_true_iff.1 h with ⟨he, h⟩ | ⟨he, h⟩
    · exact .take near he (ih h)
    · exact .pass near he (ih' h)
  | case7 level up selectors hnil hnearby hrow hchild hcompound ih =>
    obtain ⟨s, rest, rfl, hs, hlevel⟩ := exists_skip hnil hnearby hchild hcompound
    rw [outcome_skip hs hlevel] at h
    exact .skip hs hlevel (ih h)

/-- A derivation leads to a match. -/
theorem Matches.outcome_eq {context : Context Profile} {selectors : List Entity}
    (h : Matches context selectors) : outcome context selectors = .ok true := by
  induction h with
  | nil context => rw [outcome]
  | hop e _ ih => rw [outcome, ih]
  | child near he _ ih => exact outcome_child_eq_ok_true_iff.2 ⟨he, ih⟩
  | take near he _ ih => exact outcome_compound_eq_ok_true_iff.2 (Or.inl ⟨he, ih⟩)
  | pass near he _ ih => exact outcome_compound_eq_ok_true_iff.2 (Or.inr ⟨he, ih⟩)
  | skip hs hlevel _ ih => rw [outcome_skip hs hlevel, ih]

theorem isMatch_eq_ok_true_iff {context : Context Profile} {selectors : List Entity} :
    isMatch context selectors = .ok true ↔ Matches context selectors := by
  rw [isMatch_eq_outcome]
  exact ⟨matches_of_outcome, Matches.outcome_eq⟩

/-! ## Failures -/

/-- A test fails about a part that is no descriptor. -/
theorem mem_of_describedBy_eq_error {p : Profile} {parts : List Entity} {x : Entity}
    (h : p.describedBy parts = .error (.notADescriptor x)) :
    x ∈ parts ∧ x.isDescriptor = false := by
  obtain ⟨before, after, rfl, hx, -⟩ := (p.describedBy_eq_error_iff parts x).1 h
  exact ⟨by simp, hx⟩

/-- A match fails about a part of some compound that is no descriptor. -/
theorem exists_mem_of_outcome_eq_error {context : Context Profile} {selectors : List Entity}
    {x : Entity} (h : outcome context selectors = .error (.notADescriptor x)) :
    ∃ parts, .compound parts ∈ selectors ∧ x ∈ parts ∧ x.isDescriptor = false := by
  induction context, selectors using outcome.induct with
  | case1 context => simp [outcome] at h
  | case2 s rest => simp [outcome] at h
  | case3 e near up rest ih =>
    rw [outcome] at h
    obtain ⟨parts, hmem, hx⟩ := ih h
    exact ⟨parts, List.mem_cons_of_mem _ hmem, hx⟩
  | case4 e near up parts rest ih =>
    -- either the test at hand fails, or the failure is about a later compound
    cases hd : e.describedBy parts with
    | error y =>
      rw [outcome, hd] at h
      cases h
      exact ⟨parts, by simp, mem_of_describedBy_eq_error hd⟩
    | ok b =>
      rw [outcome_child_of_describedBy hd] at h
      cases b with
      | false => cases h
      | true =>
        obtain ⟨parts', hmem, hx⟩ := ih h
        exact ⟨parts', by simp [hmem], hx⟩
  | case5 level up rest hrow =>
    rw [outcome] at h
    · cases h
    · exact hrow
  | case6 e near up parts rest ih ih' =>
    cases hd : e.describedBy parts with
    | error y =>
      rw [outcome, hd] at h
      cases h
      exact ⟨parts, by simp, mem_of_describedBy_eq_error hd⟩
    | ok b =>
      rw [outcome_compound_of_describedBy hd] at h
      cases b with
      | false => exact ih' h
      | true =>
        obtain ⟨parts', hmem, hx⟩ := ih h
        exact ⟨parts', List.mem_cons_of_mem _ hmem, hx⟩
  | case7 level up selectors hnil hnearby hrow hchild hcompound ih =>
    rw [outcome] at h
    · exact ih h
    all_goals assumption

/-- Selectors whose compounds hold descriptors only always have an answer. -/
theorem exists_outcome_eq_ok (context : Context Profile) {selectors : List Entity}
    (h : ∀ parts, .compound parts ∈ selectors → ∀ x ∈ parts, x.isDescriptor = true) :
    ∃ b, outcome context selectors = .ok b := by
  cases ho : outcome context selectors with
  | ok b => exact ⟨b, rfl⟩
  | error err =>
    obtain ⟨x⟩ := err
    obtain ⟨parts, hmem, hx, hd⟩ := exists_mem_of_outcome_eq_error ho
    rw [h parts hmem x hx] at hd
    cases hd

/-- So do selectors whose compounds are given by their descriptors. -/
theorem exists_outcome_eq_ok_of_compoundOf (context : Context Profile) {selectors : List Entity}
    (h : ∀ parts, .compound parts ∈ selectors → ∃ ds, .compound parts = Entity.compoundOf ds) :
    ∃ b, outcome context selectors = .ok b := by
  apply exists_outcome_eq_ok
  intro parts hmem
  obtain ⟨ds, hds⟩ := h parts hmem
  exact Entity.isDescriptor_of_mem_compoundOf hds

end VectorStyle.Context
