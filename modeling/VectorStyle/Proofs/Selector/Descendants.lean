import Mathlib.Data.List.Forall2
import VectorStyle.Proofs.Selector.Derivation

/-!
# Descendant selectors

A list of compounds without combinators asks for elements further and further out. The run tries
each compound on the nearest level that is left and never comes back to a level; `MetFrom` leaves
the choice of the levels open.

The run loses nothing by its choice. If the nearest element satisfies a compound, then whatever
levels the compounds can be met on, the ones after the first are met beyond the nearest
(`metFrom_cons_of_satisfies`).

Main statement: `isMatch_map_compoundOf`, a list of compounds matches exactly if its compounds are
met in their order on some levels.
-/

set_option autoImplicit false

namespace VectorStyle

/-- From a position outward, elements that satisfy the compounds are met in their order, on any
positions. -/
def MetFrom (element? : Nat → Option Profile) (first : Nat) (compounds : List (List Descriptor)) :
    Prop :=
  ∃ js : List Nat, js.Pairwise (· < ·) ∧ (∀ j ∈ js, first ≤ j) ∧
    List.Forall₂ (fun j ds => ∃ e, element? j = some e ∧ e.Satisfies ds) js compounds

/-! ## Meeting elements outward -/

section Meeting

variable {element? : Nat → Option Profile} {first first' : Nat} {ds : List Descriptor}
  {compounds : List (List Descriptor)}

theorem metFrom_nil : MetFrom element? first [] := ⟨[], .nil, by simp, .nil⟩

/-- Meeting from further out is meeting from further in. -/
theorem MetFrom.inward (h : MetFrom element? first' compounds) (hle : first ≤ first') :
    MetFrom element? first compounds := by
  obtain ⟨js, hjs, hfirst, hmet⟩ := h
  exact ⟨js, hjs, fun j hj => Nat.le_trans hle (hfirst j hj), hmet⟩

/-- The first compound is met somewhere and the others beyond. -/
theorem metFrom_cons_iff :
    MetFrom element? first (ds :: compounds) ↔
      ∃ j e, first ≤ j ∧ element? j = some e ∧ e.Satisfies ds ∧
        MetFrom element? (j + 1) compounds := by
  constructor
  · rintro ⟨js, hjs, hfirst, hmet⟩
    cases hmet with
    | @cons j _ js _ hj hrest =>
      obtain ⟨e, he, hsat⟩ := hj
      rw [List.pairwise_cons] at hjs
      exact ⟨j, e, hfirst j List.mem_cons_self, he, hsat, js, hjs.2, hjs.1, hrest⟩
  · rintro ⟨j, e, hle, he, hsat, js, hjs, hfirst, hmet⟩
    refine ⟨j :: js, List.pairwise_cons.2 ⟨hfirst, hjs⟩, ?_, .cons ⟨e, he, hsat⟩ hmet⟩
    refine List.forall_mem_cons.2 ⟨hle, ?_⟩
    intro k hk
    have hlt := hfirst k hk
    omega

/-- The first compound is met here and the others beyond, or all are met beyond. -/
theorem metFrom_cons_iff_here_or_beyond :
    MetFrom element? first (ds :: compounds) ↔
      (∃ e, element? first = some e ∧ e.Satisfies ds ∧ MetFrom element? (first + 1) compounds) ∨
        MetFrom element? (first + 1) (ds :: compounds) := by
  constructor
  · intro hmet
    obtain ⟨j, e, hle, he, hsat, hrest⟩ := metFrom_cons_iff.1 hmet
    rcases Nat.lt_or_eq_of_le hle with hlt | rfl
    · exact Or.inr (metFrom_cons_iff.2 ⟨j, e, hlt, he, hsat, hrest⟩)
    · exact Or.inl ⟨e, he, hsat, hrest⟩
  · rintro (⟨e, he, hsat, hrest⟩ | hmet)
    · exact metFrom_cons_iff.2 ⟨first, e, Nat.le_refl first, he, hsat, hrest⟩
    · exact hmet.inward (Nat.le_succ first)

/-- If the nearest element satisfies the first compound, the others are met beyond it whenever all
are met at all. -/
theorem metFrom_cons_of_satisfies {e : Profile} (he : element? first = some e)
    (hsat : e.Satisfies ds) :
    MetFrom element? first (ds :: compounds) ↔ MetFrom element? (first + 1) compounds := by
  rw [metFrom_cons_iff]
  constructor
  · -- wherever the first compound was met, the others are beyond it, and so beyond the nearest
    rintro ⟨j, -, hle, -, -, hmet⟩
    exact hmet.inward (Nat.succ_le_succ hle)
  · intro hmet
    exact ⟨first, e, Nat.le_refl first, he, hsat, hmet⟩

/-- If the nearest element does not satisfy the first compound, all are met beyond it. -/
theorem metFrom_cons_of_not_satisfies (h : ∀ e, element? first = some e → ¬ e.Satisfies ds) :
    MetFrom element? first (ds :: compounds) ↔ MetFrom element? (first + 1) (ds :: compounds) := by
  refine ⟨?_, fun hmet => hmet.inward (Nat.le_succ first)⟩
  rw [metFrom_cons_iff, metFrom_cons_iff]
  rintro ⟨j, e, hle, he, hsat, hmet⟩
  have hne : first ≠ j := by
    rintro rfl
    exact h e he hsat
  exact ⟨j, e, by omega, he, hsat, hmet⟩

/-- Positions counted from further out. -/
theorem metFrom_add_iff (element? : Nat → Option Profile) (first n : Nat)
    (compounds : List (List Descriptor)) :
    MetFrom element? (first + n) compounds ↔
      MetFrom (fun j => element? (j + n)) first compounds := by
  induction compounds generalizing first with
  | nil => exact ⟨fun _ => metFrom_nil, fun _ => metFrom_nil⟩
  | cons ds compounds ih =>
    rw [metFrom_cons_iff, metFrom_cons_iff]
    constructor
    · rintro ⟨j, e, hle, he, hsat, hmet⟩
      obtain ⟨k, rfl⟩ : ∃ k, j = k + n := ⟨j - n, by omega⟩
      rw [Nat.add_right_comm, ih] at hmet
      exact ⟨k, e, by omega, he, hsat, hmet⟩
    · rintro ⟨k, e, hle, he, hsat, hmet⟩
      rw [← ih, Nat.add_right_comm] at hmet
      exact ⟨k + n, e, by omega, he, hsat, hmet⟩

end Meeting

namespace Context

/-! ## The run on compounds -/

/-- Beyond the first level, compounds are met in the outer levels. -/
theorem metFrom_one_cons_iff {level : List Profile} {up : Context Profile}
    {compounds : List (List Descriptor)} :
    MetFrom (element? (level :: up)) 1 compounds ↔ MetFrom up.element? 0 compounds :=
  metFrom_add_iff (element? (level :: up)) 0 1 compounds

/-- The nearest levels are enough. -/
theorem outcome_map_compoundOf_eq_ok_true_iff (context : Context Profile)
    (compounds : List (List Descriptor)) :
    outcome context (compounds.map .compoundOf) = .ok true ↔
      MetFrom context.element? 0 compounds := by
  induction context generalizing compounds with
  | nil =>
    cases compounds with
    | nil => simp [outcome, metFrom_nil]
    | cons ds compounds => simp [outcome, metFrom_cons_iff, element?]
  | cons level up ih =>
    cases compounds with
    | nil => simp [outcome, metFrom_nil]
    | cons ds compounds =>
      rw [List.map_cons]
      cases level with
      | nil =>
        have hnone : ∀ e, element? ([] :: up) 0 = some e → ¬ e.Satisfies ds := by
          rintro _ ⟨⟩
        rw [outcome_skip (by simp [Entity.compoundOf]) (Or.inr rfl), ← List.map_cons, ih,
          metFrom_cons_of_not_satisfies hnone, metFrom_one_cons_iff]
      | cons e near =>
        have hd := e.describedBy_map_descriptor ds
        rw [Entity.compoundOf, outcome_compound_of_describedBy hd, ← Entity.compoundOf]
        -- either way the run leaves the level, and what it still looks for is met beyond the level
        -- exactly if all compounds are met at all
        by_cases hsat : e.Satisfies ds
        · rw [if_pos (decide_eq_true hsat), ih, metFrom_cons_of_satisfies rfl hsat,
            metFrom_one_cons_iff]
        · have hnot : ∀ e', element? ((e :: near) :: up) 0 = some e' → ¬ e'.Satisfies ds := by
            rintro _ ⟨⟩
            exact hsat
          rw [if_neg (by simpa using hsat), ← List.map_cons, ih,
            metFrom_cons_of_not_satisfies hnot, metFrom_one_cons_iff]

/-- A list of compounds over descriptors has an answer, and it is that the list matches exactly if
its compounds are met in their order on some levels. -/
theorem isMatch_map_compoundOf (context : Context Profile) (compounds : List (List Descriptor)) :
    ∃ b, isMatch context (compounds.map .compoundOf) = .ok b ∧
      (b = true ↔ MetFrom context.element? 0 compounds) := by
  rw [isMatch_eq_outcome]
  have hds : ∀ parts, .compound parts ∈ compounds.map Entity.compoundOf →
      ∃ ds, .compound parts = Entity.compoundOf ds := by
    intro parts hmem
    obtain ⟨ds, -, hparts⟩ := List.mem_map.1 hmem
    exact ⟨ds, hparts.symm⟩
  obtain ⟨b, hb⟩ := exists_outcome_eq_ok_of_compoundOf context hds
  have hiff := outcome_map_compoundOf_eq_ok_true_iff context compounds
  rw [hb] at hiff
  exact ⟨b, hb, by simpa using hiff⟩

end Context

end VectorStyle
