import VectorStyle.Proofs.Selector.Descendants

/-!
# What a match owes to the levels

A context can grow in three ways: by levels further out, by levels further in, and by siblings. A
match outlives further outer levels, because no row of the decision table asks where the context
ends once the selectors are used up. Siblings are seen by `+` alone, so without it a run has the
same outcome with and without them. Further inner levels are harmless to descendant selectors, which
may be met anywhere; a `>` would look at the new levels first.

Main statements: `Matches.append`, for outer levels; `outcome_withoutSiblings`, for siblings; and
`outcome_append_of_map_compoundOf`, for inner levels.
-/

set_option autoImplicit false

namespace VectorStyle.Context

/-! ## Outer levels -/

/-- A match does not depend on the levels beyond those it uses. -/
theorem Matches.append {context : Context Profile} {selectors : List Entity}
    (h : Matches context selectors) (outer : Context Profile) :
    Matches (context ++ outer) selectors := by
  induction h with
  | nil context => exact .nil (context ++ outer)
  | hop e _ ih => exact ih.hop e
  | child near he _ ih => exact .child near he ih
  | take near he _ ih => exact .take near he ih
  | pass near he _ ih => exact .pass near he ih
  | skip hs hlevel _ ih => exact .skip hs hlevel ih

/-! ## Siblings -/

/-- The context with nothing but the element on each level. -/
def withoutSiblings {α : Type} (context : Context α) : Context α := context.map (List.take 1)

theorem withoutSiblings_cons {α : Type} (e : α) (near : List α) (up : Context α) :
    withoutSiblings ((e :: near) :: up) = [e] :: withoutSiblings up := rfl

theorem exists_eq_cons_of_take_one {α : Type} {level : List α} {e : α} {near : List α}
    (h : level.take 1 = e :: near) : ∃ near', level = e :: near' := by
  cases level with
  | nil => cases h
  | cons e' near' =>
    cases h
    exact ⟨near', rfl⟩

/-- Without `+`, no sibling is looked at. -/
theorem outcome_withoutSiblings (context : Context Profile) {selectors : List Entity}
    (h : .combinator .nearby ∉ selectors) :
    outcome (withoutSiblings context) selectors = outcome context selectors := by
  induction context, selectors using outcome.induct with
  | case1 context => rw [outcome, outcome]
  | case2 s rest => rfl
  | case3 e near up rest ih => exact absurd List.mem_cons_self h
  | case4 e near up parts rest ih =>
    have hrest : .combinator .nearby ∉ rest := fun hmem => h (by simp [hmem])
    rw [withoutSiblings_cons, outcome, outcome, ih hrest]
  | case5 level up rest hrow =>
    -- a `>` that fails for want of an element or of a compound fails alone as well
    rw [withoutSiblings, List.map_cons, outcome, outcome]
    · exact hrow
    · intro e near parts rest' hlevel hrest
      obtain ⟨near', hlevel'⟩ := exists_eq_cons_of_take_one hlevel
      exact hrow e near' parts rest' hlevel' hrest
  | case6 e near up parts rest ih ih' =>
    have hrest : .combinator .nearby ∉ rest := fun hmem => h (List.mem_cons_of_mem _ hmem)
    rw [withoutSiblings_cons, outcome, outcome, ih hrest, ih' h]
  | case7 level up selectors hnil hnearby hrow hchild hcompound ih =>
    obtain ⟨s, rest, rfl, hs, hlevel⟩ := exists_skip hnil hnearby hchild hcompound
    have hlevel' : s.isSelector = false ∨ level.take 1 = [] :=
      hlevel.imp_right fun hlevel => by rw [hlevel, List.take_nil]
    rw [withoutSiblings, List.map_cons, outcome_skip hs hlevel', outcome_skip hs hlevel]
    exact ih h

/-! ## Inner levels -/

/-- Compounds that are met in a context are met in it when levels are put in front. -/
theorem outcome_append_of_map_compoundOf {context : Context Profile}
    {compounds : List (List Descriptor)}
    (h : outcome context (compounds.map .compoundOf) = .ok true) (inner : Context Profile) :
    outcome (inner ++ context) (compounds.map .compoundOf) = .ok true := by
  rw [outcome_map_compoundOf_eq_ok_true_iff] at h ⊢
  -- counted from the first old level, the elements are those of the old context
  have hold : (fun j => (inner ++ context).element? (j + inner.length)) = context.element? := by
    funext j
    rw [← element?_drop, List.drop_left]
  rw [← hold, ← metFrom_add_iff] at h
  exact h.inward (Nat.zero_le _)

end VectorStyle.Context
