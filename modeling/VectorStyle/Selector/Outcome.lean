import VectorStyle.Selector.Matching

/-!
# The outcome of matching

`Context.outcome` is the decision table that the cursor of `Context.run` follows, by recursion on
what is left of the context and of the selectors. `Context.left` is what a cursor leaves of a
context.

Main statements: `run_eq_outcome`, at every cursor the run has the outcome of the table on what is
left, and `isMatch_eq_outcome`.
-/

set_option autoImplicit false

namespace VectorStyle.Context

/-- The outcome by what is left of the context and of the selectors: `+` steps to the preceding
sibling, `>` demands the compound after it of the element at hand, and a compound that does not
describe the element at hand is tried on the next level. -/
def outcome : Context Profile → List Entity → Except MatchError Bool
  | _, [] => .ok true
  | [], _ :: _ => .ok false
  | (_ :: near) :: up, .combinator .nearby :: rest => outcome (near :: up) rest
  | (e :: _) :: up, .combinator .child :: .compound parts :: rest =>
    (e.describedBy parts).bind fun b => if b then outcome up rest else .ok false
  | _ :: _, .combinator .child :: _ => .ok false
  | (e :: _) :: up, .compound parts :: rest =>
    (e.describedBy parts).bind fun b =>
      if b then outcome up rest else outcome up (.compound parts :: rest)
  | _ :: up, selectors => outcome up selectors
termination_by context selectors => context.length + selectors.length

/-- The row of `>` and a compound, where the compound can be tested. -/
theorem outcome_child_of_describedBy {e : Profile} {near : List Profile} {up : Context Profile}
    {parts rest : List Entity} {b : Bool} (h : e.describedBy parts = .ok b) :
    outcome ((e :: near) :: up) (.combinator .child :: .compound parts :: rest) =
      if b then outcome up rest else .ok false := by
  rw [outcome, h]
  rfl

/-- The row of a compound that can be tested. -/
theorem outcome_compound_of_describedBy {e : Profile} {near : List Profile} {up : Context Profile}
    {parts rest : List Entity} {b : Bool} (h : e.describedBy parts = .ok b) :
    outcome ((e :: near) :: up) (.compound parts :: rest) =
      if b then outcome up rest else outcome up (.compound parts :: rest) := by
  rw [outcome, h]
  rfl

/-- A match through `>` is a match of the compound after it and of the rest. -/
theorem outcome_child_eq_ok_true_iff {e : Profile} {near : List Profile} {up : Context Profile}
    {parts rest : List Entity} :
    outcome ((e :: near) :: up) (.combinator .child :: .compound parts :: rest) = .ok true ↔
      e.describedBy parts = .ok true ∧ outcome up rest = .ok true := by
  cases h : e.describedBy parts with
  | error x => simp [outcome, h, Except.bind]
  | ok b =>
    rw [outcome_child_of_describedBy h]
    cases b <;> simp

/-- A match through a compound is a match of the rest beyond the element at hand, or one of the
whole beyond it. -/
theorem outcome_compound_eq_ok_true_iff {e : Profile} {near : List Profile} {up : Context Profile}
    {parts rest : List Entity} :
    outcome ((e :: near) :: up) (.compound parts :: rest) = .ok true ↔
      (e.describedBy parts = .ok true ∧ outcome up rest = .ok true) ∨
        (e.describedBy parts = .ok false ∧ outcome up (.compound parts :: rest) = .ok true) := by
  cases h : e.describedBy parts with
  | error x => simp [outcome, h, Except.bind]
  | ok b =>
    rw [outcome_compound_of_describedBy h]
    cases b <;> simp

/-- What is left of a context at a cursor. -/
def left {α : Type} (context : Context α) (c : Cursor) : Context α :=
  match context.drop c.depth with
  | [] => []
  | level :: up => level.drop c.offset :: up

theorem left_eq_cons {α : Type} {context : Context α} {c : Cursor} (h : c.depth < context.length) :
    left context c = context[c.depth].drop c.offset :: context.drop (c.depth + 1) := by
  rw [left, List.drop_eq_getElem_cons h]

theorem left_eq_nil {α : Type} {context : Context α} {c : Cursor}
    (h : ¬ c.depth < context.length) : left context c = [] := by
  rw [left, List.drop_eq_nil_of_le (by omega)]

@[simp]
theorem left_outward {α : Type} (context : Context α) (c : Cursor) (consumed : Nat) :
    left context (c.outward consumed) = context.drop (c.depth + 1) := by
  simp only [left, Cursor.outward]
  split
  · next h => rw [h]
  · next h => rw [h, List.drop_zero]

theorem left_sideways {α : Type} {context : Context α} {c : Cursor}
    (h : c.depth < context.length) :
    left context c.sideways =
      context[c.depth].drop (c.offset + 1) :: context.drop (c.depth + 1) :=
  left_eq_cons (c := c.sideways) h

/-! ## Agreement -/

/-- A selector that is neither a combinator nor a compound skips a level, as does any selector
but `>` at a level without elements. -/
theorem outcome_skip {level : List Profile} {up : Context Profile} {s : Entity} {rest : List Entity}
    (hs : s ≠ .combinator .child) (h : s.isSelector = false ∨ level = []) :
    outcome (level :: up) (s :: rest) = outcome up (s :: rest) := by
  rcases h with h | rfl
  · cases s <;> simp_all [Entity.isSelector, outcome]
  · cases s with
    | combinator k => cases k <;> simp_all [outcome]
    | _ => simp [outcome]

/-- The table follows every step. -/
theorem outcome_eq_of_step (context : Context Profile) (selectors : List Entity) (c : Cursor) :
    outcome (left context c) (selectors.drop c.index) =
      match step context selectors c with
      | .error e => .error e
      | .ok (.done matched) => .ok matched
      | .ok (.next d) => outcome (left context d) (selectors.drop d.index) := by
  unfold step
  by_cases hi : c.index < selectors.length
  case neg =>
    rw [dif_neg hi, List.drop_eq_nil_of_le (Nat.le_of_not_lt hi), outcome]
  have hdrop := List.drop_eq_getElem_cons hi
  by_cases hd : c.depth < context.length
  case neg => rw [dif_pos hi, dif_neg hd, left_eq_nil hd, hdrop, outcome]
  -- from here on a selector and a level are left, and only their shapes matter
  rw [dif_pos hi, dif_pos hd, left_eq_cons hd]
  generalize selectors[c.index] = s at hdrop ⊢
  by_cases ho : c.offset < context[c.depth].length
  case neg =>
    -- the level has no element left: `>` fails and anything else leads outward
    rw [List.drop_eq_nil_of_le (Nat.le_of_not_lt ho)]
    by_cases hs : s = .combinator .child
    · simp [hs, ho, hdrop, outcome]
    · rw [hdrop, outcome_skip hs (.inr rfl), ← hdrop]
      cases s with
      | combinator k =>
        cases k with
        | nearby => simp only [ho, ↓reduceIte, left_outward, Cursor.index_outward,
          Nat.add_zero]
        | child => exact absurd rfl hs
      | _ => simp [ho]
  rw [List.drop_eq_getElem_cons ho]
  cases s with
  | combinator k =>
    cases k with
    | nearby =>
      rw [hdrop, outcome]
      simp only [ho, ↓reduceIte, left_sideways hd, Cursor.index_sideways]
    | child =>
      -- the selector after `>` is looked at, and consumed together with it
      rw [hdrop]
      by_cases hj : c.index + 1 < selectors.length
      case neg => simp [ho, hj, outcome, List.drop_eq_nil_of_le (Nat.le_of_not_lt hj)]
      rw [List.drop_eq_getElem_cons hj]
      simp only [ho, hj, ↓reduceDIte]
      generalize selectors[c.index + 1] = following
      cases following with
      | compound parts =>
        simp only [outcome]
        cases context[c.depth][c.offset].describedBy parts with
        | error e => rfl
        | ok b => cases b <;> simp [Except.bind, Except.map]
      | _ => simp [outcome]
  | compound parts =>
    simp only [ho, ↓reduceDIte, hdrop, outcome]
    cases context[c.depth][c.offset].describedBy parts with
    | error e => rfl
    | ok b => cases b <;> simp [Except.bind, Except.map, hdrop]
  | _ =>
    rw [hdrop, outcome_skip (by simp) (.inl rfl), ← hdrop]
    simp

/-- At every cursor, the run has the outcome of the table on what is left. -/
theorem run_eq_outcome (context : Context Profile) (selectors : List Entity) (c : Cursor) :
    run context selectors c = outcome (left context c) (selectors.drop c.index) := by
  fun_induction run context selectors c with
  | case1 c e h => rw [outcome_eq_of_step, h]
  | case2 c matched h => rw [outcome_eq_of_step, h]
  | case3 c d h ih => rw [outcome_eq_of_step, h, ih]

theorem isMatch_eq_outcome (context : Context Profile) (selectors : List Entity) :
    isMatch context selectors = outcome context selectors := by
  rw [isMatch, run_eq_outcome]
  cases context <;> rfl

end VectorStyle.Context
