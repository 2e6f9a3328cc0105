import Mathlib.Logic.Relation
import VectorStyle.Selector.Outcome

/-!
# Runs of the cursor

A match is a run of the cursor from the start of the context and of the selectors. `StepsTo` is one
step of it and `Reaches` the cursors that it comes by. The machine `tryStep` takes its subscripts
without knowing that they are in range.

Main statements: `within_of_reaches`, no run leaves the lists it works on; `tryStep_eq_some_step`,
no subscript of a step fails; `exists_end_of_run`, every run comes to an end; and
`isMatch_follows_outcome`, which adds the decision table `Context.outcome`.
-/

set_option autoImplicit false

namespace VectorStyle.Context

variable {context : Context Profile} {selectors : List Entity} {c d : Cursor}

/-- The step at one cursor leads to the other. -/
def StepsTo (context : Context Profile) (selectors : List Entity) (c d : Cursor) : Prop :=
  step context selectors c = .ok (.next d)

/-- The run of a match comes by the cursor. -/
def Reaches (context : Context Profile) (selectors : List Entity) (c : Cursor) : Prop :=
  Relation.ReflTransGen (StepsTo context selectors) ⟨0, 0, 0⟩ c

/-- The step at the cursor ends the run with the outcome. -/
def EndsWith (context : Context Profile) (selectors : List Entity) (c : Cursor)
    (outcome : Except MatchError Bool) : Prop :=
  step context selectors c = outcome.map .done

/-! ## Subscripts -/

/-- A cursor that points into its lists or to their ends. -/
structure Within (context : Context Profile) (selectors : List Entity) (c : Cursor) : Prop where
  depth_le : c.depth ≤ context.length
  offset_le : ∀ level, context[c.depth]? = some level → c.offset ≤ level.length
  index_le : c.index ≤ selectors.length

/-- The step with subscripts that can fail: the result is `none` if one is out of range. -/
def tryStep (context : Context Profile) (selectors : List Entity) (c : Cursor) :
    Option (Except MatchError Progress) :=
  if selectors.length ≤ c.index then some (.ok (.done true))
  else if context.length ≤ c.depth then some (.ok (.done false))
  else do
    let level ← context[c.depth]?
    let selector ← selectors[c.index]?
    match selector with
    | .combinator .nearby =>
      some (.ok (.next (if c.offset < level.length then c.sideways else c.outward 0)))
    | .combinator .child =>
      if c.index + 1 < selectors.length then
        match ← selectors[c.index + 1]? with
        | .compound parts =>
          if c.offset < level.length then
            level[c.offset]?.map fun e =>
              (e.describedBy parts).map fun b => if b then .next (c.outward 2) else .done false
          else some (.ok (.done false))
        | _ => some (.ok (.done false))
      else some (.ok (.done false))
    | .compound parts =>
      if c.offset < level.length then
        level[c.offset]?.map fun e =>
          (e.describedBy parts).map fun b => .next (c.outward (if b then 1 else 0))
      else some (.ok (.next (c.outward 0)))
    | _ => some (.ok (.next (c.outward 0)))

/-- No subscript of a step is out of range. -/
theorem tryStep_eq_some_step (context : Context Profile) (selectors : List Entity) (c : Cursor) :
    tryStep context selectors c = some (step context selectors c) := by
  unfold tryStep step
  by_cases hi : c.index < selectors.length
  case neg => rw [if_pos (Nat.le_of_not_lt hi), dif_neg hi]
  by_cases hd : c.depth < context.length
  case neg => rw [if_neg (by omega), if_pos (Nat.le_of_not_lt hd), dif_pos hi, dif_neg hd]
  rw [if_neg (by omega), if_neg (by omega), dif_pos hi, dif_pos hd]
  rw [List.getElem?_eq_getElem hd, List.getElem?_eq_getElem hi]
  simp only [Option.bind_eq_bind, Option.bind_some]
  cases selectors[c.index] with
  | combinator k =>
    cases k with
    | nearby => rfl
    | child =>
      by_cases hj : c.index + 1 < selectors.length
      case neg => simp [hj]
      -- the look-ahead is in range, and so is the element if the level has one left
      rw [if_pos hj, List.getElem?_eq_getElem hj]
      simp only [hj, Option.bind_some, ↓reduceDIte]
      cases selectors[c.index + 1] with
      | compound parts => by_cases ho : c.offset < context[c.depth].length <;> simp [ho]
      | _ => simp
  | compound parts => by_cases ho : c.offset < context[c.depth].length <;> simp [ho]
  | _ => rfl

/-- A step does not leave the lists. -/
theorem Within.next (hc : Within context selectors c) (h : StepsTo context selectors c d) :
    Within context selectors d := by
  obtain ⟨hi, hd, ⟨ho, rfl⟩ | ⟨consumed, hj, rfl⟩⟩ := next_of_step h
  · refine ⟨hc.depth_le, ?_, hi⟩
    intro level hlevel
    obtain ⟨-, rfl⟩ := List.getElem?_eq_some_iff.1 hlevel
    exact ho
  · exact ⟨hd, fun level _ => Nat.zero_le level.length, hj⟩

/-- No run leaves the lists. -/
theorem within_of_reaches (h : Reaches context selectors c) : Within context selectors c := by
  induction h with
  | refl => exact ⟨Nat.zero_le _, fun level _ => Nat.zero_le _, Nat.zero_le _⟩
  | tail _ hstep ih => exact ih.next hstep

/-! ## The end of a run -/

/-- From every cursor the steps lead to one that ends the run, with the outcome of the run. -/
theorem exists_end_of_run (context : Context Profile) (selectors : List Entity) (c : Cursor) :
    ∃ d, Relation.ReflTransGen (StepsTo context selectors) c d ∧
      EndsWith context selectors d (run context selectors c) := by
  fun_induction run context selectors c with
  | case1 c e h => exact ⟨c, .refl, h⟩
  | case2 c matched h => exact ⟨c, .refl, h⟩
  | case3 c d h ih =>
    obtain ⟨last, hreach, hend⟩ := ih
    exact ⟨last, .head h hreach, hend⟩

/-- A match ends with the outcome of the decision table. At every cursor on the way the rest of the
run has the outcome of the table on what is left, no subscript fails, and the cursor is within the
lists. -/
theorem isMatch_follows_outcome (context : Context Profile) (selectors : List Entity) :
    isMatch context selectors = outcome context selectors ∧
      (∃ c, Reaches context selectors c ∧
        EndsWith context selectors c (outcome context selectors)) ∧
      ∀ c, Reaches context selectors c →
        run context selectors c = outcome (left context c) (selectors.drop c.index) ∧
          tryStep context selectors c = some (step context selectors c) ∧
          Within context selectors c := by
  have hmatch := isMatch_eq_outcome context selectors
  refine ⟨hmatch, ?_, ?_⟩
  · obtain ⟨c, hreach, hend⟩ := exists_end_of_run context selectors ⟨0, 0, 0⟩
    rw [← hmatch]
    exact ⟨c, hreach, hend⟩
  · intro c hreach
    exact ⟨run_eq_outcome context selectors c, tryStep_eq_some_step context selectors c,
      within_of_reaches hreach⟩

end VectorStyle.Context
