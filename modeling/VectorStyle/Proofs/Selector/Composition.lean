import VectorStyle.Proofs.Selector.Placement
import VectorStyle.Proofs.Selector.Run
import VectorStyle.Style.Hits

/-!
# One selector list after another

The run on `first ++ second` begins as the run on `first`. A step looks at the selector at hand and,
at a `>`, at the one behind it, so as long as the cursor stands in `first` the steps of the two runs
are the same, provided that `first` does not end with a `>`.

Where the run on `first` fails, the longer one fails in the same way. Where it succeeds, it has come
to the end of `first`, and what it has left of the context is all that the rest of the longer run
knows: it is a match of `second` against the remainder.

Main statements: `step_append`, the steps in the first list; `run_append_of_reaches`, the run as far
as the first list goes; and `isMatch_append`, the outcome of the whole.
-/

set_option autoImplicit false

namespace VectorStyle.Context

variable {context : Context Profile} {first : List Entity} {c d : Cursor}

/-! ## Steps -/

/-- Exactly behind the last selector a step ends the run with a match. -/
theorem step_eq_done_true_iff {selectors : List Entity} :
    step context selectors c = .ok (.done true) ↔ selectors.length ≤ c.index := by
  rw [← Nat.not_lt]
  constructor
  · intro h hi
    unfold step at h
    rw [dif_pos hi] at h
    split at h
    case isFalse => cases h
    case isTrue hd =>
    split at h
    · cases h
    · split at h
      case isFalse => cases h
      case isTrue ho =>
      split at h
      case isFalse => cases h
      case isTrue hj =>
      split at h
      · obtain ⟨b, -, hb⟩ := map_eq_ok_iff.1 h
        cases b <;> cases hb
      · cases h
    · split at h
      · obtain ⟨b, -, hb⟩ := map_eq_ok_iff.1 h
        cases hb
      · cases h
    · cases h
  · intro hi
    rw [step, dif_neg hi]

/-- If a list does not end with `>`, each `>` in it has a selector behind it. -/
theorem succ_lt_length_of_child (hlast : first.getLast? ≠ some (.combinator .child)) {i : Nat}
    (hi : i < first.length) (hchild : first[i] = .combinator .child) : i + 1 < first.length := by
  apply Nat.lt_of_le_of_ne hi
  intro hend
  apply hlast
  rw [List.getLast?_eq_getElem?, ← hend, Nat.succ_sub_one, List.getElem?_eq_getElem hi, hchild]

/-- In the first list, the steps do not depend on what stands behind it. -/
theorem step_append (hlast : first.getLast? ≠ some (.combinator .child))
    (hi : c.index < first.length) (second : List Entity) :
    step context (first ++ second) c = step context first c := by
  have hi' : c.index < (first ++ second).length := by
    rw [List.length_append]
    omega
  unfold step
  rw [dif_pos hi', dif_pos hi, List.getElem_append_left hi]
  by_cases hd : c.depth < context.length
  case neg => rw [dif_neg hd, dif_neg hd]
  rw [dif_pos hd, dif_pos hd]
  cases hs : first[c.index] with
  | combinator k =>
    cases k with
    | nearby => rfl
    | child =>
      -- the look-ahead stays in the first list
      have hj := succ_lt_length_of_child hlast hi hs
      have hj' : c.index + 1 < (first ++ second).length := by
        rw [List.length_append]
        omega
      simp only [hj, hj', ↓reduceDIte, List.getElem_append_left hj]
  | _ => rfl

/-! ## Runs -/

theorem run_of_stepsTo {selectors : List Entity} (h : StepsTo context selectors c d) :
    run context selectors c = run context selectors d := by
  rw [run_eq_outcome, run_eq_outcome, outcome_eq_of_step, h]

/-- The step that ends a run gives its outcome. -/
theorem run_of_endsWith {selectors : List Entity} {o : Except MatchError Bool}
    (h : EndsWith context selectors c o) : run context selectors c = o := by
  rw [run_eq_outcome, outcome_eq_of_step, h]
  cases o <;> rfl

/-- A cursor that steps on stands in the list. -/
theorem index_lt_of_stepsTo {selectors : List Entity} (h : StepsTo context selectors c d) :
    c.index < selectors.length := (next_of_step h).1

/-- The run on the longer list comes by the cursors of the run on the first list. -/
theorem run_append_of_reaches (hlast : first.getLast? ≠ some (.combinator .child))
    (h : Reaches context first c) (second : List Entity) :
    isMatch context (first ++ second) = run context (first ++ second) c := by
  induction h with
  | refl => rfl
  | @tail c d _ hstep ih =>
    have hstep' : StepsTo context (first ++ second) c d := by
      rw [StepsTo, step_append hlast (index_lt_of_stepsTo hstep)]
      exact hstep
    rw [ih, run_of_stepsTo hstep']

/-! ## Composition -/

/-- A run succeeds if it comes to the end of the list, and only then. -/
theorem eq_ok_true_iff_of_endsWith {selectors : List Entity} {o : Except MatchError Bool}
    (hreach : Reaches context selectors c) (hend : EndsWith context selectors c o) :
    o = .ok true ↔ c.index = selectors.length := by
  have hle := (within_of_reaches hreach).index_le
  have hdone : step context selectors c = .ok (.done true) ↔ selectors.length ≤ c.index :=
    step_eq_done_true_iff
  rw [hend] at hdone
  constructor
  · rintro rfl
    exact Nat.le_antisymm hle (hdone.1 rfl)
  · intro heq
    obtain ⟨b, rfl, hb⟩ := map_eq_ok_iff.1 (hdone.2 (Nat.le_of_eq heq.symm))
    cases hb
    rfl

/-- Where the run on the first list ends within it, the longer run ends as well. -/
theorem isMatch_append_of_index_lt (hlast : first.getLast? ≠ some (.combinator .child))
    {o : Except MatchError Bool} (hreach : Reaches context first c)
    (hend : EndsWith context first c o) (hlt : c.index < first.length) (second : List Entity) :
    isMatch context (first ++ second) = o := by
  have hend' : EndsWith context (first ++ second) c o := by
    rw [EndsWith, step_append hlast hlt]
    exact hend
  rw [run_append_of_reaches hlast hreach, run_of_endsWith hend']

/-- Where it ends behind the list, the rest of the longer run is a match of the second list against
what is left of the context. -/
theorem isMatch_append_of_index_eq (hlast : first.getLast? ≠ some (.combinator .child))
    (hreach : Reaches context first c) (heq : c.index = first.length) (second : List Entity) :
    isMatch context (first ++ second) = isMatch (left context c) second := by
  rw [run_append_of_reaches hlast hreach, run_eq_outcome, isMatch_eq_outcome, heq, List.drop_left]

/-- If more ancestors stand in front of an alternative, it matches no more contexts. -/
theorem isHit_of_append {ancestors alternative : List Entity}
    (hhead : alternative.head? ≠ some (.combinator .child))
    (h : Style.isHit context (ancestors ++ alternative) = .ok true) :
    Style.isHit context alternative = .ok true := by
  have hlast : alternative.reverse.getLast? ≠ some (.combinator .child) := by
    rwa [List.getLast?_reverse]
  obtain ⟨c, hreach, hend⟩ := exists_end_of_run context alternative.reverse ⟨0, 0, 0⟩
  change EndsWith context _ c (Style.isHit context alternative) at hend
  rw [Style.isHit, List.reverse_append] at h
  rcases Nat.lt_or_eq_of_le (within_of_reaches hreach).index_le with hlt | heq
  · rw [← isMatch_append_of_index_lt hlast hreach hend hlt, h]
  · exact (eq_ok_true_iff_of_endsWith hreach hend).2 heq

/-- A list that does not end with `>` decides alone where it fails, and whatever is put behind it
fails in the same way. Where it succeeds, it leaves a remainder of the context, and whatever is put
behind it has the outcome that it has against the remainder. Hence ancestors in front of an
alternative can only take matches away. -/
theorem isMatch_append (context : Context Profile) {first : List Entity}
    (hlast : first.getLast? ≠ some (.combinator .child)) :
    ((isMatch context first = .ok false ∨ ∃ e, isMatch context first = .error e) ∧
        (∀ second, isMatch context (first ++ second) = isMatch context first) ∨
      isMatch context first = .ok true ∧
        ∃ c, Reaches context first c ∧ c.index = first.length ∧
          ∀ second, isMatch context (first ++ second) = isMatch (left context c) second) ∧
    ∀ ancestors, Style.isHit context (ancestors ++ first.reverse) = .ok true →
      Style.isHit context first.reverse = .ok true := by
  refine ⟨?_, fun ancestors => isHit_of_append (by rwa [List.head?_reverse])⟩
  obtain ⟨c, hreach, hend⟩ := exists_end_of_run context first ⟨0, 0, 0⟩
  change EndsWith context first c (isMatch context first) at hend
  have htrue := eq_ok_true_iff_of_endsWith hreach hend
  rcases Nat.lt_or_eq_of_le (within_of_reaches hreach).index_le with hlt | heq
  · left
    refine ⟨?_, isMatch_append_of_index_lt hlast hreach hend hlt⟩
    cases hmatch : isMatch context first with
    | error e => exact Or.inr ⟨e, rfl⟩
    | ok b =>
      cases b with
      | false => exact Or.inl rfl
      | true => exact absurd (htrue.1 hmatch) (Nat.ne_of_lt hlt)
  · right
    exact ⟨htrue.2 heq, c, hreach, heq, isMatch_append_of_index_eq hlast hreach heq⟩

/-- A circle and a `+`: the hop has left the group, and the rectangle beside it is still there. -/
def besideCircle : List Entity := [.compoundOf [.ofName "circle"], .combinator .nearby]

/-- What is left of the drawing behind the hop decides for every continuation. -/
theorem isMatch_append_besideCircle :
    besideCircle.getLast? ≠ some (.combinator .child) ∧ isMatch drawing besideCircle = .ok true ∧
      ∃ c, Reaches drawing besideCircle c ∧ c.index = 2 ∧
        ∀ second, isMatch drawing (besideCircle ++ second) = isMatch (left drawing c) second := by
  have hlast : besideCircle.getLast? ≠ some (.combinator .child) := by simp [besideCircle]
  have hmatch : isMatch drawing besideCircle = .ok true := by
    rw [isMatch_eq_ok_true_iff]
    refine .take _ ?_ (.hop _ (.nil _))
    rw [Profile.describedBy_map_descriptor]
    rfl
  rcases (isMatch_append drawing hlast).1 with ⟨hfail, -⟩ | hleft
  · simp [hmatch] at hfail
  · exact ⟨hlast, hleft⟩

end VectorStyle.Context
