import VectorStyle.Context
import VectorStyle.Except
import VectorStyle.Selector.Description

/-!
# Matching selectors against a context

Selectors are matched from the target outward, so they are given target first. `Context.run` moves a
cursor over the levels of a context and the selectors; `Context.isMatch` starts it at the innermost
element.

Main statement: `measure_lt_of_step`, every step leaves fewer levels or fewer selectors, so that
each run ends.
-/

set_option autoImplicit false

namespace VectorStyle

/-- A place in a run: the level, the sibling within the level, and the next selector. -/
structure Cursor where
  depth : Nat
  offset : Nat
  index : Nat
deriving DecidableEq, Repr

/-- What a step leads to. -/
inductive Progress where
  | done (matched : Bool)
  | next (c : Cursor)

namespace Cursor

/-- The cursor at the element of the next level, `consumed` selectors further. -/
def outward (c : Cursor) (consumed : Nat) : Cursor := ⟨c.depth + 1, 0, c.index + consumed⟩

/-- The cursor at the preceding sibling, one selector further. -/
def sideways (c : Cursor) : Cursor := ⟨c.depth, c.offset + 1, c.index + 1⟩

@[simp]
theorem index_outward (c : Cursor) (consumed : Nat) :
    (c.outward consumed).index = c.index + consumed := rfl

@[simp]
theorem index_sideways (c : Cursor) : c.sideways.index = c.index + 1 := rfl

end Cursor

namespace Context

/-! ## The run of the cursor -/

/-- One step. Where the level has no element left, combinators and compounds lose their meaning:
`>` ends the run and anything else leads to the next level. -/
def step (context : Context Profile) (selectors : List Entity) (c : Cursor) :
    Except MatchError Progress :=
  if hi : c.index < selectors.length then
    if hd : c.depth < context.length then
      match selectors[c.index] with
      | .combinator .nearby =>
        .ok (.next (if c.offset < context[c.depth].length then c.sideways else c.outward 0))
      | .combinator .child =>
        if ho : c.offset < context[c.depth].length then
          if hj : c.index + 1 < selectors.length then
            match selectors[c.index + 1] with
            | .compound parts => (context[c.depth][c.offset].describedBy parts).map fun b =>
              if b then .next (c.outward 2) else .done false
            | _ => .ok (.done false)
          else .ok (.done false)
        else .ok (.done false)
      | .compound parts =>
        if ho : c.offset < context[c.depth].length then
          (context[c.depth][c.offset].describedBy parts).map fun b =>
            .next (c.outward (if b then 1 else 0))
        else .ok (.next (c.outward 0))
      | _ => .ok (.next (c.outward 0))
    else .ok (.done false)
  else .ok (.done true)

/-- What a run has left at a cursor, counted in selectors and levels. -/
def measure (context : Context Profile) (selectors : List Entity) (c : Cursor) : Nat :=
  (selectors.length - c.index) + (context.length - c.depth)

theorem measure_outward (context : Context Profile) (selectors : List Entity) (c : Cursor)
    (consumed : Nat) (h : c.depth < context.length) :
    measure context selectors (c.outward consumed) < measure context selectors c := by
  simp only [measure, Cursor.outward]
  omega

theorem measure_sideways (context : Context Profile) (selectors : List Entity) (c : Cursor)
    (h : c.index < selectors.length) :
    measure context selectors c.sideways < measure context selectors c := by
  simp only [measure, Cursor.sideways]
  omega

/-- What a step that does not end the run does: it goes to the preceding sibling, or outward past no
more selectors than there are. -/
theorem next_of_step {context : Context Profile} {selectors : List Entity} {c d : Cursor}
    (h : step context selectors c = .ok (.next d)) :
    c.index < selectors.length ∧ ∃ hd : c.depth < context.length,
      (c.offset < context[c.depth].length ∧ d = c.sideways) ∨
        ∃ consumed, c.index + consumed ≤ selectors.length ∧ d = c.outward consumed := by
  unfold step at h
  split at h
  case isFalse => cases h
  case isTrue hi =>
  split at h
  case isFalse => cases h
  case isTrue hd =>
  refine ⟨hi, hd, ?_⟩
  split at h
  · split at h
    case isTrue ho =>
      cases h
      exact Or.inl ⟨ho, rfl⟩
    case isFalse =>
      cases h
      exact Or.inr ⟨0, Nat.le_of_lt hi, rfl⟩
  · split at h
    case isFalse => cases h
    case isTrue ho =>
    split at h
    case isFalse => cases h
    case isTrue hj =>
    split at h
    · obtain ⟨b, -, hb⟩ := map_eq_ok_iff.1 h
      cases b <;> cases hb
      exact Or.inr ⟨2, hj, rfl⟩
    · cases h
  · split at h
    · obtain ⟨b, -, hb⟩ := map_eq_ok_iff.1 h
      cases hb
      exact Or.inr ⟨_, by split <;> omega, rfl⟩
    · cases h
      exact Or.inr ⟨0, Nat.le_of_lt hi, rfl⟩
  · cases h
    exact Or.inr ⟨0, Nat.le_of_lt hi, rfl⟩

/-- Every step that does not end the run lowers the measure. -/
theorem measure_lt_of_step {context : Context Profile} {selectors : List Entity} {c d : Cursor}
    (h : step context selectors c = .ok (.next d)) :
    measure context selectors d < measure context selectors c := by
  obtain ⟨hi, hd, ⟨-, rfl⟩ | ⟨consumed, -, rfl⟩⟩ := next_of_step h
  · exact measure_sideways context selectors c hi
  · exact measure_outward context selectors c consumed hd

/-- The outcome of the steps from a cursor on. -/
def run (context : Context Profile) (selectors : List Entity) (c : Cursor) :
    Except MatchError Bool :=
  match _h : step context selectors c with
  | .error e => .error e
  | .ok (.done matched) => .ok matched
  | .ok (.next d) => run context selectors d
termination_by measure context selectors c
decreasing_by exact measure_lt_of_step (by assumption)

/-- Whether selectors, given target first, match the innermost element of a context. -/
def isMatch (context : Context Profile) (selectors : List Entity) : Except MatchError Bool :=
  run context selectors ⟨0, 0, 0⟩

end Context

end VectorStyle
