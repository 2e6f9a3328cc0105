import VectorStyle.Entity.Inspect

/-!
# Which elements a compound selector describes

A descriptor is a condition on what a selector sees of an element. A compound selector describes an
element if all its parts are descriptors that do. Its parts are tested from left to right and the
first that fails ends the test, so that a part which is no descriptor is an error only if the test
reaches it.

Main statements: `describedBy_eq_ok_true_iff` and `describedBy_eq_error_iff`, the exact outcomes;
and `describedBy_map_descriptor`, where all parts are descriptors.
-/

set_option autoImplicit false

namespace VectorStyle

/-- Why a compound selector cannot be tested. -/
inductive MatchError where
  | notADescriptor (e : Entity)

/-- The text of the error. -/
def MatchError.message : MatchError → String
  | notADescriptor e => "Unknown CSS descriptor: " ++ e.shown

/-- Whether a descriptor holds for an element. No element has a pseudo class. -/
def Descriptor.describes (p : Profile) : Descriptor → Bool
  | ofClass n => p.classes.contains n
  | ofName n => p.name == n
  | ofId n => p.id == some n
  | ofPseudoClass _ => false
  | anyElement => true
  | withAttribute n v => p.attributeValue n == some v

/-- Whether an entity is a descriptor that holds for an element. -/
def Entity.describes (p : Profile) : Entity → Bool
  | .descriptor d => d.describes p
  | _ => false

namespace Profile

/-- Whether an element is described by all parts of a compound selector. -/
def describedBy (p : Profile) : List Entity → Except MatchError Bool
  | [] => .ok true
  | .descriptor d :: parts => if d.describes p then p.describedBy parts else .ok false
  | e :: _ => .error (.notADescriptor e)

/-- A part that holds leaves the rest of the test. -/
theorem describedBy_cons_of_describes {p : Profile} {e : Entity} {parts : List Entity}
    (h : e.describes p = true) : p.describedBy (e :: parts) = p.describedBy parts := by
  cases e with
  | descriptor d => exact if_pos h
  | _ => cases h

/-- A descriptor that does not hold ends the test. -/
theorem describedBy_cons_of_not_describes {p : Profile} {e : Entity} {parts : List Entity}
    (hd : e.isDescriptor = true) (h : e.describes p = false) :
    p.describedBy (e :: parts) = .ok false := by
  cases e with
  | descriptor d => exact if_neg (by simpa [Entity.describes] using h)
  | _ => cases hd

/-- A part that is no descriptor is an error. -/
theorem describedBy_cons_of_not_isDescriptor {p : Profile} {e : Entity} {parts : List Entity}
    (h : e.isDescriptor = false) : p.describedBy (e :: parts) = .error (.notADescriptor e) := by
  cases e with
  | descriptor d => cases h
  | _ => rfl

theorem describedBy_eq_ok_true_iff (p : Profile) (parts : List Entity) :
    p.describedBy parts = .ok true ↔ ∀ e ∈ parts, e.describes p = true := by
  induction parts with
  | nil => simp [describedBy]
  | cons e parts ih =>
    rw [List.forall_mem_cons]
    cases he : e.describes p with
    | true => simp [describedBy_cons_of_describes he, ih]
    | false =>
      cases hd : e.isDescriptor with
      | true => simp [describedBy_cons_of_not_describes hd he]
      | false => simp [describedBy_cons_of_not_isDescriptor hd]

/-- The test fails for want of a descriptor exactly at the first part that does not hold. -/
theorem describedBy_eq_error_iff (p : Profile) (parts : List Entity) (e : Entity) :
    p.describedBy parts = .error (.notADescriptor e) ↔
      ∃ before after, parts = before ++ e :: after ∧ e.isDescriptor = false ∧
        ∀ d ∈ before, d.describes p = true := by
  constructor
  · intro h
    induction parts with
    | nil => cases h
    | cons d parts ih =>
      cases hp : d.describes p with
      | true =>
        rw [describedBy_cons_of_describes hp] at h
        obtain ⟨before, after, rfl, he, hb⟩ := ih h
        exact ⟨d :: before, after, rfl, he, List.forall_mem_cons.2 ⟨hp, hb⟩⟩
      | false =>
        cases hd : d.isDescriptor with
        | true =>
          rw [describedBy_cons_of_not_describes hd hp] at h
          cases h
        | false =>
          rw [describedBy_cons_of_not_isDescriptor hd] at h
          cases h
          exact ⟨[], parts, rfl, hd, by simp⟩
  · rintro ⟨before, after, rfl, he, hb⟩
    induction before with
    | nil => exact describedBy_cons_of_not_isDescriptor he
    | cons d before ih =>
      rw [List.forall_mem_cons] at hb
      rw [List.cons_append, describedBy_cons_of_describes hb.1]
      exact ih hb.2

/-- Compound selectors made of descriptors can always be tested. -/
theorem describedBy_of_descriptors (p : Profile) (parts : List Entity)
    (h : ∀ e ∈ parts, e.isDescriptor = true) :
    p.describedBy parts = .ok (parts.all (Entity.describes p)) := by
  induction parts with
  | nil => rfl
  | cons e parts ih =>
    rw [List.forall_mem_cons] at h
    cases he : e.describes p with
    | true => rw [describedBy_cons_of_describes he, ih h.2, List.all_cons, he, Bool.true_and]
    | false => rw [describedBy_cons_of_not_describes h.1 he, List.all_cons, he, Bool.false_and]

end Profile

/-! ## Compounds of descriptors -/

/-- The compound selector of descriptors. -/
def Entity.compoundOf (ds : List Descriptor) : Entity := .compound (ds.map .descriptor)

/-- The element satisfies all descriptors. -/
def Profile.Satisfies (p : Profile) (ds : List Descriptor) : Prop :=
  ∀ d ∈ ds, d.describes p = true

instance (p : Profile) (ds : List Descriptor) : Decidable (p.Satisfies ds) :=
  inferInstanceAs (Decidable (∀ d ∈ ds, d.describes p = true))

theorem Entity.isDescriptor_of_mem_compoundOf {ds : List Descriptor} {parts : List Entity}
    (h : .compound parts = compoundOf ds) : ∀ e ∈ parts, e.isDescriptor = true := by
  cases h
  intro e he
  obtain ⟨d, -, rfl⟩ := List.mem_map.1 he
  rfl

/-- The test of a compound of descriptors. -/
theorem Profile.describedBy_map_descriptor (p : Profile) (ds : List Descriptor) :
    p.describedBy (ds.map .descriptor) = .ok (decide (p.Satisfies ds)) := by
  rw [Profile.describedBy_of_descriptors p _ (Entity.isDescriptor_of_mem_compoundOf rfl),
    List.all_map]
  congr 1
  rw [Bool.eq_iff_iff, decide_eq_true_iff, List.all_eq_true]
  rfl

end VectorStyle
