import VectorStyle.Proofs.Length.UserUnits
import VectorStyle.Proofs.Style.Totality

/-!
# Lengths of resolved styles

A length in user units and a relative length are final: conversion leaves them as they are, at every
resolution, also at one for which the format has no finite number. Every length that has been
converted is final, so converting it once more changes nothing, and a relative length is never made
from another one. The lengths of resolved styles are converted ones.

Main statements: `IsFinal.toUserUnits_eq` and `isFinal_of_toUserUnits`; `length_eq_ok_some_iff`,
what the length of a style is; and `resolved_lengths_final`.
-/

set_option autoImplicit false

namespace VectorStyle

theorem LengthUnit.ne_of_mem {u : LengthUnit} :
    u ∈ [user, em, percent] → u.isPhysical = false ∧ u ≠ pixel := by
  cases u <;> decide

namespace Length

variable {dpi : Int} {l m : Length}

/-- The length is in user units or relative. -/
def IsFinal (l : Length) : Prop := l.unit ∈ [LengthUnit.user, .em, .percent]

/-- Such a length is neither to be scaled by the resolution nor in pixels. -/
theorem IsFinal.ne (h : l.IsFinal) : l.isPhysical = false ∧ l.unit ≠ .pixel :=
  LengthUnit.ne_of_mem h

theorem IsFinal.toUserUnits_eq (h : l.IsFinal) (dpi : Int) : l.toUserUnits dpi = .ok l := by
  rw [toUserUnits_of_not_isPhysical h.ne.1, if_neg h.ne.2]

/-- A relative length is converted to itself, and any other one to user units. -/
theorem eq_or_unit_of_toUserUnits (h : l.toUserUnits dpi = .ok m) :
    l.isRelative = true ∧ m = l ∨ l.isRelative = false ∧ m.unit = .user := by
  cases hrelative : l.isRelative with
  | true =>
    rw [toUserUnits_of_isRelative hrelative, Except.ok.injEq] at h
    exact .inl ⟨rfl, h.symm⟩
  | false =>
    obtain ⟨value, hvalue⟩ : ∃ value, toUserUnits dpi l = .ok ⟨value, .user⟩ := by
      cases hphysical : l.isPhysical with
      | false => exact exists_toUserUnits_of_absolute hphysical hrelative
      | true =>
        apply exists_toUserUnits_of_isPhysical hphysical
        rw [← Nat.not_le, ← Binary64.ofInt?_eq_none_iff]
        intro hnone
        rw [(toUserUnits_eq_error_iff dpi l .resolutionTooLarge).2 ⟨hphysical, hnone⟩] at h
        cases h
    rw [hvalue, Except.ok.injEq] at h
    exact .inr ⟨rfl, h ▸ rfl⟩

theorem isFinal_of_toUserUnits (h : l.toUserUnits dpi = .ok m) : m.IsFinal := by
  rw [IsFinal]
  rcases eq_or_unit_of_toUserUnits h with ⟨hrelative, rfl⟩ | ⟨-, hunit⟩
  · exact List.mem_cons_of_mem _ ((LengthUnit.isRelative_iff _).1 hrelative)
  · rw [hunit]
    exact List.mem_cons_self

theorem isRelative_of_toUserUnits (h : l.toUserUnits dpi = .ok m) :
    m.isRelative = l.isRelative := by
  rcases eq_or_unit_of_toUserUnits h with ⟨-, rfl⟩ | ⟨hrelative, hunit⟩
  · rfl
  · rw [hrelative, isRelative, hunit]
    rfl

end Length

/-- The length of a property is the first number of its last declaration, converted. -/
theorem ResolvedStyle.length_eq_ok_some_iff {s : ResolvedStyle} {property : String} {m : Length} :
    s.length property = .ok (some m) ↔
      ∃ d l, s.Decides property d ∧ d.HasFirstNumber l ∧ l.toUserUnits s.dpi = .ok m := by
  rw [length]
  split
  case h_1 hnone =>
    constructor
    · rintro ⟨⟩
    · rintro ⟨d, l, hd, hl, -⟩
      have hsome := firstNumber?_lookup_eq_some_iff.2 ⟨d, hd, hl⟩
      rw [hnone] at hsome
      cases hsome
  case h_2 l hsome =>
    rw [map_eq_ok_iff]
    constructor
    · rintro ⟨m', hm', heq⟩
      obtain rfl := Option.some.inj heq
      obtain ⟨d, hd, hl⟩ := firstNumber?_lookup_eq_some_iff.1 hsome
      exact ⟨d, l, hd, hl, hm'⟩
    · rintro ⟨d, l', hd, hl', hm⟩
      have hsome' := firstNumber?_lookup_eq_some_iff.2 ⟨d, hd, hl'⟩
      obtain rfl : l = l' := Option.some.inj (hsome.symm.trans hsome')
      exact ⟨m, hm, rfl⟩

namespace Style

/-- All styles of a document are for the resolution it was resolved for. -/
theorem dpi_of_mem_resolve {rules : List Rule} {dpi : Int} {t : Tree Element}
    {styles : List ResolvedStyle} (h : resolve rules dpi t = .ok styles) :
    ∀ s ∈ styles, s.dpi = dpi := by
  intro s hs
  obtain ⟨v, -, hv⟩ := exists_mem_of_forall₂ (mapM_eq_ok_iff.1 h) hs
  obtain ⟨ds, -, rfl⟩ := map_eq_ok_iff.1 hv
  rfl

/-- What a conversion returns is returned by every further conversion, whatever its resolution. It
is relative exactly if the length was, and never physical or in pixels. So the lengths that are
looked up in the styles of a document, which are the first numbers of the deciding declarations
after conversion, are in user units or relative and stay as they are. -/
theorem resolved_lengths_final :
    (∀ (d : Int) (l m : Length), l.toUserUnits d = .ok m →
      (∀ d', m.toUserUnits d' = .ok m) ∧ (m.isRelative = true ↔ l.isRelative = true) ∧
        m.isPhysical = false ∧ m.unit ≠ .pixel) ∧
    ∀ (rules : List Rule) (c : Config) (t : Tree Element) (styles : List ResolvedStyle),
      resolve rules c.dpi t = .ok styles → ∀ s ∈ styles, ∀ (property : String) (m : Length),
        s.length property = .ok (some m) →
          (∃ d l, s.Decides property d ∧ d.HasFirstNumber l ∧ l.toUserUnits c.dpi = .ok m) ∧
            m.unit ∈ [LengthUnit.user, .em, .percent] ∧ ∀ d', m.toUserUnits d' = .ok m := by
  constructor
  · intro d l m h
    have hfinal := Length.isFinal_of_toUserUnits h
    exact ⟨hfinal.toUserUnits_eq, by rw [Length.isRelative_of_toUserUnits h], hfinal.ne⟩
  · intro rules c t styles hresolve s hs property m hm
    rw [ResolvedStyle.length_eq_ok_some_iff, dpi_of_mem_resolve hresolve s hs] at hm
    obtain ⟨d, l, hd, hl, hconvert⟩ := hm
    have hfinal := Length.isFinal_of_toUserUnits hconvert
    exact ⟨⟨d, l, hd, hl, hconvert⟩, hfinal, hfinal.toUserUnits_eq⟩

/-- The inch of the root is in user units when it is looked up, and stays so at a resolution at
which an inch has no length. -/
theorem resolved_lengths_final_inch :
    ∃ s styles m, resolve inchRules ({} : Config).dpi drawingTree = .ok (s :: styles) ∧
      s.length "width" = .ok (some m) ∧ m.unit ∈ [LengthUnit.user, .em, .percent] ∧
      m.toUserUnits Binary64.wholeOverflow = .ok m := by
  have hresolve := resolve_eq_ok isPlain_inchRules ({} : Config).dpi drawingTree
  rw [Tree.walk_eq_visits, drawingTree, Tree.visits, List.map_cons] at hresolve
  have hrange : ({} : Config).dpi.natAbs < Binary64.wholeOverflow := by decide +kernel
  obtain ⟨value, hvalue⟩ := Length.exists_toUserUnits_of_isPhysical
    (l := ⟨Binary64.ofInt 1, .inch⟩) rfl hrange
  refine ⟨_, _, ⟨value, .user⟩, hresolve, ?_⟩
  have hlength : (styleOf inchRules ({} : Config).dpi
      ⟨named "svg" (by decide), [[named "svg" (by decide)]]⟩).length "width" =
        .ok (some ⟨value, .user⟩) := by
    rw [ResolvedStyle.length_eq_ok_some_iff]
    refine ⟨.single "width" [.number ⟨Binary64.ofInt 1, .inch⟩], ⟨Binary64.ofInt 1, .inch⟩, ?_, ?_,
      hvalue⟩
    · rw [ResolvedStyle.Decides, styleOf]
      exact ⟨[], [], declared_inchRules _ _ _, rfl, List.forall_mem_nil _⟩
    · rw [Declaration.HasFirstNumber, Declaration.terms_single]
      exact ⟨[], [], rfl, List.forall_mem_nil _⟩
  obtain ⟨-, hunit, hfinal⟩ :=
    resolved_lengths_final.2 _ _ _ _ hresolve _ List.mem_cons_self _ _ hlength
  exact ⟨hlength, hunit, hfinal _⟩

end Style

end VectorStyle
