import VectorStyle.Entity.Equality
import VectorStyle.Proofs.Entity.Outcomes
import VectorStyle.Proofs.Length.Equality

/-!
# Entities that are the same are written alike

Entities that are the same have parts that are the same, one by one, and write the same around the
texts of their parts. So they have the same text, however deep the parts are nested, unless
something foreign is among them: what is foreign has no text, and what is shown of it may differ, as
with the whole number one and the truth value that counts as it.

Main statements: `Entity.corresponds_of_same`, what entities that are the same have in common on one
level; `Entity.text_eq_ok_iff_of_same`, on all levels; and `Entity.text_congr_of_same`.
-/

set_option autoImplicit false

namespace VectorStyle

/-! ## Lists -/

theorem sameAll_iff {es fs : List Entity} :
    sameAll es fs = true ↔ List.Forall₂ (fun e f => e.same f = true) es fs := by
  induction es generalizing fs with
  | nil => cases fs <;> simp [sameAll]
  | cons e es ih =>
    cases fs with
    | nil => simp [sameAll]
    | cons f fs => rw [sameAll, Bool.and_eq_true, List.forall₂_cons, ih]

theorem sameGroups_iff {gs hs : List (List Entity)} :
    sameGroups gs hs = true ↔ List.Forall₂ (List.Forall₂ fun e f => e.same f = true) gs hs := by
  induction gs generalizing hs with
  | nil => cases hs <;> simp [sameGroups]
  | cons g gs ih =>
    cases hs with
    | nil => simp [sameGroups]
    | cons h hs => rw [sameGroups, Bool.and_eq_true, List.forall₂_cons, sameAll_iff, ih]

/-- Alternatives that are the same are the same sequences. -/
theorem forall₂_sequence_of_sameGroups {as bs : List (List Entity)} (h : sameGroups as bs = true) :
    List.Forall₂ (fun e f => e.same f = true) (as.map Entity.sequence)
      (bs.map Entity.sequence) := by
  rw [List.forall₂_map_left_iff, List.forall₂_map_right_iff]
  refine (sameGroups_iff.1 h).imp fun a b hab => ?_
  rw [Entity.same]
  exact sameAll_iff.2 hab

namespace Entity

/-! ## One level -/

/-- What two entities have in common on one level: what is written around given texts of the parts,
and parts that are the same one by one. -/
structure Corresponds (a b : Entity) : Prop where
  assembled_eq : ∀ ts, a.assembled ts = b.assembled ts
  parts_same : List.Forall₂ (fun p q => p.same q = true) a.parts b.parts

/-- Of a kind without parts, all that is written comes from what is compared. -/
theorem corresponds_leaf {α : Type} [BEq α] [LawfulBEq α] {leaf : α → Entity}
    (hleaf : ∀ x, (leaf x).parts = []) {x y : α} (h : (x == y) = true) :
    (leaf x).Corresponds (leaf y) := by
  obtain rfl := eq_of_beq h
  refine ⟨fun ts => rfl, ?_⟩
  rw [hleaf]
  exact .nil

theorem corresponds_block {as bs : List (List Entity)} {ps qs : List Entity}
    (h : (sameGroups as bs && sameAll ps qs) = true) : (block as ps).Corresponds (block bs qs) := by
  rw [Bool.and_eq_true] at h
  refine ⟨fun ts => ?_, ?_⟩
  · rw [assembled, assembled, (sameGroups_iff.1 h.1).length_eq]
  · exact List.rel_append (forall₂_sequence_of_sameGroups h.1) (sameAll_iff.1 h.2)

theorem corresponds_declaration {d e : Declaration} (h : d.same e = true) :
    (declaration d).Corresponds (declaration e) := by
  obtain ⟨property, gs⟩ := d
  obtain ⟨property', hs⟩ := e
  rw [Declaration.same, Bool.and_eq_true, beq_iff_eq] at h
  obtain ⟨rfl, hgroups⟩ := h
  exact ⟨fun ts => rfl, List.rel_flatten (sameGroups_iff.1 hgroups)⟩

theorem corresponds_function {n m : String} {as bs : List Entity}
    (h : (n == m && sameAll as bs) = true) : (function n as).Corresponds (function m bs) := by
  rw [Bool.and_eq_true, beq_iff_eq] at h
  obtain ⟨rfl, hargs⟩ := h
  exact ⟨fun ts => rfl, sameAll_iff.1 hargs⟩

/-- Entities that are the same correspond on one level. -/
theorem corresponds_of_same {a b : Entity} (h : a.same b = true) : a.Corresponds b := by
  revert h
  -- one case for each kind that both entities can be of, and a last one for entities of two kinds
  fun_cases Entity.same a b with
  | case1 d e => exact corresponds_leaf fun _ => rfl
  | case2 c d => exact corresponds_leaf fun _ => rfl
  | case3 ps qs => exact fun h => ⟨fun ts => rfl, sameAll_iff.1 h⟩
  | case4 is js => exact fun h => ⟨fun ts => rfl, sameAll_iff.1 h⟩
  | case5 as ps bs qs => exact corresponds_block
  | case6 d e => exact corresponds_declaration
  | case7 n m => exact corresponds_leaf fun _ => rfl
  | case8 n m => exact corresponds_leaf fun _ => rfl
  | case9 s t => exact corresponds_leaf fun _ => rfl
  | case10 l m => exact fun h => ⟨fun ts => Length.text_eq_of_same h, .nil⟩
  | case11 c d => exact corresponds_leaf fun _ => rfl
  | case12 n as m bs => exact corresponds_function
  | case13 => exact fun _ => ⟨fun ts => rfl, .nil⟩
  | case14 => exact fun _ => ⟨fun ts => rfl, .nil⟩
  | case15 l m => exact fun h => ⟨fun ts => Length.text_eq_of_same h, .nil⟩
  | case16 f g => exact fun _ => ⟨fun ts => rfl, .nil⟩
  | case17 a b => intro h; cases h

theorem ne_foreign_iff_of_same {a b : Entity} (h : a.same b = true) :
    (∀ f, a ≠ foreign f) ↔ ∀ f, b ≠ foreign f := by
  revert h
  fun_cases Entity.same a b with
  | case16 f g => exact fun _ => iff_of_false (fun hf => hf f rfl) (fun hg => hg g rfl)
  | case17 a b => intro h; cases h
  | _ => simp

/-! ## All levels -/

/-- Of two entities that are the same, both have the same text or neither has any. -/
theorem text_eq_ok_iff_of_same {a b : Entity} (h : a.same b = true) (t : String) :
    a.text = .ok t ↔ b.text = .ok t := by
  induction a using Entity.induction generalizing b t with
  | of_parts a ih =>
    obtain ⟨hassembled, hparts⟩ := corresponds_of_same h
    have htexts :
        List.Forall₂ (fun p q => ∀ t, p.text = .ok t ↔ q.text = .ok t) a.parts b.parts := by
      have hboth := (List.forall₂_and_left a.parts b.parts).2 ⟨ih, hparts⟩
      exact hboth.imp fun p q hpq t => hpq.1 hpq.2 t
    rw [text_eq_ok_iff, text_eq_ok_iff, ne_foreign_iff_of_same h]
    simp only [forall₂_ok_congr htexts, hassembled]

/-- Entities that are the same have the same text, unless something foreign is nested in them.
Whatever has been written before, the same is appended to it for both. -/
theorem text_congr_of_same {a b : Entity} (h : a.same b = true)
    (hforeign : ∀ path f, a.part? path ≠ some (.foreign f)) :
    ∃ t, a.text = .ok t ∧ b.text = .ok t ∧
      ∀ buffer, a.write buffer = .ok (buffer ++ t) ∧ b.write buffer = .ok (buffer ++ t) := by
  obtain ⟨t, ha⟩ := exists_text_eq_ok_iff.2 hforeign
  have hb := (text_eq_ok_iff_of_same h t).1 ha
  refine ⟨t, ha, hb, fun buffer => ⟨?_, ?_⟩⟩
  · rw [a.write_eq, ha, Except.map]
  · rw [b.write_eq, hb, Except.map]

/-- A rule with zeros of one sign: as a percentage and as a plain number in a call, and as points
beside it. -/
def zeroRule (negative : Bool) : Entity :=
  .rule
    ⟨[[.compound [.descriptor (.ofName "g")], .combinator .child,
        .compound [.descriptor .anyElement]]],
      [.single "stroke-dasharray"
        [.function "dashes"
            [.number ⟨.zeroOf negative, .percent⟩, .number ⟨.zeroOf negative, .user⟩],
          .slash, .number ⟨.zeroOf negative, .point⟩]]⟩

/-- The sign of zeros does not show in a rule. -/
theorem text_congr_of_same_zeros :
    (zeroRule true).same (zeroRule false) = true ∧
      (∀ path f, (zeroRule true).part? path ≠ some (.foreign f)) ∧
      ∃ t, (zeroRule true).text = .ok t ∧ (zeroRule false).text = .ok t ∧
        ∀ buffer, (zeroRule true).write buffer = .ok (buffer ++ t) ∧
          (zeroRule false).write buffer = .ok (buffer ++ t) := by
  have hsame : (zeroRule true).same (zeroRule false) = true := by
    simp [zeroRule, rule, Declaration.single, same, sameAll, sameGroups, Declaration.same,
      Length.same, Binary64.zeroOf_same_zeroOf]
  have hforeign : ∀ path f, (zeroRule true).part? path ≠ some (.foreign f) :=
    exists_text_eq_ok_iff.1 ⟨_, rfl⟩
  exact ⟨hsame, hforeign, text_congr_of_same hsame hforeign⟩

end Entity

end VectorStyle
