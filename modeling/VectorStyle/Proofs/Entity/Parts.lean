import VectorStyle.Entity.Printer
import VectorStyle.Proofs.Results

/-!
# The parts of an entity

An entity is written from the texts of its parts, in reading order: the members of a list, the
descriptors of a compound selector, the arguments of a function, the alternatives of a rule and then
what stands in its block, the terms of a declaration. The parts are smaller than the entity, so what
is to be proved of all entities may be assumed of the parts.

Main statements: `Entity.induction`, and `Entity.text_eq`, the text of an entity from those of its
parts.
-/

set_option autoImplicit false

namespace VectorStyle

namespace Entity

/-! ## Parts -/

/-- The parts of an entity in reading order. Each alternative of a rule is a sequence. -/
def parts : Entity → List Entity
  | compound parts => parts
  | sequence items => items
  | block alternatives parts => alternatives.map sequence ++ parts
  | declaration d => d.terms
  | function _ args => args
  | _ => []

theorem sizeOf_lt_of_mem_parts {e p : Entity} (hp : p ∈ e.parts) : sizeOf p < sizeOf e := by
  cases e with
  | compound ps =>
    have hlt : sizeOf p < sizeOf ps := List.sizeOf_lt_of_mem hp
    rw [compound.sizeOf_spec]
    omega
  | sequence items =>
    have hlt : sizeOf p < sizeOf items := List.sizeOf_lt_of_mem hp
    rw [sequence.sizeOf_spec]
    omega
  | function name args =>
    have hlt : sizeOf p < sizeOf args := List.sizeOf_lt_of_mem hp
    rw [function.sizeOf_spec]
    omega
  | block alternatives ps =>
    rw [block.sizeOf_spec]
    rcases List.mem_append.1 hp with hp | hp
    · obtain ⟨a, ha, rfl⟩ := List.mem_map.1 hp
      have hlt : sizeOf a < sizeOf alternatives := List.sizeOf_lt_of_mem ha
      rw [sequence.sizeOf_spec]
      omega
    · have hlt : sizeOf p < sizeOf ps := List.sizeOf_lt_of_mem hp
      omega
  | declaration d =>
    obtain ⟨property, groups⟩ := d
    obtain ⟨g, hg, hmem⟩ := List.mem_flatten.1 hp
    have hgroup : sizeOf g < sizeOf groups := List.sizeOf_lt_of_mem hg
    have hterm : sizeOf p < sizeOf g := List.sizeOf_lt_of_mem hmem
    rw [declaration.sizeOf_spec, Declaration.mk.sizeOf_spec]
    omega
  | _ => exact absurd hp List.not_mem_nil

/-- What holds of each entity whose parts it holds of holds of all entities. -/
@[elab_as_elim]
theorem induction {P : Entity → Prop} (of_parts : ∀ e : Entity, (∀ p ∈ e.parts, P p) → P e)
    (e : Entity) : P e :=
  of_parts e fun p _ => induction of_parts p
termination_by sizeOf e
decreasing_by exact sizeOf_lt_of_mem_parts ‹_›

/-! ## Texts from parts -/

/-- The text of an entity whose parts have given texts. -/
def assembled : Entity → List String → String
  | descriptor d, _ => d.text
  | combinator c, _ => c.text
  | compound _, ts => String.join ts
  | sequence _, ts => " ".intercalate ts
  | block alternatives _, ts =>
    ruleBlock (ts.take alternatives.length) (ts.drop alternatives.length)
  | declaration d, ts => declarationText d.property ts
  | ident n, _ => n
  | reference n, _ => "#" ++ n
  | string t, _ => "\"" ++ t ++ "\""
  | number l, _ => l.text
  | color c, _ => c.text
  | function n _, ts => n ++ "(" ++ ", ".intercalate ts ++ ")"
  | comma, _ => ","
  | slash, _ => "/"
  | length l, _ => l.text
  | foreign _, _ => ""

end Entity

theorem length_of_texts_eq_ok {es : List Entity} {ts : List String} (h : texts es = .ok ts) :
    ts.length = es.length := by
  rw [texts_eq_mapM, mapM_eq_ok_iff] at h
  exact h.length_eq.symm

theorem texts_map {α : Type} (f : α → Entity) (as : List α) :
    texts (as.map f) = as.mapM fun a => (f a).text := by
  rw [texts_eq_mapM, List.mapM_map]
  rfl

theorem texts_map_sequence (gs : List (List Entity)) :
    texts (gs.map .sequence) = (groupTexts gs).map (List.map (" ".intercalate ·)) := by
  induction gs with
  | nil => rfl
  | cons g gs ih =>
    rw [List.map_cons, texts, ih, Entity.text, groupTexts]
    cases texts g with
    | error f => rfl
    | ok ts => cases groupTexts gs <;> rfl

namespace Entity

theorem assembled_block {alternatives : List (List Entity)} {parts : List Entity}
    {ss ts : List String} (hlength : ss.length = alternatives.length) :
    (block alternatives parts).assembled (ss ++ ts) = ruleBlock ss ts := by
  rw [assembled, ← hlength, List.take_left, List.drop_left]

/-- An entity is written from the texts of its parts. -/
theorem text_eq {e : Entity} (h : ∀ f, e ≠ foreign f) :
    e.text = (texts e.parts).map e.assembled := by
  cases e with
  | compound parts =>
    rw [text, Entity.parts]
    cases texts parts <;> rfl
  | sequence items =>
    rw [text, Entity.parts]
    cases texts items <;> rfl
  | function n args =>
    rw [text, Entity.parts]
    cases texts args <;> rfl
  | declaration d =>
    rw [text, Declaration.text_eq]
    rfl
  | block alternatives parts =>
    have hselectors := texts_map_sequence alternatives
    rw [text, Entity.parts, texts_append]
    cases halternatives : groupTexts alternatives with
    | error f =>
      rw [hselectors, halternatives]
      rfl
    | ok ss =>
      rw [halternatives] at hselectors
      have hlength := (length_of_texts_eq_ok hselectors).trans (List.length_map sequence)
      rw [hselectors]
      cases texts parts with
      | error f => rfl
      | ok ts => exact congrArg Except.ok (assembled_block hlength).symm
  | foreign f => exact absurd rfl (h f)
  | _ => rw [text]; rfl

end Entity

end VectorStyle
