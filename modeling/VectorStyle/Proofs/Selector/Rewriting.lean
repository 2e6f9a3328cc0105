import Mathlib.Data.List.Forall2
import Mathlib.Logic.Relation
import VectorStyle.Proofs.Selector.Derivation

/-!
# Rewriting compound selectors

A compound selector describes an element if each of its descriptors does. So neither the order of
the descriptors counts nor how often one is written, and one that holds for every element can be
left out. An element of a document answers for its id under the attribute name `id` too, so for such
elements it does not matter in which of the two ways an id is asked for.

The decision table asks of a compound only which elements it describes. Lists of selectors whose
compounds are rewritten are therefore followed row by row to one outcome, also where the outcome is
a failure.

Main statements: `Descriptor.Rewritten.describedBy_eq`, for one compound; and
`Context.outcome_rewritten`, for lists of selectors.
-/

set_option autoImplicit false

namespace VectorStyle

/-! ## One compound -/

/-- What a selector sees of the id is what it sees of the attribute of this name. -/
def Profile.NamesId (p : Profile) : Prop := p.attributeValue "id" = p.id

theorem Element.namesId_profile (e : Element) : e.profile.NamesId := e.attributeValue_id

namespace Descriptor

/-- One step of rewriting the descriptors of a compound: to descriptors with the same members, in
whatever order and number; to one less that holds for every element; or from an id to the
attribute. -/
inductive Rewrites : List Descriptor → List Descriptor → Prop where
  | sameMembers {ds es : List Descriptor} (h : ∀ d, d ∈ ds ↔ d ∈ es) : Rewrites ds es
  | dropAnyElement (before after : List Descriptor) :
      Rewrites (before ++ anyElement :: after) (before ++ after)
  | idAsAttribute (value : String) (before after : List Descriptor) :
      Rewrites (before ++ ofId value :: after) (before ++ withAttribute "id" value :: after)

/-- Any number of steps of rewriting, forwards and backwards. -/
def Rewritten : List Descriptor → List Descriptor → Prop := Relation.EqvGen Rewrites

variable {p : Profile} {ds es : List Descriptor}

theorem Rewrites.satisfies_iff (h : Rewrites ds es) (hp : p.NamesId) :
    p.Satisfies ds ↔ p.Satisfies es := by
  cases h with
  | sameMembers h => simp only [Profile.Satisfies, h]
  | dropAnyElement before after =>
    have hany : anyElement.describes p = true := rfl
    simp only [Profile.Satisfies, List.forall_mem_append, List.forall_mem_cons, hany, true_and]
  | idAsAttribute value before after =>
    have hid : (withAttribute "id" value).describes p = (ofId value).describes p := by
      rw [describes, describes, hp]
    simp only [Profile.Satisfies, List.forall_mem_append, List.forall_mem_cons, hid]

/-- Rewritten descriptors are satisfied by the same elements. -/
theorem Rewritten.satisfies_iff (h : Rewritten ds es) (hp : p.NamesId) :
    p.Satisfies ds ↔ p.Satisfies es := by
  induction h with
  | rel ds es h => exact h.satisfies_iff hp
  | refl ds => exact Iff.rfl
  | symm ds es _ ih => exact ih.symm
  | trans ds es fs _ _ ih ih' => exact ih.trans ih'

/-- Rewritten compounds have one test. -/
theorem Rewritten.describedBy_eq (h : Rewritten ds es) (hp : p.NamesId) :
    p.describedBy (ds.map .descriptor) = p.describedBy (es.map .descriptor) := by
  rw [Profile.describedBy_map_descriptor, Profile.describedBy_map_descriptor]
  congr 1
  exact decide_eq_decide.2 (h.satisfies_iff hp)

end Descriptor

/-! ## Lists of selectors -/

namespace Entity

/-- An entry of a selector list that is left as it is, or a compound whose descriptors are
rewritten. -/
inductive Rewritten : Entity → Entity → Prop where
  | same (e : Entity) : Rewritten e e
  | compound {ds es : List Descriptor} (h : Descriptor.Rewritten ds es) :
      Rewritten (compoundOf ds) (compoundOf es)

namespace Rewritten

variable {e e' : Entity} {parts : List Entity}

theorem symm (h : Rewritten e e') : Rewritten e' e := by
  cases h with
  | same => exact .same e
  | compound h => exact .compound (h.symm _ _)

/-- What is rewritten and no compound stays what it is. -/
theorem eq_of_ne_compound (h : Rewritten e e') (he : ∀ parts, e ≠ .compound parts) : e' = e := by
  cases h with
  | same => rfl
  | compound => exact absurd rfl (he _)

/-- A compound is rewritten to a compound with the same test. -/
theorem exists_compound (h : Rewritten (.compound parts) e') :
    ∃ parts', e' = .compound parts' ∧
      ∀ p : Profile, p.NamesId → p.describedBy parts = p.describedBy parts' := by
  generalize hcompound : Entity.compound parts = e at h
  cases h with
  | same => exact ⟨parts, hcompound.symm, fun _ _ => rfl⟩
  | @compound ds es h =>
    cases hcompound
    exact ⟨es.map .descriptor, rfl, fun p hp => h.describedBy_eq hp⟩

/-- Rewriting keeps what is a selector. -/
theorem isSelector_eq (h : Rewritten e e') : e'.isSelector = e.isSelector := by
  cases h <;> rfl

theorem ne_child (h : Rewritten e e') (he : e ≠ .combinator .child) : e' ≠ .combinator .child := by
  cases h with
  | same => exact he
  | compound => exact Entity.noConfusion

end Rewritten

end Entity

namespace Context

theorem combinator_ne_compound (c : Combinator) (parts : List Entity) :
    Entity.combinator c ≠ .compound parts :=
  Entity.noConfusion

/-- Rewriting the compounds of a selector list does not change its outcome. -/
theorem outcome_rewritten {context : Context Profile} {selectors selectors' : List Entity}
    (hnames : ∀ level ∈ context, ∀ p ∈ level, p.NamesId)
    (h : List.Forall₂ Entity.Rewritten selectors selectors') :
    outcome context selectors = outcome context selectors' := by
  induction context, selectors using outcome.induct generalizing selectors' with
  | case1 context =>
    cases h
    rfl
  | case2 s rest =>
    cases h
    rw [outcome, outcome]
  | case3 p near up rest ih =>
    obtain ⟨hlevel, hup⟩ := List.forall_mem_cons.1 hnames
    cases h with
    | cons hs hrest =>
      rw [hs.eq_of_ne_compound (combinator_ne_compound _), outcome, outcome]
      refine ih (List.forall_mem_cons.2 ⟨?_, hup⟩) hrest
      exact fun q hq => hlevel q (List.mem_cons_of_mem p hq)
  | case4 p near up parts rest ih =>
    obtain ⟨hlevel, hup⟩ := List.forall_mem_cons.1 hnames
    cases h with
    | cons hs hrest =>
      cases hrest with
      | cons hcompound hrest =>
        obtain ⟨parts', rfl, htest⟩ := hcompound.exists_compound
        rw [hs.eq_of_ne_compound (combinator_ne_compound _), outcome, outcome,
          htest p (hlevel p List.mem_cons_self), ih hup hrest]
  | case5 level up rest hrow =>
    -- a `>` that fails for want of an element or of a compound still lacks it
    cases h with
    | cons hs hrest =>
      rw [hs.eq_of_ne_compound (combinator_ne_compound _), outcome, outcome]
      · intro p near parts' rest' hp hrest'
        rw [hrest'] at hrest
        cases hrest with
        | cons hcompound _ =>
          obtain ⟨parts, rfl, -⟩ := hcompound.symm.exists_compound
          exact hrow p near parts _ hp rfl
      · exact hrow
  | case6 p near up parts rest ih ih' =>
    obtain ⟨hlevel, hup⟩ := List.forall_mem_cons.1 hnames
    have hwhole := h
    cases h with
    | cons hs hrest =>
      obtain ⟨parts', rfl, htest⟩ := hs.exists_compound
      rw [outcome, outcome, htest p (hlevel p List.mem_cons_self), ih hup hrest, ih' hup hwhole]
  | case7 level up selectors hnil hnearby hrow hchild hcompound ih =>
    obtain ⟨-, hup⟩ := List.forall_mem_cons.1 hnames
    obtain ⟨s, rest, rfl, hs, hskip⟩ := exists_skip hnil hnearby hchild hcompound
    have hwhole := h
    cases h with
    | cons hs' hrest =>
      rw [outcome_skip hs hskip, ih hup hwhole, outcome_skip (hs'.ne_child hs)]
      rwa [hs'.isSelector_eq]

end Context

end VectorStyle
