import VectorStyle.Proofs.Results
import VectorStyle.Proofs.Selector.Rewriting
import VectorStyle.Proofs.Style.Locality

/-!
# Rewriting selectors does not change styles

Rules can be written in several ways that mean the same to a document: the descriptors of a compound
in another order or more than once, with or without one that holds for every element, and with the
id asked for by name or as an attribute. All elements of a document answer for their ids under the
attribute name, so every alternative has the same outcome in each way of writing, and so have the
styles.

Main statement: `resolve_rewritten`.
-/

set_option autoImplicit false

namespace VectorStyle

/-- A rule whose alternatives are rewritten entry by entry, with the same declarations. -/
structure Rule.Rewritten (r r' : Rule) : Prop where
  alternatives : List.Forall₂ (List.Forall₂ Entity.Rewritten) r.alternatives r'.alternatives
  declarations : r.declarations = r'.declarations

/-! ## Lists that are related member by member -/

theorem flatMap_eq_of_forall₂ {α β γ : Type} {R : α → β → Prop} {f : α → List γ} {g : β → List γ}
    {as : List α} {bs : List β} (h : List.Forall₂ R as bs) (hfg : ∀ a b, R a b → f a = g b) :
    as.flatMap f = bs.flatMap g := by
  induction h with
  | nil => rfl
  | cons hab _ ih => rw [List.flatMap_cons, List.flatMap_cons, hfg _ _ hab, ih]

/-! ## Rules -/

/-- Rewriting puts nothing but descriptors into the compounds of a plain rule. -/
theorem Rule.Rewritten.isPlain {r r' : Rule} (h : r.Rewritten r') (hr : r.IsPlain) :
    r'.IsPlain := by
  intro a' ha' parts' hparts'
  obtain ⟨a, ha, hentries⟩ := exists_mem_of_forall₂ h.alternatives ha'
  obtain ⟨e, he, hentry⟩ := exists_mem_of_forall₂ hentries hparts'
  generalize hcompound : Entity.compound parts' = e' at hentry
  cases hentry with
  | same => exact hr a ha parts' (hcompound ▸ he)
  | compound => exact Entity.isDescriptor_of_mem_compoundOf hcompound

namespace Style

theorem namesId_of_mem_profiles (context : Context Element) :
    ∀ level ∈ profiles context, ∀ p ∈ level, p.NamesId := by
  intro level hlevel p hp
  obtain ⟨elements, -, rfl⟩ := List.mem_map.1 hlevel
  obtain ⟨e, -, rfl⟩ := List.mem_map.1 hp
  exact e.namesId_profile

variable (context : Context Element)

/-- A rewritten alternative has the same outcome for the elements of a document. -/
theorem isHit_rewritten {a a' : List Entity} (h : List.Forall₂ Entity.Rewritten a a') :
    isHit (profiles context) a = isHit (profiles context) a' := by
  rw [isHit, isHit, Context.isMatch_eq_outcome, Context.isMatch_eq_outcome]
  exact Context.outcome_rewritten (namesId_of_mem_profiles context) (List.rel_reverse h)

/-- A rewritten rule contributes the same declarations. -/
theorem contributed_rewritten {r r' : Rule} (h : r.Rewritten r') :
    contributed (profiles context) r = contributed (profiles context) r' := by
  apply flatMap_eq_of_forall₂ h.alternatives
  intro a a' ha
  rw [applies, applies, isHit_rewritten context ha, h.declarations]

theorem declared_rewritten {rules rules' : List Rule}
    (h : List.Forall₂ Rule.Rewritten rules rules') :
    declared (profiles context) rules = declared (profiles context) rules' :=
  flatMap_eq_of_forall₂ h fun _ _ hr => contributed_rewritten context hr

/-- Rules and rewritten ones give the elements of every document the same styles. -/
theorem resolve_rewritten {rules rules' : List Rule} (hplain : ∀ r ∈ rules, r.IsPlain)
    (h : List.Forall₂ Rule.Rewritten rules rules') (dpi : Int) (t : Tree Element) :
    ∃ styles, resolve rules dpi t = .ok styles ∧ resolve rules' dpi t = .ok styles := by
  have hplain' : ∀ r' ∈ rules', r'.IsPlain := by
    intro r' hr'
    obtain ⟨r, hr, hrewritten⟩ := exists_mem_of_forall₂ h hr'
    exact hrewritten.isPlain (hplain r hr)
  have hstyles : styleOf rules' dpi = styleOf rules dpi := by
    funext v
    rw [styleOf, styleOf, declared_rewritten v.context h]
  refine ⟨_, resolve_eq_ok hplain dpi t, ?_⟩
  rw [resolve_eq_ok hplain' dpi t, hstyles]

/-- A drawing with a circle that has an id. -/
def labelledTree : Tree Element :=
  .node Shape.svg.element [.node { Shape.circle.element with id := some "dot" } []]

/-- `svg * circle#dot` and `svg > circle#dot`, with the given forms of the two last compounds. -/
def dotRules (any dot : List Descriptor) : List Rule :=
  [⟨[[.compoundOf [.ofName "svg"], .compoundOf any, .compoundOf dot],
      [.compoundOf [.ofName "svg"], .combinator .child, .compoundOf dot]],
    [.single "fill" [.ident "none"]]⟩]

/-- The circle has the same style if the id is asked for as an attribute, in front of the name and
twice, and `*` is left out. -/
theorem resolve_rewritten_labelledTree :
    (∀ r ∈ dotRules [.anyElement] [.ofName "circle", .ofId "dot"], r.IsPlain) ∧
      List.Forall₂ Rule.Rewritten (dotRules [.anyElement] [.ofName "circle", .ofId "dot"])
        (dotRules [] [.withAttribute "id" "dot", .ofName "circle", .withAttribute "id" "dot"]) ∧
      ∃ styles,
        resolve (dotRules [.anyElement] [.ofName "circle", .ofId "dot"]) 96 labelledTree =
          .ok styles ∧
        resolve (dotRules [] [.withAttribute "id" "dot", .ofName "circle",
          .withAttribute "id" "dot"]) 96 labelledTree = .ok styles := by
  have hplain : ∀ r ∈ dotRules [.anyElement] [.ofName "circle", .ofId "dot"], r.IsPlain := by
    simp [dotRules, Rule.IsPlain, Entity.compoundOf, Entity.isDescriptor]
  have hany : Entity.Rewritten (.compoundOf [.anyElement]) (.compoundOf []) :=
    .compound (.rel _ _ (.dropAnyElement [] []))
  have hdot : Entity.Rewritten (.compoundOf [.ofName "circle", .ofId "dot"])
      (.compoundOf [.withAttribute "id" "dot", .ofName "circle", .withAttribute "id" "dot"]) := by
    refine .compound (.trans _ _ _ (.rel _ _ (.idAsAttribute "dot" [.ofName "circle"] [])) ?_)
    refine .rel _ _ (.sameMembers fun d => ?_)
    simp only [List.cons_append, List.nil_append, List.mem_cons, List.not_mem_nil]
    tauto
  have hrules : List.Forall₂ Rule.Rewritten
      (dotRules [.anyElement] [.ofName "circle", .ofId "dot"])
      (dotRules [] [.withAttribute "id" "dot", .ofName "circle", .withAttribute "id" "dot"]) := by
    refine .cons ⟨.cons ?_ (.cons ?_ .nil), rfl⟩ .nil
    · exact .cons (.same _) (.cons hany (.cons hdot .nil))
    · exact .cons (.same _) (.cons (.same _) (.cons hdot .nil))
  exact ⟨hplain, hrules, resolve_rewritten hplain hrules 96 labelledTree⟩

end Style

end VectorStyle
