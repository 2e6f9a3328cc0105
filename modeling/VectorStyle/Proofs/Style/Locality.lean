import VectorStyle.Proofs.Style.Containment
import VectorStyle.Proofs.Tree.View

/-!
# What a style depends on

The declarations of a node are found from its context, and the context is built from the way to the
node. So two documents that agree in view of a position give the node there the same declarations,
and out of view they may differ in any way.

Rules without `+` see no siblings. For them only the chain of ancestors counts, and the two nodes
need not even stand at the same position.

Main statements: `declarations_eq_of_alike_inView`, documents that agree in view of a position; and
`declarations_eq_of_alike_ancestors`, chains of ancestors that agree, for rules without `+`.
-/

set_option autoImplicit false

namespace VectorStyle

/-! ## Elements that selectors cannot tell apart -/

/-- The two elements have the same name, id and classes, and the same value for each attribute. -/
structure Element.Alike (e e' : Element) : Prop where
  name : e.name = e'.name
  id : e.id = e'.id
  classes : e.classes = e'.classes
  attributes : ∀ name, e.attributes.lookup name = e'.attributes.lookup name

theorem Element.Alike.refl (e : Element) : e.Alike e := ⟨rfl, rfl, rfl, fun _ => rfl⟩

/-- A selector sees the same of both. -/
theorem Element.Alike.profile_eq {e e' : Element} (h : e.Alike e') : e.profile = e'.profile := by
  have hattribute : e.attributeValue = e'.attributeValue := by
    funext name
    rw [attributeValue, attributeValue, h.id, h.classes, h.attributes]
  rw [profile, profile, h.name, h.id, h.classes, hattribute]

namespace Style

/-! ## Documents that agree in view -/

theorem profiles_ofPath (path : List (PathStep Element)) :
    profiles (Context.ofPath path) = Context.ofPath (path.map (PathStep.map Element.profile)) := by
  simp [profiles, Context.ofPath, PathStep.level, PathStep.map, Function.comp_def]

/-- Whatever two documents hold out of view of a position, if they agree in view of it then rules
give the node there the same declarations in both. Out of view are the descendants of the node, the
siblings after a node on the way with their descendants, and the descendants of the siblings before
one. -/
theorem declarations_eq_of_alike_inView {rules : List Rule} (h : ∀ r ∈ rules, r.IsPlain) (dpi : Int)
    {t t' : Tree Element} {p : List Nat} {e e' : Element} (hp : t.value? p = some e)
    (hp' : t'.value? p = some e')
    (halike : ∀ q a a', Tree.InView p q → t.value? q = some a → t'.value? q = some a' →
      a.Alike a') :
    (∃ ds, (∀ s, StyledAt rules dpi t p s ↔ s = ⟨e, ds, dpi⟩) ∧
      ∀ s, StyledAt rules dpi t' p s ↔ s = ⟨e', ds, dpi⟩) ∧
      ∀ q, Tree.OutOfView p q ↔ ¬ Tree.InView p q := by
  have hsome : (t.subtree? p).isSome = true := Tree.isSome_subtree?_of_value? hp
  have hsome' : (t'.subtree? p).isSome = true := Tree.isSome_subtree?_of_value? hp'
  have hcontext : profiles (Context.ofPath (t.pathTo [] p)) =
      profiles (Context.ofPath (t'.pathTo [] p)) := by
    rw [profiles_ofPath, profiles_ofPath]
    congr 1
    apply Tree.map_pathTo_of_inView hsome hsome' rfl
    intro q a a' hq ha ha'
    exact (halike q a a' hq ha ha').profile_eq
  refine ⟨⟨_, styledAt_iff h dpi hp, ?_⟩, fun q => Tree.outOfView_iff⟩
  rw [hcontext]
  exact styledAt_iff h dpi hp'

/-- What stands in the drawings below. -/
inductive Shape where
  | svg
  | group
  | rect
  | circle
  | title
  | text

namespace Shape

/-- The name of a shape's element. -/
def name : Shape → String
  | svg => "svg"
  | group => "g"
  | rect => "rect"
  | circle => "circle"
  | title => "title"
  | text => "text"

theorem name_ne (s : Shape) : s.name ≠ "" := by cases s <;> decide

/-- A shape as an element with its name and nothing else. -/
def element (s : Shape) : Element := named s.name s.name_ne

end Shape

/-- The drawing with more in it: a title in the rectangle and one in the circle, a text after the
circle and another rectangle after the group. -/
def crowdedTree : Tree Element :=
  .node Shape.svg.element
    [.node Shape.rect.element [.node Shape.title.element []],
      .node Shape.group.element
        [.node Shape.circle.element [.node Shape.title.element []], .node Shape.text.element []],
      .node Shape.rect.element []]

/-- `rect + circle`, with black lines, and `rect`, with an open area. -/
def siblingRules : List Rule :=
  [⟨[[.compoundOf [.ofName "rect"], .combinator .nearby, .compoundOf [.ofName "circle"]]],
      [blackStroke]⟩,
    ⟨[[.compoundOf [.ofName "rect"]]], [noFill]⟩]

/-- The circle gets black lines in the drawing and in the crowded one. -/
theorem declarations_eq_of_alike_inView_circle :
    (∀ r ∈ siblingRules, r.IsPlain) ∧
      drawingTree.value? [1, 0] = some (named "circle" (by decide)) ∧
      crowdedTree.value? [1, 0] = some (named "circle" (by decide)) ∧
      (∀ q a a', Tree.InView [1, 0] q → drawingTree.value? q = some a →
        crowdedTree.value? q = some a' → a.Alike a') ∧
      (∀ s, StyledAt siblingRules 96 drawingTree [1, 0] s ↔
        s = ⟨named "circle" (by decide), [blackStroke], 96⟩) ∧
      ∀ s, StyledAt siblingRules 96 crowdedTree [1, 0] s ↔
        s = ⟨named "circle" (by decide), [blackStroke], 96⟩ := by
  have hrules : ∀ r ∈ siblingRules, r.IsPlain := by
    simp [siblingRules, Rule.IsPlain, Entity.compoundOf, Entity.isDescriptor]
  have hview : ∀ q, Tree.InView [1, 0] q → q = [] ∨ q = [0] ∨ q = [1] ∨ q = [1, 0] := by
    intro q hq
    rcases q with - | ⟨i, - | ⟨j, q⟩⟩
    · exact Or.inl rfl
    · rw [Tree.inView_cons_iff] at hq
      have hi : i = 0 ∨ i = 1 := by omega
      simpa using hi
    · rw [Tree.inView_cons_iff, Tree.inView_cons_iff, Tree.inView_nil_iff] at hq
      simpa using hq
  have halike : ∀ q a a', Tree.InView [1, 0] q → drawingTree.value? q = some a →
      crowdedTree.value? q = some a' → a.Alike a' := by
    intro q a a' hq ha ha'
    have hsame : drawingTree.value? q = crowdedTree.value? q := by
      rcases hview q hq with rfl | rfl | rfl | rfl <;> rfl
    rw [hsame, ha'] at ha
    cases ha
    exact .refl a
  have hcircle : drawingTree.value? [1, 0] = some (named "circle" (by decide)) := rfl
  have hcircle' : crowdedTree.value? [1, 0] = some (named "circle" (by decide)) := rfl
  obtain ⟨⟨ds, hds, hds'⟩, -⟩ :=
    declarations_eq_of_alike_inView hrules 96 hcircle hcircle' halike
  obtain rfl : ds = [blackStroke] := by
    rw [eq_declared_of_styledAt_iff hrules hcircle hds]
    cbv
  exact ⟨hrules, hcircle, hcircle', halike, hds, hds'⟩

/-! ## Chains of ancestors that agree -/

theorem declared_congr {context context' : Context Profile} {rules : List Rule}
    (h : ∀ r ∈ rules, ∀ a ∈ r.alternatives, isHit context a = isHit context' a) :
    declared context rules = declared context' rules := by
  apply List.flatMap_congr
  intro r hr
  apply List.flatMap_congr
  intro a ha
  rw [applies, applies, h r hr a ha]

/-- An alternative without `+` has the same outcome in contexts that differ in siblings only. -/
theorem isHit_congr_of_withoutSiblings {context context' : Context Profile}
    (h : context.withoutSiblings = context'.withoutSiblings) {alternative : List Entity}
    (hsibling : .combinator .nearby ∉ alternative) :
    isHit context alternative = isHit context' alternative := by
  have hreverse : .combinator .nearby ∉ alternative.reverse := by
    rwa [List.mem_reverse]
  rw [isHit, isHit, Context.isMatch_eq_outcome, Context.isMatch_eq_outcome,
    ← Context.outcome_withoutSiblings _ hreverse, h, Context.outcome_withoutSiblings _ hreverse]

/-- Without siblings, a level of a node's context is what a selector sees of one ancestor. -/
theorem getElem?_withoutSiblings_profiles {t : Tree Element} {p : List Nat}
    (h : (t.subtree? p).isSome = true) (j : Nat) :
    (profiles (Context.ofPath (t.pathTo [] p))).withoutSiblings[j]? =
      (t.ancestor? p j).map fun a => [a.profile] := by
  rw [← Tree.element?_ofPath_pathTo h, withoutSiblings_profiles, withoutSiblings_ofPath,
    Context.element?_ofPath, profiles, List.getElem?_map, ← List.map_reverse, List.getElem?_map]
  cases (t.pathTo [] p).reverse[j]? <;> rfl

/-- For rules without `+`, nodes whose chains of ancestors agree get the same declarations, wherever
the two stand among their siblings and whatever the siblings of their ancestors are. -/
theorem declarations_eq_of_alike_ancestors {rules : List Rule} (h : ∀ r ∈ rules, r.IsPlain)
    (hsibling : ∀ r ∈ rules, r.IsSiblingFree) (dpi : Int) {t t' : Tree Element} {p p' : List Nat}
    {e e' : Element} (hp : t.value? p = some e) (hp' : t'.value? p' = some e')
    (hlength : p.length = p'.length)
    (halike : ∀ j a a', t.ancestor? p j = some a → t'.ancestor? p' j = some a' → a.Alike a') :
    ∃ ds, (∀ s, StyledAt rules dpi t p s ↔ s = ⟨e, ds, dpi⟩) ∧
      ∀ s, StyledAt rules dpi t' p' s ↔ s = ⟨e', ds, dpi⟩ := by
  have hsome : (t.subtree? p).isSome = true := Tree.isSome_subtree?_of_value? hp
  have hsome' : (t'.subtree? p').isSome = true := Tree.isSome_subtree?_of_value? hp'
  have hlevels : (profiles (Context.ofPath (t.pathTo [] p))).withoutSiblings =
      (profiles (Context.ofPath (t'.pathTo [] p'))).withoutSiblings := by
    apply List.ext_getElem?
    intro j
    rw [getElem?_withoutSiblings_profiles hsome, getElem?_withoutSiblings_profiles hsome']
    -- chains of one length end together
    have hends : (t.ancestor? p j).isSome = (t'.ancestor? p' j).isSome := by
      rw [Tree.isSome_ancestor? hsome, Tree.isSome_ancestor? hsome', hlength]
    cases ha : t.ancestor? p j with
    | none =>
      rw [ha, eq_comm, Option.isSome_none, Option.isSome_eq_false_iff, Option.isNone_iff_eq_none]
        at hends
      rw [hends]
    | some a =>
      rw [ha, eq_comm, Option.isSome_some, Option.isSome_iff_exists] at hends
      obtain ⟨a', ha'⟩ := hends
      rw [ha', Option.map_some, Option.map_some, (halike j a a' ha ha').profile_eq]
  have hdeclared : declared (profiles (Context.ofPath (t.pathTo [] p))) rules =
      declared (profiles (Context.ofPath (t'.pathTo [] p'))) rules :=
    declared_congr fun r hr a ha =>
      isHit_congr_of_withoutSiblings hlevels (hsibling r hr a ha)
  refine ⟨_, styledAt_iff h dpi hp, ?_⟩
  rw [hdeclared]
  exact styledAt_iff h dpi hp'

/-- A drawing with nothing before the group, and a text before the circle. -/
def rearrangedTree : Tree Element :=
  .node Shape.svg.element
    [.node Shape.group.element [.node Shape.text.element [], .node Shape.circle.element []]]

/-- The circle gets black lines and an open area at each of its two places. -/
theorem declarations_eq_of_alike_ancestors_circle :
    (∀ r ∈ childRules, r.IsPlain) ∧ (∀ r ∈ childRules, r.IsSiblingFree) ∧
      drawingTree.value? [1, 0] = some (named "circle" (by decide)) ∧
      rearrangedTree.value? [0, 1] = some (named "circle" (by decide)) ∧
      [1, 0].length = [0, 1].length ∧
      (∀ j a a', drawingTree.ancestor? [1, 0] j = some a →
        rearrangedTree.ancestor? [0, 1] j = some a' → a.Alike a') ∧
      (∀ s, StyledAt childRules 96 drawingTree [1, 0] s ↔
        s = ⟨named "circle" (by decide), [blackStroke, noFill], 96⟩) ∧
      ∀ s, StyledAt childRules 96 rearrangedTree [0, 1] s ↔
        s = ⟨named "circle" (by decide), [blackStroke, noFill], 96⟩ := by
  have hsame : ∀ j, drawingTree.ancestor? [1, 0] j = rearrangedTree.ancestor? [0, 1] j := by
    intro j
    rcases j with - | - | - | j <;> rfl
  have halike : ∀ j a a', drawingTree.ancestor? [1, 0] j = some a →
      rearrangedTree.ancestor? [0, 1] j = some a' → a.Alike a' := by
    intro j a a' ha ha'
    rw [hsame j, ha'] at ha
    cases ha
    exact .refl a
  have hcircle : drawingTree.value? [1, 0] = some (named "circle" (by decide)) := rfl
  have hcircle' : rearrangedTree.value? [0, 1] = some (named "circle" (by decide)) := rfl
  obtain ⟨ds, hds, hds'⟩ :=
    declarations_eq_of_alike_ancestors isPlain_childRules isSiblingFree_childRules 96 hcircle
      hcircle' rfl halike
  obtain rfl : ds = [blackStroke, noFill] := by
    rw [eq_declared_of_styledAt_iff isPlain_childRules hcircle hds]
    cbv
  exact ⟨isPlain_childRules, isSiblingFree_childRules, hcircle, hcircle', rfl, halike, hds, hds'⟩

end Style

end VectorStyle
