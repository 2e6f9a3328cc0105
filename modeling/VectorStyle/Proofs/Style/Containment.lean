import VectorStyle.Proofs.Selector.Levels
import VectorStyle.Proofs.Style.ChildChains
import VectorStyle.Proofs.Style.Declared

/-!
# Styles that contain others

Two places of a document are compared by their contexts: where one context is the other with more
levels, each match in the smaller one is a match in the larger one, and the declarations of the one
are among those of the other, in the same order.

The context of a descendant has further levels in front, which descendant selectors may use or leave
alone. The context of an element in a whole document has further levels behind those it has in a
fragment, and siblings of the fragment's root, which only `+` could reach.

Main statements: `declarations_sublist_of_descendant`, rules without combinators pass the
declarations of an element on to its descendants; and `declarations_sublist_of_fragment`, rules
without `+` declare in a fragment nothing that they do not declare in the document.
-/

set_option autoImplicit false

namespace VectorStyle

/-- Every alternative is a list of compounds over descriptors, without combinators. -/
def Rule.IsDescendant (r : Rule) : Prop :=
  ∀ a ∈ r.alternatives, ∃ compounds : List (List Descriptor), a = compounds.map .compoundOf

/-- No alternative has a `+`. -/
def Rule.IsSiblingFree (r : Rule) : Prop := ∀ a ∈ r.alternatives, .combinator .nearby ∉ a

theorem Rule.IsDescendant.isPlain {r : Rule} (h : r.IsDescendant) : r.IsPlain := by
  intro a ha parts hparts
  obtain ⟨compounds, rfl⟩ := h a ha
  obtain ⟨ds, -, heq⟩ := List.mem_map.1 hparts
  exact Entity.isDescriptor_of_mem_compoundOf heq.symm

namespace Style

/-! ## Alternatives in larger contexts -/

/-- A list of compounds that matches still does when levels are put in front. -/
theorem isHit_append_left {context : Context Profile} {compounds : List (List Descriptor)}
    (h : isHit context (compounds.map .compoundOf) = .ok true) (inner : Context Profile) :
    isHit (inner ++ context) (compounds.map .compoundOf) = .ok true := by
  rw [isHit, Context.isMatch_eq_outcome, ← List.map_reverse] at h ⊢
  exact Context.outcome_append_of_map_compoundOf h inner

/-- An alternative without `+` that matches still does when levels are added behind and siblings
change. -/
theorem isHit_of_withoutSiblings {small large outer : Context Profile} {alternative : List Entity}
    (hlarge : large.withoutSiblings = small.withoutSiblings ++ outer)
    (hsibling : .combinator .nearby ∉ alternative) (h : isHit small alternative = .ok true) :
    isHit large alternative = .ok true := by
  have hreverse : .combinator .nearby ∉ alternative.reverse := by
    rwa [List.mem_reverse]
  rw [isHit, Context.isMatch_eq_outcome, ← Context.outcome_withoutSiblings _ hreverse] at h ⊢
  rw [hlarge]
  exact ((Context.matches_of_outcome h).append outer).outcome_eq

/-! ## Descendants -/

/-- Rules without combinators give an element's descendants all declarations of the element, in the
same order. -/
theorem declarations_sublist_of_descendant {rules : List Rule} (h : ∀ r ∈ rules, r.IsDescendant)
    (dpi : Int) {t : Tree Element} {p q : List Nat} {e e' : Element} (hp : t.value? p = some e)
    (hq : t.value? (p ++ q) = some e') :
    ∃ ds ds', (∀ s, StyledAt rules dpi t p s ↔ s = ⟨e, ds, dpi⟩) ∧
      (∀ s, StyledAt rules dpi t (p ++ q) s ↔ s = ⟨e', ds', dpi⟩) ∧ ds.Sublist ds' := by
  have hplain : ∀ r ∈ rules, r.IsPlain := fun r hr => (h r hr).isPlain
  refine ⟨_, _, styledAt_iff hplain dpi hp, styledAt_iff hplain dpi hq, ?_⟩
  obtain ⟨u, hu, -⟩ := Option.map_eq_some_iff.1 hp
  obtain ⟨inner, hcontext⟩ := Tree.exists_ofPath_pathTo_eq_append hu q
  apply declared_sublist
  intro r hr a ha hmatch
  obtain ⟨compounds, rfl⟩ := h r hr a ha
  rw [hcontext, profiles, List.map_append]
  exact isHit_append_left hmatch _

/-- Lines are black. -/
def blackStroke : Declaration := .single "stroke" [.ident "black"]

/-- Areas are left open. -/
def noFill : Declaration := .single "fill" [.ident "none"]

/-- `svg circle`, with black lines, and `svg, *`, with open areas. -/
def descendantRules : List Rule :=
  [⟨[[[.ofName "svg"], [.ofName "circle"]].map .compoundOf], [blackStroke]⟩,
    ⟨[[[.ofName "svg"]].map .compoundOf, [[.anyElement]].map .compoundOf], [noFill]⟩]

/-- The group gets its declaration from both alternatives of a rule, and the circle in it gets the
same and black lines in front. -/
theorem declarations_sublist_of_descendant_circle :
    (∀ r ∈ descendantRules, r.IsDescendant) ∧
      drawingTree.value? [1] = some (named "g" (by decide)) ∧
      drawingTree.value? ([1] ++ [0]) = some (named "circle" (by decide)) ∧
      (∀ s, StyledAt descendantRules 96 drawingTree [1] s ↔
        s = ⟨named "g" (by decide), [noFill, noFill], 96⟩) ∧
      (∀ s, StyledAt descendantRules 96 drawingTree ([1] ++ [0]) s ↔
        s = ⟨named "circle" (by decide), [blackStroke, noFill, noFill], 96⟩) ∧
      [noFill, noFill].Sublist [blackStroke, noFill, noFill] := by
  have hrules : ∀ r ∈ descendantRules, r.IsDescendant := by
    simp [descendantRules, Rule.IsDescendant, -List.map_cons, -List.map_nil]
  have hplain : ∀ r ∈ descendantRules, r.IsPlain := fun r hr => (hrules r hr).isPlain
  have hgroup : drawingTree.value? [1] = some (named "g" (by decide)) := rfl
  have hcircle : drawingTree.value? ([1] ++ [0]) = some (named "circle" (by decide)) := rfl
  obtain ⟨ds, ds', hds, hds', hsublist⟩ :=
    declarations_sublist_of_descendant hrules 96 hgroup hcircle
  obtain rfl : ds = [noFill, noFill] := by
    rw [eq_declared_of_styledAt_iff hplain hgroup hds]
    cbv
  obtain rfl : ds' = [blackStroke, noFill, noFill] := by
    rw [eq_declared_of_styledAt_iff hplain hcircle hds']
    cbv
  exact ⟨hrules, hgroup, hcircle, hds, hds', hsublist⟩

/-! ## Fragments -/

theorem withoutSiblings_profiles (context : Context Element) :
    (profiles context).withoutSiblings = profiles context.withoutSiblings := by
  rw [profiles, Context.withoutSiblings, profiles, Context.withoutSiblings, List.map_map,
    List.map_map]
  apply List.map_congr_left
  intro level _
  exact List.map_take.symm

/-- Without siblings, the levels of a way are those of its elements. -/
theorem withoutSiblings_ofPath {α : Type} (path : List (PathStep α)) :
    (Context.ofPath path).withoutSiblings = (path.map fun s => [s.element]).reverse := by
  rw [Context.withoutSiblings, Context.ofPath, List.map_reverse, List.map_map]
  rfl

/-- Without siblings, the context of a node in a document is the one it has in a fragment and then
the levels beyond the fragment. -/
theorem exists_withoutSiblings_eq_append {t u : Tree Element} {p : List Nat}
    (hu : t.subtree? p = some u) (q : List Nat) :
    ∃ outer, (profiles (Context.ofPath (t.pathTo [] (p ++ q)))).withoutSiblings =
      (profiles (Context.ofPath (u.pathTo [] q))).withoutSiblings ++ outer := by
  obtain ⟨before, preceding, hpath⟩ := Tree.exists_pathTo_append [] hu
  -- the fragment's root has other siblings in the document, and nothing else is different
  have hroot : (u.pathTo preceding q).map (fun s => [s.element]) =
      (u.pathTo [] q).map fun s => [s.element] := by
    cases q <;> rfl
  refine ⟨profiles (Context.ofPath before).withoutSiblings, ?_⟩
  rw [withoutSiblings_profiles, withoutSiblings_profiles, hpath, withoutSiblings_ofPath,
    withoutSiblings_ofPath, withoutSiblings_ofPath, List.map_append, List.reverse_append, hroot,
    profiles, List.map_append]
  rfl

/-- Resolving a fragment with rules without `+` gives an element no declaration that resolving the
document would not give it, and none in another order. -/
theorem declarations_sublist_of_fragment {rules : List Rule} (hplain : ∀ r ∈ rules, r.IsPlain)
    (hsibling : ∀ r ∈ rules, r.IsSiblingFree) (dpi : Int) {t u : Tree Element} {p q : List Nat}
    {e : Element} (hu : t.subtree? p = some u) (hq : u.value? q = some e) :
    ∃ ds ds', (∀ s, StyledAt rules dpi u q s ↔ s = ⟨e, ds, dpi⟩) ∧
      (∀ s, StyledAt rules dpi t (p ++ q) s ↔ s = ⟨e, ds', dpi⟩) ∧ ds.Sublist ds' := by
  have hpq : t.value? (p ++ q) = some e := by
    rw [Tree.value?_append hu, hq]
  refine ⟨_, _, styledAt_iff hplain dpi hq, styledAt_iff hplain dpi hpq, ?_⟩
  obtain ⟨outer, hcontext⟩ := exists_withoutSiblings_eq_append hu q
  apply declared_sublist
  intro r hr a ha hmatch
  exact isHit_of_withoutSiblings hcontext (hsibling r hr a ha) hmatch

/-- `g > circle`, with black lines, and `svg g > circle`, with an open area. -/
def childRules : List Rule :=
  [⟨[childChain [.ofName "circle"] [[.ofName "g"]] []], [blackStroke]⟩,
    ⟨[childChain [.ofName "circle"] [[.ofName "g"]] [[.ofName "svg"]]], [noFill]⟩]

theorem isPlain_childRules : ∀ r ∈ childRules, r.IsPlain := by
  simp [childRules, childChain, Rule.IsPlain, Entity.compoundOf, Entity.isDescriptor]

theorem isSiblingFree_childRules : ∀ r ∈ childRules, r.IsSiblingFree := by
  simp [childRules, childChain, Rule.IsSiblingFree, Entity.compoundOf]

/-- In the group alone the circle gets black lines, and in the drawing an open area as well. -/
theorem declarations_sublist_of_fragment_circle :
    (∀ r ∈ childRules, r.IsPlain) ∧ (∀ r ∈ childRules, r.IsSiblingFree) ∧
      drawingTree.subtree? [1] = some groupTree ∧
      groupTree.value? [0] = some (named "circle" (by decide)) ∧
      (∀ s, StyledAt childRules 96 groupTree [0] s ↔
        s = ⟨named "circle" (by decide), [blackStroke], 96⟩) ∧
      (∀ s, StyledAt childRules 96 drawingTree ([1] ++ [0]) s ↔
        s = ⟨named "circle" (by decide), [blackStroke, noFill], 96⟩) ∧
      [blackStroke].Sublist [blackStroke, noFill] := by
  have hgroup : drawingTree.subtree? [1] = some groupTree := rfl
  have hcircle : groupTree.value? [0] = some (named "circle" (by decide)) := rfl
  have hcircle' : drawingTree.value? ([1] ++ [0]) = some (named "circle" (by decide)) := rfl
  obtain ⟨ds, ds', hds, hds', hsublist⟩ :=
    declarations_sublist_of_fragment isPlain_childRules isSiblingFree_childRules 96 hgroup hcircle
  obtain rfl : ds = [blackStroke] := by
    rw [eq_declared_of_styledAt_iff isPlain_childRules hcircle hds]
    cbv
  obtain rfl : ds' = [blackStroke, noFill] := by
    rw [eq_declared_of_styledAt_iff isPlain_childRules hcircle' hds']
    cbv
  exact ⟨isPlain_childRules, isSiblingFree_childRules, hgroup, hcircle, hds, hds', hsublist⟩

end Style

end VectorStyle
