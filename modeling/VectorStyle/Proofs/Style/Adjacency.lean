import VectorStyle.Proofs.Style.ChildChains
import VectorStyle.Proofs.Tree.DocumentOrder

/-!
# What `+` asks for

An alternative such as `c b + a` names a target, then something that is joined to it by `+`, and
then ancestors further out. The run takes the target at the first level, and the hop is made on the
second: it leaves the target's parent for the sibling right before the parent. If that sibling is
not there or is not as the alternative says, the run goes on outward, and what was to be a sibling
is looked for among the ancestors of the parent.

So `+` does not ask for a sibling of the target. Behind the hop the run is one on compounds alone,
in a context whose first level starts with the parent's sibling; that the run commits itself to the
sibling loses nothing, as with descendant selectors.

Main statements: `outcome_hop_eq_ok_true_iff`, the run from the hop on; and `isHit_adjacency`, the
elements to which an alternative of this form applies.
-/

set_option autoImplicit false

namespace VectorStyle

namespace Context

/-! ## Behind the hop -/

/-- The sibling right before the element of a level. -/
def sibling? {α : Type} (context : Context α) (j : Nat) : Option α :=
  context[j]?.bind fun level => level[1]?

/-- From a hop on, compounds are met at the sibling and beyond the level, or beyond the level
alone. -/
theorem outcome_hop_eq_ok_true_iff (e : Profile) (near : List Profile) (up : Context Profile)
    (ds : List Descriptor) (compounds : List (List Descriptor)) :
    outcome ((e :: near) :: up) (.combinator .nearby :: (ds :: compounds).map .compoundOf) =
        .ok true ↔
      (∃ s, near.head? = some s ∧ s.Satisfies ds ∧ MetFrom up.element? 0 compounds) ∨
        MetFrom up.element? 0 (ds :: compounds) := by
  have hsibling : element? (near :: up) 0 = near.head? := rfl
  rw [outcome, outcome_map_compoundOf_eq_ok_true_iff, metFrom_cons_iff_here_or_beyond, Nat.zero_add,
    hsibling]
  simp only [metFrom_one_cons_iff]

end Context

namespace Style

/-- An alternative that asks for a target, for something joined to it by `+`, and for ancestors
further out, written ancestor first. -/
def adjacency (target joined : List Descriptor) (ancestors : List (List Descriptor)) :
    List Entity :=
  ancestors.reverse.map .compoundOf ++
    [.compoundOf joined, .combinator .nearby, .compoundOf target]

theorem reverse_adjacency (target joined : List Descriptor) (ancestors : List (List Descriptor)) :
    (adjacency target joined ancestors).reverse =
      .compoundOf target :: .combinator .nearby :: (joined :: ancestors).map .compoundOf := by
  rw [adjacency, List.reverse_append, ← List.map_reverse, List.reverse_reverse]
  rfl

/-- Where the element at hand is as the target, the run goes on with the hop on the next level,
whatever stands beside the element. -/
theorem isHit_adjacency_eq_outcome {e : Profile} {target : List Descriptor}
    (htarget : e.Satisfies target) (near : List Profile) (up : Context Profile)
    (joined : List Descriptor) (ancestors : List (List Descriptor)) :
    isHit ((e :: near) :: up) (adjacency target joined ancestors) =
      Context.outcome up (.combinator .nearby :: (joined :: ancestors).map .compoundOf) := by
  have hd := e.describedBy_map_descriptor target
  rw [isHit, Context.isMatch_eq_outcome, reverse_adjacency, Entity.compoundOf,
    Context.outcome_compound_of_describedBy hd, if_pos (decide_eq_true htarget)]

/-- Alternatives of this form always have an answer. -/
theorem exists_isHit_adjacency_eq_ok (context : Context Profile) (target joined : List Descriptor)
    (ancestors : List (List Descriptor)) :
    ∃ b, isHit context (adjacency target joined ancestors) = .ok b := by
  rw [isHit, Context.isMatch_eq_outcome, reverse_adjacency]
  apply Context.exists_outcome_eq_ok_of_compoundOf
  intro parts hmem
  have hcompound : .compound parts ∈ (target :: joined :: ancestors).map Entity.compoundOf := by
    simpa using hmem
  obtain ⟨ds, -, hds⟩ := List.mem_map.1 hcompound
  exact ⟨ds, hds.symm⟩

/-- Where the element at hand is as the target and no level is empty, there is a parent, and either
the sibling before it is as the alternative says, or an element beyond the parent is. -/
theorem isHit_adjacency_iff {context : Context Profile} (hlevels : ∀ level ∈ context, level ≠ [])
    {e : Profile} (he : context.element? 0 = some e) {target : List Descriptor}
    (htarget : e.Satisfies target) (joined : List Descriptor) (ancestors : List (List Descriptor)) :
    isHit context (adjacency target joined ancestors) = .ok true ↔
      (context.element? 1).isSome = true ∧
        ((∃ s, context.sibling? 1 = some s ∧ s.Satisfies joined ∧
            MetFrom context.element? 2 ancestors) ∨
          MetFrom context.element? 2 (joined :: ancestors)) := by
  obtain ⟨near, up, rfl⟩ := Context.element?_zero_eq_some_iff.1 he
  rw [isHit_adjacency_eq_outcome htarget]
  cases up with
  | nil => simp [Context.outcome, Context.element?]
  | cons level outer =>
    obtain ⟨parent, siblings, rfl⟩ := List.exists_cons_of_ne_nil (hlevels level (by simp))
    -- counted from the level beyond the parent
    have hbeyond (compounds : List (List Descriptor)) :
        MetFrom (Context.element? ((e :: near) :: (parent :: siblings) :: outer)) 2 compounds ↔
          MetFrom (Context.element? outer) 0 compounds := metFrom_add_iff _ 0 2 compounds
    have hsibling : Context.sibling? ((e :: near) :: (parent :: siblings) :: outer) 1 =
        siblings.head? := by
      cases siblings <;> rfl
    have hparent :
        (Context.element? ((e :: near) :: (parent :: siblings) :: outer) 1).isSome = true := rfl
    rw [Context.outcome_hop_eq_ok_true_iff, hbeyond, hbeyond, hsibling, and_iff_right hparent]

/-! ## In a document -/

theorem sibling?_profiles (context : Context Element) (j : Nat) :
    (profiles context).sibling? j = (context.sibling? j).map Element.profile := by
  rw [profiles, Context.sibling?, Context.sibling?, List.getElem?_map]
  cases context[j]? with
  | none => rfl
  | some level => exact List.getElem?_map

/-- Beside an ancestor in the context at a position stands the sibling right before the ancestor. -/
theorem sibling?_profiles_pathTo {t : Tree Element} {p : List Nat} {e : Element}
    (hp : t.value? p = some e) {j : Nat} (hj : j ≤ p.length) :
    (profiles (Context.ofPath (t.pathTo [] p))).sibling? j =
      (t.siblingBefore? (p.take (p.length - j))).map Element.profile := by
  have hsubtree := Tree.isSome_subtree?_take (Tree.isSome_subtree?_of_value? hp) (p.length - j)
  obtain ⟨a, -, hlevel⟩ := (Tree.isVisitOf_ofPath_pathTo hp).level j hj
  rw [sibling?_profiles, Context.sibling?, hlevel, ← Tree.getLast?_siblingsBefore hsubtree,
    ← List.head?_reverse, List.head?_eq_getElem?]
  rfl

/-- The walk visits the element at a position with one context. An alternative `c b + a` for a
target `a` that the element satisfies applies there exactly if the element has a parent, and either
the sibling right before the parent satisfies `b`, or a proper ancestor of the parent does, with the
`c` met among the proper ancestors of the parent or of that ancestor. The siblings of the element
itself may be any others. -/
theorem isHit_adjacency (t : Tree Element) {p : List Nat} {e : Element} (hp : t.value? p = some e)
    {target : List Descriptor} (htarget : e.profile.Satisfies target) (joined : List Descriptor)
    (ancestors : List (List Descriptor)) :
    ∃ context, (∀ v, t.VisitedAt p v ↔ v = ⟨e, context⟩) ∧
      ∃ b, isHit (profiles context) (adjacency target joined ancestors) = .ok b ∧
        (∀ siblings, isHit (profiles ((e :: siblings) :: context.tail))
          (adjacency target joined ancestors) = .ok b) ∧
        (b = true ↔
          (∃ parent, t.ancestor? p 1 = some parent) ∧
            ((∃ s, t.siblingBefore? p.dropLast = some s ∧ s.profile.Satisfies joined ∧
                MetFrom (fun j => (t.ancestor? p j).map Element.profile) 2 ancestors) ∨
              ∃ j a, 2 ≤ j ∧ t.ancestor? p j = some a ∧ a.profile.Satisfies joined ∧
                MetFrom (fun j => (t.ancestor? p j).map Element.profile) (j + 1) ancestors)) := by
  let context := Context.ofPath (t.pathTo [] p)
  have helement := element?_profiles_pathTo (Tree.isSome_subtree?_of_value? hp)
  have hzero : (profiles context).element? 0 = some e.profile := by
    rw [helement, Tree.ancestor?_zero, hp]
    rfl
  obtain ⟨b, hb⟩ := exists_isHit_adjacency_eq_ok (profiles context) target joined ancestors
  refine ⟨context, Tree.visitedAt_iff_eq hp, b, hb, ?_, ?_⟩
  · -- the run leaves the first level by the target
    intro siblings
    obtain ⟨near, up, hcontext⟩ := Context.element?_zero_eq_some_iff.1 hzero
    have htail : profiles context.tail = up := by
      rw [profiles, List.map_tail, ← profiles, hcontext, List.tail_cons]
    rw [hcontext, isHit_adjacency_eq_outcome htarget, ← htail] at hb
    rw [← hb]
    exact isHit_adjacency_eq_outcome htarget _ _ _ _
  · have hlevels : ∀ level ∈ profiles context, level ≠ [] := by
      intro level hlevel
      obtain ⟨level', hmem, rfl⟩ := List.mem_map.1 hlevel
      rw [ne_eq, List.map_eq_nil_iff]
      exact (Tree.isVisitOf_ofPath_pathTo hp).ne_nil level' hmem
    have hiff := isHit_adjacency_iff hlevels hzero htarget joined ancestors
    rw [hb, Except.ok.injEq, funext helement] at hiff
    rw [hiff, metFrom_cons_iff]
    simp only [Option.isSome_map, Option.isSome_iff_exists, Option.map_eq_some_iff]
    apply and_congr_right
    rintro ⟨parent, hparent⟩
    have hlength : 1 ≤ p.length := by
      by_contra hroot
      rw [Tree.ancestor?, if_neg hroot] at hparent
      cases hparent
    rw [sibling?_profiles_pathTo hp hlength, ← List.dropLast_eq_take]
    simp only [Option.map_eq_some_iff, exists_exists_and_eq_and, exists_and_left]

/-- `svg rect + circle` applies to the circle: the rectangle stands before the group around the
circle. `g + circle` does not: the group is the circle's parent, and nothing further out is one. -/
theorem isHit_adjacency_circle :
    drawingTree.value? [1, 0] = some (named "circle" (by decide)) ∧
      (named "circle" (by decide)).profile.Satisfies [.ofName "circle"] ∧
      ∃ context, (∀ v, drawingTree.VisitedAt [1, 0] v ↔
          v = ⟨named "circle" (by decide), context⟩) ∧
        isHit (profiles context)
          (adjacency [.ofName "circle"] [.ofName "rect"] [[.ofName "svg"]]) = .ok true ∧
        isHit (profiles context) (adjacency [.ofName "circle"] [.ofName "g"] []) =
          .ok false := by
  have hp : drawingTree.value? [1, 0] = some (named "circle" (by decide)) := rfl
  have htarget : (named "circle" (by decide)).profile.Satisfies [.ofName "circle"] := by decide
  obtain ⟨context, hvisit, b, hb, -, hiff⟩ :=
    isHit_adjacency drawingTree hp htarget [.ofName "rect"] [[.ofName "svg"]]
  have hrect : drawingTree.siblingBefore? [1] = some (named "rect" (by decide)) := rfl
  have hdrawing : MetFrom (fun j => (drawingTree.ancestor? [1, 0] j).map Element.profile) 2
      [[.ofName "svg"]] :=
    ⟨[2], by simp, by simp, .cons ⟨(named "svg" (by decide)).profile, rfl, by decide⟩ .nil⟩
  rw [hiff.2 ⟨⟨named "g" (by decide), rfl⟩, Or.inl ⟨_, hrect, by decide, hdrawing⟩⟩] at hb
  obtain ⟨context', hvisit', b', hb', -, hiff'⟩ :=
    isHit_adjacency drawingTree hp htarget [.ofName "g"] []
  -- both alternatives are tested in one context
  obtain rfl := Tree.context_eq_of_visitedAt_iff hvisit hvisit'
  have hrefused : b' = false := by
    rw [Bool.eq_false_iff, ne_eq, hiff']
    rintro ⟨-, ⟨s, hs, hsat, -⟩ | ⟨j, a, hj, ha, hsat, -⟩⟩
    · obtain rfl : named "rect" (by decide) = s := Option.some.inj hs
      exact absurd hsat (by decide)
    · -- beyond the parent there is the drawing alone
      rcases j with - | - | - | j
      · omega
      · omega
      · obtain rfl : named "svg" (by decide) = a := Option.some.inj ha
        exact absurd hsat (by decide)
      · cases ha
  rw [hrefused] at hb'
  exact ⟨hp, htarget, context', hvisit, hb, hb'⟩

end Style

end VectorStyle
