import VectorStyle.Proofs.Selector.Derivation
import VectorStyle.Proofs.Tree.Positions
import VectorStyle.Style.Resolution

/-!
# The declarations of plain rules

A rule is plain if its compounds hold descriptors only. Plain rules can be tested everywhere, so the
declarations of a context are a list, `Style.declared`, and resolving a document always gives a
style to each element.

`Style.declared` is read off rule by rule and alternative by alternative, which makes it possible to
compare contexts: a context in which more alternatives match gets the declarations of the other one
and more in between.

Main statements: `hits_map_declarations`, the declarations of the hits of plain rules;
`declared_sublist`, how the lists of two contexts compare; and `styledAt_iff`, the one style that
resolving gives the node at a position.
-/

set_option autoImplicit false

namespace VectorStyle

/-- The compounds of all alternatives hold descriptors only. -/
def Rule.IsPlain (r : Rule) : Prop :=
  ∀ a ∈ r.alternatives, ∀ parts, .compound parts ∈ a → ∀ x ∈ parts, x.isDescriptor = true

namespace Style

/-! ## In a context -/

/-- Whether an alternative matches. One that cannot be tested does not. -/
def applies (context : Context Profile) (alternative : List Entity) : Bool :=
  match isHit context alternative with
  | .ok b => b
  | .error _ => false

/-- The declarations that a rule contributes: all of its own for each alternative that matches. -/
def contributed (context : Context Profile) (r : Rule) : List Declaration :=
  r.alternatives.flatMap fun a => if applies context a then r.declarations else []

/-- The declarations of rules, one rule after the other. -/
def declared (context : Context Profile) (rules : List Rule) : List Declaration :=
  rules.flatMap (contributed context)

theorem applies_eq_true_iff {context : Context Profile} {alternative : List Entity} :
    applies context alternative = true ↔ isHit context alternative = .ok true := by
  rw [applies]
  cases isHit context alternative <;> simp

/-- An alternative of a plain rule has an answer. -/
theorem isHit_eq_ok_applies {r : Rule} (hr : r.IsPlain) (context : Context Profile)
    {alternative : List Entity} (ha : alternative ∈ r.alternatives) :
    isHit context alternative = .ok (applies context alternative) := by
  have hplain : ∀ parts, .compound parts ∈ alternative.reverse →
      ∀ x ∈ parts, x.isDescriptor = true := by
    intro parts hparts
    exact hr alternative ha parts (List.mem_reverse.1 hparts)
  obtain ⟨b, hb⟩ := Context.exists_outcome_eq_ok context hplain
  rw [← Context.isMatch_eq_outcome] at hb
  rw [applies, isHit, hb]

theorem flatMap_filter {α β : Type} (p : α → Bool) (f : α → List β) (l : List α) :
    (l.filter p).flatMap f = l.flatMap fun a => if p a then f a else [] := by
  induction l with
  | nil => rfl
  | cons a l ih =>
    rw [List.flatMap_cons, ← ih]
    cases h : p a <;> simp [h]

/-- The hits of plain rules declare this list. -/
theorem hits_map_declarations {rules : List Rule} (h : ∀ r ∈ rules, r.IsPlain)
    (context : Context Profile) :
    (hits context rules).map declarations = .ok (declared context rules) := by
  induction rules with
  | nil => rfl
  | cons r rules ih =>
    rw [List.forall_mem_cons] at h
    have hr := ruleHits_eq_of_matches context r (applies context) fun a ha =>
      isHit_eq_ok_applies h.1 context ha
    obtain ⟨hs, hhits, hdeclared⟩ := map_eq_ok_iff.1 (ih h.2)
    have hfirst : declarations ((r.alternatives.filter (applies context)).map fun a =>
        ⟨a, r.declarations⟩) = contributed context r := by
      rw [declarations, List.flatMap_map, flatMap_filter, contributed]
    rw [hits, hr, hhits, declared, List.flatMap_cons, ← hfirst, ← declared, ← hdeclared]
    exact congrArg Except.ok List.flatMap_append

theorem flatMap_sublist_flatMap {α β : Type} {f g : α → List β} {l : List α}
    (h : ∀ a ∈ l, (f a).Sublist (g a)) : (l.flatMap f).Sublist (l.flatMap g) := by
  induction l with
  | nil => exact .slnil
  | cons a l ih =>
    rw [List.forall_mem_cons] at h
    rw [List.flatMap_cons, List.flatMap_cons]
    exact h.1.append (ih h.2)

/-- If the alternatives that match one context match another, the other gets all declarations of the
first in their order. -/
theorem declared_sublist {context context' : Context Profile} {rules : List Rule}
    (h : ∀ r ∈ rules, ∀ a ∈ r.alternatives,
      isHit context a = .ok true → isHit context' a = .ok true) :
    (declared context rules).Sublist (declared context' rules) := by
  apply flatMap_sublist_flatMap
  intro r hr
  apply flatMap_sublist_flatMap
  intro a ha
  cases hcontext : applies context a with
  | false => exact List.nil_sublist _
  | true =>
    have hcontext' : applies context' a = true := by
      rw [applies_eq_true_iff] at hcontext ⊢
      exact h r hr a ha hcontext
    simp [hcontext']

/-! ## In a document -/

/-- The style that plain rules give a visited element. -/
def styleOf (rules : List Rule) (dpi : Int) (v : Visit Element) : ResolvedStyle :=
  ⟨v.value, declared (profiles v.context) rules, dpi⟩

/-- Resolving the document gives the node at the position the style. -/
def StyledAt (rules : List Rule) (dpi : Int) (t : Tree Element) (p : List Nat)
    (s : ResolvedStyle) : Prop :=
  ∃ styles, resolve rules dpi t = .ok styles ∧ (p, s) ∈ t.positions.zip styles

theorem mapM_eq_ok_map {ε α β : Type} {f : α → Except ε β} {g : α → β} {l : List α}
    (h : ∀ a, f a = .ok (g a)) : l.mapM f = .ok (l.map g) := by
  have hf : f = fun a => .ok (g a) := funext h
  rw [hf]
  exact List.mapM_pure

/-- Plain rules style every element of a document. -/
theorem resolve_eq_ok {rules : List Rule} (h : ∀ r ∈ rules, r.IsPlain) (dpi : Int)
    (t : Tree Element) : resolve rules dpi t = .ok (t.walk.map (styleOf rules dpi)) := by
  apply mapM_eq_ok_map
  intro v
  rw [ofVisit, declarationsFor, hits_map_declarations h]
  rfl

/-- The styles are in the order of the positions, as the visits are. -/
theorem map_some_styles (rules : List Rule) (dpi : Int) (t : Tree Element) :
    (t.walk.map (styleOf rules dpi)).map some =
      t.positions.map fun p => (t.visitAt? [] [] p).map (styleOf rules dpi) := by
  have hwalk := congrArg (List.map (Option.map (styleOf rules dpi))) (Tree.map_some_walk t)
  rw [List.map_map, List.map_map] at hwalk
  rw [List.map_map]
  exact hwalk

/-- Plain rules give the node at a position one style. -/
theorem styledAt_iff {rules : List Rule} (h : ∀ r ∈ rules, r.IsPlain) (dpi : Int)
    {t : Tree Element} {p : List Nat} {e : Element} (hp : t.value? p = some e)
    (s : ResolvedStyle) :
    StyledAt rules dpi t p s ↔
      s = ⟨e, declared (profiles (Context.ofPath (t.pathTo [] p))) rules, dpi⟩ := by
  have hmem : p ∈ t.positions := by
    rw [Tree.mem_positions_iff, ← Tree.isSome_value?, hp]
    rfl
  rw [StyledAt, resolve_eq_ok h]
  simp only [Except.ok.injEq, exists_eq_left']
  rw [Tree.mem_zip_iff_of_map_some (map_some_styles rules dpi t), and_iff_right hmem,
    Tree.visitAt?, hp, List.append_nil, Option.map_some, Option.map_some, Option.some.injEq,
    styleOf, eq_comm]

/-- So the declarations of that style can be computed. -/
theorem eq_declared_of_styledAt_iff {rules : List Rule} (h : ∀ r ∈ rules, r.IsPlain) {dpi : Int}
    {t : Tree Element} {p : List Nat} {e : Element} (hp : t.value? p = some e)
    {ds : List Declaration} (hds : ∀ s, StyledAt rules dpi t p s ↔ s = ⟨e, ds, dpi⟩) :
    ds = declared (profiles (Context.ofPath (t.pathTo [] p))) rules := by
  have hstyled := (hds ⟨e, ds, dpi⟩).2 rfl
  rw [styledAt_iff h dpi hp] at hstyled
  exact congrArg ResolvedStyle.declarations hstyled

end Style

end VectorStyle
