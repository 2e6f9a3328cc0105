import Mathlib.Data.List.Forall2
import VectorStyle.Proofs.Selector.Placement
import VectorStyle.Proofs.Style.Declared

/-!
# The deciding declaration

The declarations of a context repeat those of a rule once for each of its alternatives that matches.
A property is looked up from the end of the list, so that neither the number of these repetitions
nor their order can be seen by the lookup.

`Style.decision?` is what a single rule says of a property. The lookup is the decision of the last
rule that has one, in the order of the rules.

Main statements: `lookup_declared`, the lookup by decisions; `lookup_declared_eq_some_iff`, the last
declaration of the last rule that decides; `lookup_declared_of_sameAlternatives`, the alternatives
of a rule count as a set; and `lookup_last_rule_wins`, which adds that the list of declarations does
change when alternatives are repeated.
-/

set_option autoImplicit false

namespace VectorStyle

/-- The value is the last one in the list for which the property holds. -/
def IsLast {α : Type} (P : α → Prop) (l : List α) (a : α) : Prop :=
  ∃ before after, l = before ++ a :: after ∧ P a ∧ ∀ b ∈ after, ¬ P b

/-- The last one is the first from the end. -/
theorem isLast_iff_reverse {α : Type} {P : α → Prop} {l : List α} {a : α} :
    IsLast P l a ↔ ∃ after before, l.reverse = after ++ a :: before ∧ P a ∧ ∀ b ∈ after, ¬ P b := by
  constructor
  · rintro ⟨before, after, rfl, ha, hafter⟩
    refine ⟨after.reverse, before.reverse, by simp, ha, ?_⟩
    intro b hb
    exact hafter b (List.mem_reverse.1 hb)
  · rintro ⟨after, before, hreverse, ha, hafter⟩
    refine ⟨before.reverse, after.reverse, ?_, ha, ?_⟩
    · rw [← List.reverse_inj, hreverse]
      simp
    · intro b hb
      exact hafter b (List.mem_reverse.1 hb)

theorem find?_reverse_eq_some_iff {α : Type} {p : α → Bool} {l : List α} {a : α} :
    l.reverse.find? p = some a ↔ IsLast (fun b => p b = true) l a := by
  rw [List.find?_eq_some_iff_append, isLast_iff_reverse]
  constructor
  · rintro ⟨ha, after, before, hl, hafter⟩
    exact ⟨after, before, hl, ha, fun b hb => by simpa using hafter b hb⟩
  · rintro ⟨after, before, hl, ha, hafter⟩
    exact ⟨ha, after, before, hl, fun b hb => by simpa using hafter b hb⟩

/-- A rule decides a property in a context: it has an alternative that matches and declares the
property. -/
structure Rule.Decides (context : Context Profile) (property : String) (r : Rule) : Prop where
  matched : ∃ a ∈ r.alternatives, Style.isHit context a = .ok true
  declared : ∃ d ∈ r.declarations, d.property = property

/-- Two rules have the same declarations and, but for order and repetitions, the same
alternatives. -/
structure Rule.SameAlternatives (r r' : Rule) : Prop where
  mem_iff : ∀ a, a ∈ r'.alternatives ↔ a ∈ r.alternatives
  declarations_eq : r'.declarations = r.declarations

namespace Style

open ResolvedStyle (lookup)

variable {context : Context Profile} {property : String} {rules rules' : List Rule}

/-! ## The decision of a rule -/

/-- The last declaration of a property in a rule, if one of the rule's alternatives matches. -/
def decision? (context : Context Profile) (property : String) (r : Rule) : Option Declaration :=
  if r.alternatives.any (applies context) then
    r.declarations.reverse.find? (·.property == property)
  else none

theorem any_applies_iff {r : Rule} :
    r.alternatives.any (applies context) = true ↔
      ∃ a ∈ r.alternatives, isHit context a = .ok true := by
  simp only [List.any_eq_true, applies_eq_true_iff]

theorem decision?_eq_some_iff {r : Rule} {d : Declaration} :
    decision? context property r = some d ↔
      r.Decides context property ∧ IsLast (fun d => d.property = property) r.declarations d := by
  have hlast : r.declarations.reverse.find? (·.property == property) = some d ↔
      IsLast (fun d => d.property = property) r.declarations d := by
    rw [find?_reverse_eq_some_iff]
    simp only [beq_iff_eq]
  rw [decision?]
  split
  case isTrue h =>
    rw [hlast]
    refine ⟨fun hd => ⟨⟨any_applies_iff.1 h, ?_⟩, hd⟩, And.right⟩
    obtain ⟨before, after, heq, hproperty, -⟩ := hd
    exact ⟨d, by simp [heq], hproperty⟩
  case isFalse h =>
    rw [any_applies_iff] at h
    constructor
    · rintro ⟨⟩
    · rintro ⟨⟨hmatched, -⟩, -⟩
      exact absurd hmatched h

theorem decision?_eq_none_iff {r : Rule} :
    decision? context property r = none ↔ ¬ r.Decides context property := by
  rw [decision?]
  split
  case isTrue h =>
    rw [any_applies_iff] at h
    rw [List.find?_eq_none]
    constructor
    · rintro hnone ⟨-, d, hd, hproperty⟩
      exact hnone d (List.mem_reverse.2 hd) (beq_iff_eq.2 hproperty)
    · intro hnot d hd hproperty
      exact hnot ⟨h, d, List.mem_reverse.1 hd, beq_iff_eq.1 hproperty⟩
  case isFalse h =>
    rw [any_applies_iff] at h
    exact iff_of_true rfl fun hdecides => h hdecides.matched

/-! ## The lookup -/

theorem findSome?_ite {α β : Type} (p : α → Bool) (x : Option β) (l : List α) :
    (l.findSome? fun a => if p a then x else none) = if l.any p then x else none := by
  induction l with
  | nil => rfl
  | cons a l ih =>
    rw [List.findSome?_cons, ih, List.any_cons]
    cases p a <;> cases x <;> simp

/-- The lookup is the decision of the last rule that has one. -/
theorem lookup_declared (context : Context Profile) (rules : List Rule) (e : Element) (dpi : Int)
    (property : String) :
    lookup ⟨e, declared context rules, dpi⟩ property =
      rules.reverse.findSome? (decision? context property) := by
  rw [lookup, declared, List.reverse_flatMap, List.find?_flatMap]
  congr 1
  funext r
  -- the declarations of a rule are repeated, and from the end each repetition says the same
  have hrepeated (a : List Entity) :
      (if applies context a then r.declarations else []).reverse.find? (·.property == property) =
        if applies context a then r.declarations.reverse.find? (·.property == property)
        else none := by
    cases applies context a <;> rfl
  simp only [contributed, Function.comp_apply, List.reverse_flatMap, List.find?_flatMap, hrepeated]
  rw [findSome?_ite, List.any_reverse, decision?]

/-- What is looked up is the last declaration of the property in the last rule that decides it. -/
theorem lookup_declared_eq_some_iff {e : Element} {dpi : Int} {d : Declaration} :
    lookup ⟨e, declared context rules, dpi⟩ property = some d ↔
      ∃ r, IsLast (Rule.Decides context property) rules r ∧
        IsLast (fun d => d.property = property) r.declarations d := by
  rw [lookup_declared, List.findSome?_eq_some_iff]
  simp only [isLast_iff_reverse (l := rules), decision?_eq_some_iff, decision?_eq_none_iff]
  constructor
  · rintro ⟨after, r, before, hrules, ⟨hr, hd⟩, hafter⟩
    exact ⟨r, ⟨after, before, hrules, hr, hafter⟩, hd⟩
  · rintro ⟨r, ⟨after, before, hrules, hr, hafter⟩, hd⟩
    exact ⟨after, r, before, hrules, ⟨hr, hd⟩, hafter⟩

/-- Nothing is looked up exactly if no rule decides the property. -/
theorem lookup_declared_eq_none_iff {e : Element} {dpi : Int} :
    lookup ⟨e, declared context rules, dpi⟩ property = none ↔
      ∀ r ∈ rules, ¬ r.Decides context property := by
  rw [lookup_declared, List.findSome?_eq_none_iff]
  simp only [List.mem_reverse, decision?_eq_none_iff]

/-! ## Alternatives as a set -/

/-- Rules that differ in the order and the repetitions of their alternatives are plain together. -/
theorem isPlain_of_sameAlternatives (hsame : List.Forall₂ Rule.SameAlternatives rules rules')
    (h : ∀ r ∈ rules, r.IsPlain) : ∀ r ∈ rules', r.IsPlain := by
  induction hsame with
  | nil => exact h
  | cons hr _ ih =>
    rw [List.forall_mem_cons] at h ⊢
    refine ⟨?_, ih h.2⟩
    intro a ha
    exact h.1 a ((hr.mem_iff a).1 ha)

theorem decision?_of_sameAlternatives {r r' : Rule} (h : r.SameAlternatives r')
    (context : Context Profile) (property : String) :
    decision? context property r' = decision? context property r := by
  have hany : r'.alternatives.any (applies context) = r.alternatives.any (applies context) := by
    rw [Bool.eq_iff_iff, List.any_eq_true, List.any_eq_true]
    simp only [h.mem_iff]
  rw [decision?, decision?, hany, h.declarations_eq]

/-- The lookup does not see the order and the repetitions of alternatives. -/
theorem lookup_declared_of_sameAlternatives
    (hsame : List.Forall₂ Rule.SameAlternatives rules rules') (context : Context Profile)
    (e : Element) (dpi : Int) (property : String) :
    lookup ⟨e, declared context rules', dpi⟩ property =
      lookup ⟨e, declared context rules, dpi⟩ property := by
  have hmap : rules'.map (decision? context property) =
      rules.map (decision? context property) := by
    induction hsame with
    | nil => rfl
    | cons hr _ ih =>
      rw [List.map_cons, List.map_cons, ih, decision?_of_sameAlternatives hr]
  have hfind (l : List Rule) : l.reverse.findSome? (decision? context property) =
      (l.map (decision? context property)).reverse.findSome? id := by
    rw [← List.map_reverse, List.findSome?_map, Function.id_comp]
  rw [lookup_declared, lookup_declared, hfind, hmap, ← hfind]

/-! ## Repeated alternatives -/

/-- The rule with each alternative written twice. -/
def doubled (r : Rule) : Rule := ⟨r.alternatives ++ r.alternatives, r.declarations⟩

theorem sameAlternatives_doubled (rules : List Rule) :
    List.Forall₂ Rule.SameAlternatives rules (rules.map doubled) := by
  rw [List.forall₂_map_right_iff, List.forall₂_same]
  intro r _
  exact ⟨fun a => by simp [doubled], rfl⟩

theorem contributed_doubled (context : Context Profile) (r : Rule) :
    contributed context (doubled r) = contributed context r ++ contributed context r :=
  List.flatMap_append

/-- Each declaration is contributed twice. -/
theorem length_declared_doubled (context : Context Profile) (rules : List Rule) :
    (declared context (rules.map doubled)).length = 2 * (declared context rules).length := by
  rw [declared, declared, List.flatMap_map]
  induction rules with
  | nil => rfl
  | cons r rules ih =>
    rw [List.flatMap_cons, List.flatMap_cons, List.length_append, List.length_append, ih,
      contributed_doubled, List.length_append]
    omega

/-- Plain rules have a list of declarations in every context. A property is looked up in it as the
last declaration of the property in the last rule that decides it, and is not found exactly if no
rule decides it. Other orders and repetitions of the alternatives change neither what is looked up
nor its length, but some of them change the list, unless it is empty. -/
theorem lookup_last_rule_wins (context : Context Profile) {rules : List Rule}
    (h : ∀ r ∈ rules, r.IsPlain) :
    ∃ ds, (hits context rules).map declarations = .ok ds ∧
      (∀ e dpi property,
        (∀ d, lookup ⟨e, ds, dpi⟩ property = some d ↔
          ∃ r, IsLast (Rule.Decides context property) rules r ∧
            IsLast (fun d => d.property = property) r.declarations d) ∧
        (lookup ⟨e, ds, dpi⟩ property = none ↔ ∀ r ∈ rules, ¬ r.Decides context property)) ∧
      (∀ rules', List.Forall₂ Rule.SameAlternatives rules rules' →
        ∃ ds', (hits context rules').map declarations = .ok ds' ∧
          ∀ e dpi property,
            lookup ⟨e, ds', dpi⟩ property = lookup ⟨e, ds, dpi⟩ property ∧
              ResolvedStyle.length ⟨e, ds', dpi⟩ property =
                ResolvedStyle.length ⟨e, ds, dpi⟩ property) ∧
      (ds ≠ [] → ∃ rules', List.Forall₂ Rule.SameAlternatives rules rules' ∧
        ∃ ds', (hits context rules').map declarations = .ok ds' ∧ ds' ≠ ds) := by
  refine ⟨declared context rules, hits_map_declarations h context, ?_, ?_, ?_⟩
  · intro e dpi property
    exact ⟨fun d => lookup_declared_eq_some_iff, lookup_declared_eq_none_iff⟩
  · intro rules' hsame
    have h' := isPlain_of_sameAlternatives hsame h
    refine ⟨declared context rules', hits_map_declarations h' context, ?_⟩
    intro e dpi property
    have hlookup := lookup_declared_of_sameAlternatives hsame context e dpi property
    refine ⟨hlookup, ?_⟩
    rw [ResolvedStyle.length, ResolvedStyle.length, hlookup]
  · intro hne
    have hsame := sameAlternatives_doubled rules
    have h' := isPlain_of_sameAlternatives hsame h
    refine ⟨rules.map doubled, hsame, declared context (rules.map doubled),
      hits_map_declarations h' context, ?_⟩
    -- the list of the doubled rules is twice as long
    intro heq
    have hlength := length_declared_doubled context rules
    have hpos := List.length_pos_iff.2 hne
    rw [heq] at hlength
    omega

/-- A rule for groups and for circles. -/
def shapeRule : Rule :=
  ⟨[[.compoundOf [.ofName "g"]], [.compoundOf [.ofName "circle"]]],
    [.single "stroke" [.ident "red"], .single "opacity" [.ident "half"],
      .single "stroke" [.ident "blue"]]⟩

/-- A rule for everything, the one for shapes, and one for texts. -/
def drawingRules : List Rule :=
  [⟨[[.compoundOf [.anyElement]]], [.single "stroke" [.ident "black"]]⟩, shapeRule,
    ⟨[[.compoundOf [.ofName "text"]]], [.single "stroke" [.ident "green"]]⟩]

/-- In a drawing without texts, the last stroke of the rule for shapes is looked up. -/
theorem lookup_last_rule_wins_circle :
    (∀ r ∈ drawingRules, r.IsPlain) ∧
      ∃ ds, (hits Context.drawing drawingRules).map declarations = .ok ds ∧
        ∀ e dpi, lookup ⟨e, ds, dpi⟩ "stroke" = some (.single "stroke" [.ident "blue"]) := by
  have hplain : ∀ r ∈ drawingRules, r.IsPlain := by
    simp [drawingRules, shapeRule, Rule.IsPlain, Entity.compoundOf, Entity.isDescriptor]
  obtain ⟨ds, hds, hlookup, -⟩ := lookup_last_rule_wins Context.drawing hplain
  have hcircle : isHit Context.drawing [.compoundOf [.ofName "circle"]] = .ok true := by
    rw [isHit, Context.isMatch_eq_ok_true_iff]
    refine .take _ ?_ (.nil _)
    rw [Profile.describedBy_map_descriptor]
    rfl
  have htext : isHit Context.drawing [.compoundOf [.ofName "text"]] = .ok false := by
    rw [isHit, Context.isMatch_eq_outcome]
    simp [Entity.compoundOf, Context.drawing, Context.outcome, Profile.describedBy,
      Descriptor.describes, Except.bind]
  have hdecides : shapeRule.Decides Context.drawing "stroke" :=
    ⟨⟨_, List.mem_cons_of_mem _ List.mem_cons_self, hcircle⟩, _, List.mem_cons_self, rfl⟩
  have hrule : IsLast (Rule.Decides Context.drawing "stroke") drawingRules shapeRule := by
    refine ⟨[_], [_], rfl, hdecides, ?_⟩
    rw [List.forall_mem_singleton]
    rintro ⟨⟨a, ha, hmatch⟩, -⟩
    obtain rfl := List.mem_singleton.1 ha
    rw [htext] at hmatch
    cases hmatch
  have hdeclaration : IsLast (fun d => d.property = "stroke") shapeRule.declarations
      (.single "stroke" [.ident "blue"]) := ⟨[_, _], [], rfl, rfl, by simp⟩
  refine ⟨hplain, ds, hds, ?_⟩
  intro e dpi
  rw [(hlookup e dpi "stroke").1]
  exact ⟨shapeRule, hrule, hdeclaration⟩

end Style

end VectorStyle
