import VectorStyle.Config
import VectorStyle.Proofs.Binary64.Range
import VectorStyle.Proofs.Results
import VectorStyle.Proofs.Style.ChildChains
import VectorStyle.Proofs.Style.LastWins
import VectorStyle.Proofs.Tree.DocumentOrder

/-!
# What can fail when a document is resolved

Resolving a document tests alternatives against contexts, and nothing else in it can fail. A test
fails about a part of a compound that is no descriptor, so rules whose compounds hold descriptors
only are resolved for every document, and any other rules fail about one of their own parts.

Of the styles that come out, looking up a property always has an answer. Its length fails if it has
to be scaled by a resolution for which the format has no finite number, and in no other case.

Main statements: `exists_part_of_hits_eq_error`, what a failure is about; `length_eq_error_iff`,
when a length fails; and `resolve_total`, which puts both together for whole documents.
-/

set_option autoImplicit false

namespace VectorStyle

/-! ## Numbers of a declaration -/

theorem Entity.asNumber?_eq_some_iff {e : Entity} {l : Length} :
    e.asNumber? = some l ↔ e = .number l := by
  cases e <;> simp [asNumber?]

/-- The length is the first number among the terms of the declaration. -/
def Declaration.HasFirstNumber (d : Declaration) (l : Length) : Prop :=
  ∃ before after, d.terms = before ++ .number l :: after ∧ ∀ e ∈ before, ∀ m, e ≠ .number m

theorem Declaration.firstNumber?_eq_some_iff {d : Declaration} {l : Length} :
    d.firstNumber? = some l ↔ d.HasFirstNumber l := by
  have hnone (e : Entity) : e.asNumber? = none ↔ ∀ m, e ≠ .number m := by
    simp only [Option.eq_none_iff_forall_ne_some, ne_eq, Entity.asNumber?_eq_some_iff]
  rw [firstNumber?, List.findSome?_eq_some_iff]
  simp only [Entity.asNumber?_eq_some_iff, hnone]
  constructor
  · rintro ⟨before, e, after, hterms, rfl, hbefore⟩
    exact ⟨before, after, hterms, hbefore⟩
  · rintro ⟨before, after, hterms, hbefore⟩
    exact ⟨before, .number l, after, hterms, rfl, hbefore⟩

namespace ResolvedStyle

variable {s : ResolvedStyle} {property : String}

/-- The declaration is the last one of the property. -/
def Decides (s : ResolvedStyle) (property : String) (d : Declaration) : Prop :=
  IsLast (fun d => d.property = property) s.declarations d

theorem lookup_eq_some_iff {d : Declaration} :
    s.lookup property = some d ↔ s.Decides property d := by
  rw [lookup, find?_reverse_eq_some_iff]
  simp only [beq_iff_eq, Decides]

theorem lookup_eq_none_iff :
    s.lookup property = none ↔ ∀ d ∈ s.declarations, d.property ≠ property := by
  simp [lookup, List.find?_eq_none]

/-- What is converted is the first number of the last declaration. -/
theorem firstNumber?_lookup_eq_some_iff {l : Length} :
    (s.lookup property).bind Declaration.firstNumber? = some l ↔
      ∃ d, s.Decides property d ∧ d.HasFirstNumber l := by
  simp only [Option.bind_eq_some_iff, lookup_eq_some_iff, Declaration.firstNumber?_eq_some_iff]

/-- A length fails if its number is physical and the resolution out of range. -/
theorem length_eq_error_iff {x : Length.ConversionError} :
    s.length property = .error x ↔
      Binary64.wholeOverflow ≤ s.dpi.natAbs ∧
        ∃ d l, s.Decides property d ∧ d.HasFirstNumber l ∧ l.isPhysical = true := by
  rw [length]
  split
  case h_1 hnone =>
    constructor
    · rintro ⟨⟩
    · rintro ⟨-, d, l, hd, hl, -⟩
      have hsome := firstNumber?_lookup_eq_some_iff.2 ⟨d, hd, hl⟩
      rw [hnone] at hsome
      cases hsome
  case h_2 l hsome =>
    rw [map_eq_error_iff, Length.toUserUnits_eq_error_iff, Binary64.ofInt?_eq_none_iff, and_comm]
    apply and_congr_right'
    constructor
    · intro hphysical
      obtain ⟨d, hd, hl⟩ := firstNumber?_lookup_eq_some_iff.1 hsome
      exact ⟨d, l, hd, hl, hphysical⟩
    · rintro ⟨d, m, hd, hm, hphysical⟩
      have hsome' := firstNumber?_lookup_eq_some_iff.2 ⟨d, hd, hm⟩
      obtain rfl : l = m := Option.some.inj (hsome.symm.trans hsome')
      exact hphysical

end ResolvedStyle

namespace Style

/-! ## What a failure is about -/

theorem exists_of_matching_eq_error {context : Context Profile} {alternatives : List (List Entity)}
    {x : MatchError} (h : matching context alternatives = .error x) :
    ∃ a ∈ alternatives, isHit context a = .error x := by
  induction alternatives with
  | nil => cases h
  | cons a as ih =>
    rw [matching] at h
    cases hfirst : isHit context a with
    | error y =>
      rw [hfirst] at h
      cases h
      exact ⟨a, List.mem_cons_self, hfirst⟩
    | ok b =>
      cases hrest : matching context as with
      | error y =>
        -- whether or not the first alternative matches, the failure is that of the others
        rw [hfirst, hrest] at h
        obtain rfl : y = x := by cases b <;> cases h <;> rfl
        obtain ⟨a', ha', hfail⟩ := ih hrest
        exact ⟨a', List.mem_cons_of_mem a ha', hfail⟩
      | ok matched =>
        rw [hfirst, hrest] at h
        cases b <;> cases h

/-- The hits of rules fail where an alternative of one of the rules does. -/
theorem exists_of_hits_eq_error {context : Context Profile} {rules : List Rule} {x : MatchError}
    (h : hits context rules = .error x) :
    ∃ r ∈ rules, ∃ a ∈ r.alternatives, isHit context a = .error x := by
  induction rules with
  | nil => cases h
  | cons r rules ih =>
    rw [hits] at h
    cases hfirst : ruleHits context r with
    | error y =>
      rw [hfirst] at h
      cases h
      obtain ⟨a, ha, hfail⟩ := exists_of_matching_eq_error (map_eq_error_iff.1 hfirst)
      exact ⟨r, List.mem_cons_self, a, ha, hfail⟩
    | ok hs =>
      cases hrest : hits context rules with
      | error y =>
        rw [hfirst, hrest] at h
        cases h
        obtain ⟨r', hr', hfail⟩ := ih hrest
        exact ⟨r', List.mem_cons_of_mem r hr', hfail⟩
      | ok hs' =>
        rw [hfirst, hrest] at h
        cases h

/-- The hits of rules fail about a part of a compound of theirs that is no descriptor. -/
theorem exists_part_of_hits_eq_error {context : Context Profile} {rules : List Rule}
    {x : MatchError} (h : hits context rules = .error x) :
    ∃ r ∈ rules, ∃ a ∈ r.alternatives, ∃ parts, .compound parts ∈ a ∧
      ∃ part ∈ parts, part.isDescriptor = false ∧ x = .notADescriptor part := by
  obtain ⟨r, hr, a, ha, hfail⟩ := exists_of_hits_eq_error h
  obtain ⟨part⟩ := x
  rw [isHit, Context.isMatch_eq_outcome] at hfail
  obtain ⟨parts, hparts, hpart, hd⟩ := Context.exists_mem_of_outcome_eq_error hfail
  exact ⟨r, hr, a, ha, parts, List.mem_reverse.1 hparts, part, hpart, hd, rfl⟩

/-! ## Documents -/

/-- A style of the node at a position: of the element there, with the declarations that its context
gets from the rules. -/
structure IsStyleOf (rules : List Rule) (t : Tree Element) (p : List Nat) (s : ResolvedStyle) :
    Prop where
  element : t.value? p = some s.element
  declarations : declarationsFor rules (Context.ofPath (t.pathTo [] p)) = .ok s.declarations

/-- Resolving a document fails where the declarations of a context do. -/
theorem exists_of_resolve_eq_error {rules : List Rule} {dpi : Int} {t : Tree Element}
    {x : MatchError} (h : resolve rules dpi t = .error x) :
    ∃ v ∈ t.walk, hits (profiles v.context) rules = .error x := by
  obtain ⟨v, hv, hfail⟩ := exists_of_mapM_eq_error h
  rw [ofVisit, map_eq_error_iff, declarationsFor, map_eq_error_iff] at hfail
  exact ⟨v, hv, hfail⟩

/-- Plain rules give each node of a document one style, all for the same resolution. -/
theorem exists_forall₂_isStyleOf {rules : List Rule} (h : ∀ r ∈ rules, r.IsPlain) (dpi : Int)
    (t : Tree Element) :
    ∃ styles, resolve rules dpi t = .ok styles ∧ styles.length = t.size ∧
      List.Forall₂ (IsStyleOf rules t) t.positions styles ∧ ∀ s ∈ styles, s.dpi = dpi := by
  refine ⟨t.walk.map (styleOf rules dpi), resolve_eq_ok h dpi t, ?_, ?_, ?_⟩
  · rw [List.length_map, Tree.walk_eq_visits, Tree.length_visits]
  · apply Tree.forall₂_of_map_some (map_some_styles rules dpi t)
    intro p _ s hs
    simp only [Tree.visitAt?, Option.map_map, Option.map_eq_some_iff, Function.comp_apply] at hs
    obtain ⟨e, hp, rfl⟩ := hs
    refine ⟨hp, ?_⟩
    rw [declarationsFor, hits_map_declarations h, List.append_nil]
    rfl
  · rw [List.forall_mem_map]
    intro v _
    rfl

/-- Plain rules are resolved for every document, with one style for each node. Looking up a property
in a style has an answer, and its length fails exactly if the first number of the last declaration
of the property is physical and the resolution is rounded out of range. If resolving fails, it is
about a part of a compound in the rules that is no descriptor. -/
theorem resolve_total (rules : List Rule) (c : Config) (t : Tree Element) :
    ((∀ r ∈ rules, r.IsPlain) →
      ∃ styles, resolve rules c.dpi t = .ok styles ∧ styles.length = t.size ∧
        List.Forall₂ (IsStyleOf rules t) t.positions styles ∧
        ∀ s ∈ styles, ∀ property,
          (∀ d, s.lookup property = some d ↔ s.Decides property d) ∧
          (s.lookup property = none ↔ ∀ d ∈ s.declarations, d.property ≠ property) ∧
          ∀ x, s.length property = .error x ↔
            (Binary64.wholeOverflow : Int) ≤ c.dpi ∧
              ∃ d l, s.Decides property d ∧ d.HasFirstNumber l ∧ l.isPhysical = true) ∧
    ∀ x, resolve rules c.dpi t = .error x →
      ∃ r ∈ rules, ∃ a ∈ r.alternatives, ∃ parts, .compound parts ∈ a ∧
        ∃ part ∈ parts, part.isDescriptor = false ∧ x = .notADescriptor part := by
  constructor
  · intro h
    obtain ⟨styles, hresolve, hlength, hstyles, hdpi⟩ := exists_forall₂_isStyleOf h c.dpi t
    refine ⟨styles, hresolve, hlength, hstyles, ?_⟩
    intro s hs property
    refine ⟨fun d => ResolvedStyle.lookup_eq_some_iff, ResolvedStyle.lookup_eq_none_iff, ?_⟩
    intro x
    -- the resolution is positive, so it is its own magnitude
    have hrange : Binary64.wholeOverflow ≤ s.dpi.natAbs ↔
        (Binary64.wholeOverflow : Int) ≤ c.dpi := by
      rw [← Int.ofNat_le, hdpi s hs, Int.natAbs_of_nonneg (Int.le_of_lt c.dpi_pos)]
    rw [ResolvedStyle.length_eq_error_iff, hrange]
  · intro x h
    obtain ⟨v, -, hfail⟩ := exists_of_resolve_eq_error h
    exact exists_part_of_hits_eq_error hfail

/-- Every element is an inch wide. -/
def inchRules : List Rule :=
  [⟨[[.compoundOf [.anyElement]]], [.single "width" [.number ⟨Binary64.ofInt 1, .inch⟩]]⟩]

theorem isPlain_inchRules : ∀ r ∈ inchRules, r.IsPlain := by
  simp [inchRules, Rule.IsPlain, Entity.compoundOf, Entity.isDescriptor]

/-- In every context with an element the rule declares an inch. -/
theorem declared_inchRules (p : Profile) (level : List Profile) (outer : Context Profile) :
    declared ((p :: level) :: outer) inchRules =
      [.single "width" [.number ⟨Binary64.ofInt 1, .inch⟩]] := by
  have hmatch : isHit ((p :: level) :: outer) [.compoundOf [.anyElement]] = .ok true := by
    rw [isHit, Context.isMatch_eq_ok_true_iff]
    refine .take _ ?_ (.nil _)
    rw [Profile.describedBy_map_descriptor]
    rfl
  rw [declared, inchRules, List.flatMap_singleton, contributed, List.flatMap_singleton,
    if_pos (applies_eq_true_iff.2 hmatch)]

/-- The first resolution that is rounded out of range. -/
def tallConfig : Config := { dpi := Binary64.wholeOverflow, dpi_pos := by decide +kernel }

/-- The inch has no length at this resolution, and the styles are resolved all the same. -/
theorem resolve_total_tallConfig :
    (∀ r ∈ inchRules, r.IsPlain) ∧
      ∃ s styles, resolve inchRules tallConfig.dpi drawingTree = .ok (s :: styles) ∧
        (s :: styles).length = 4 ∧ s.length "width" = .error .resolutionTooLarge := by
  obtain ⟨styles, hresolve, hlength, hstyles, hlookup⟩ :=
    (resolve_total inchRules tallConfig drawingTree).1 isPlain_inchRules
  have hpositions : drawingTree.positions = [[], [0], [1], [1, 0]] := rfl
  rw [hpositions] at hstyles
  -- the style of the root is the first one
  cases hstyles with
  | @cons _ s _ styles hroot hrest =>
    have hinch : declared (profiles (Context.ofPath (drawingTree.pathTo [] []))) inchRules =
        [.single "width" [.number ⟨Binary64.ofInt 1, .inch⟩]] := declared_inchRules _ _ _
    have hdeclared := hroot.declarations
    rw [declarationsFor, hits_map_declarations isPlain_inchRules, Except.ok.injEq, hinch]
      at hdeclared
    refine ⟨isPlain_inchRules, s, styles, hresolve, hlength, ?_⟩
    rw [(hlookup s List.mem_cons_self "width").2.2]
    refine ⟨Int.le_refl _, .single "width" [.number ⟨Binary64.ofInt 1, .inch⟩],
      ⟨Binary64.ofInt 1, .inch⟩, ?_, ?_, rfl⟩
    · rw [ResolvedStyle.Decides, ← hdeclared]
      exact ⟨[], [], rfl, rfl, List.forall_mem_nil _⟩
    · rw [Declaration.HasFirstNumber, Declaration.terms_single]
      exact ⟨[], [], rfl, List.forall_mem_nil _⟩

end Style

end VectorStyle
