import VectorStyle.Selector.Matching

/-!
# Which declarations a context gets

A rule is hit once for each of its alternatives that matches, and every hit contributes all
declarations of the rule. Hits come in the order of the rules, then of the alternatives.
Alternatives are written ancestor first, so they are reversed for matching.

Main statement: `ruleHits_eq_of_matches`, the hits of a rule whose alternatives all can be tested.
-/

set_option autoImplicit false

namespace VectorStyle

/-- An alternative that matched, and what its rule declares. -/
structure Hit where
  alternative : List Entity
  declarations : List Declaration

namespace Style

/-- Whether an alternative, written ancestor first, matches a context. -/
def isHit (context : Context Profile) (alternative : List Entity) : Except MatchError Bool :=
  context.isMatch alternative.reverse

/-- The alternatives that match, in order. -/
def matching (context : Context Profile) :
    List (List Entity) → Except MatchError (List (List Entity))
  | [] => .ok []
  | a :: as => do
    if ← isHit context a then return a :: (← matching context as)
    else matching context as

/-- The hits of one rule. -/
def ruleHits (context : Context Profile) (r : Rule) : Except MatchError (List Hit) :=
  (matching context r.alternatives).map fun as => as.map fun a => ⟨a, r.declarations⟩

/-- The hits of a list of rules. -/
def hits (context : Context Profile) : List Rule → Except MatchError (List Hit)
  | [] => .ok []
  | r :: rs => return (← ruleHits context r) ++ (← hits context rs)

/-- The declarations of the hits, in order. -/
def declarations (hits : List Hit) : List Declaration := hits.flatMap Hit.declarations

theorem ruleHits_eq_of_matches (context : Context Profile) (r : Rule)
    (matched : List Entity → Bool) (h : ∀ a ∈ r.alternatives, isHit context a = .ok (matched a)) :
    ruleHits context r =
      .ok ((r.alternatives.filter matched).map fun a => ⟨a, r.declarations⟩) := by
  have all (as : List (List Entity)) (h : ∀ a ∈ as, isHit context a = .ok (matched a)) :
      matching context as = .ok (as.filter matched) := by
    induction as with
    | nil => rfl
    | cons a as ih =>
      rw [matching, h a List.mem_cons_self, ih fun b hb => h b (List.mem_cons_of_mem a hb)]
      cases hm : matched a <;> simp [hm, bind, Except.bind, pure, Except.pure]
  rw [ruleHits, all r.alternatives h]
  rfl

end Style

end VectorStyle
