import Mathlib.Data.List.Forall2
import VectorStyle.Proofs.Selector.Derivation

/-!
# Where a match finds its elements

A selector list that matches has a form and an arrangement. Its entries are selectors, and a
compound follows each `>`. Its compounds find elements in the context, each further out than the one
before: `links` are the compounds with the entries in front of them, and a placement gives each link
a level and an offset.

`Placed` is built along the derivation of a match; `IsPlacement` says the same by positions.

Main statements: `exists_eq_entries_links`, the links take a list apart; `Matches.isWellFormed` and
`Matches.exists_placed`, by induction on the derivation; and `isMatch_sound`, what a match says of
the selectors and of the context.
-/

set_option autoImplicit false

namespace VectorStyle

/-! ## Selector lists -/

/-- Whether an entity is `+`. -/
def Entity.isNearby : Entity → Bool
  | .combinator .nearby => true
  | _ => false

/-- Every entry is a selector, and a compound follows each `>`. -/
structure IsWellFormed (selectors : List Entity) : Prop where
  isSelector : ∀ e ∈ selectors, e.isSelector = true
  compound_of_child : ∀ i, selectors[i]? = some (.combinator .child) →
    ∃ parts, selectors[i + 1]? = some (.compound parts)

/-- A compound with the entries between the compound before it, or the start, and itself. -/
structure Link where
  gap : List Entity
  parts : List Entity

/-- The compounds of a selector list in order. Entries after the last one belong to no link. -/
def links : List Entity → List Link
  | [] => []
  | .compound parts :: rest => ⟨[], parts⟩ :: links rest
  | e :: rest => (links rest).modifyHead fun l => ⟨e :: l.gap, l.parts⟩

/-- The entries of a link. -/
def Link.entries (l : Link) : List Entity := l.gap ++ [.compound l.parts]

theorem IsWellFormed.nil : IsWellFormed [] := ⟨by simp, by simp⟩

theorem IsWellFormed.cons {e : Entity} {rest : List Entity} (he : e.isSelector = true)
    (hchild : e = .combinator .child → ∃ parts, rest[0]? = some (.compound parts))
    (h : IsWellFormed rest) : IsWellFormed (e :: rest) := by
  refine ⟨List.forall_mem_cons.2 ⟨he, h.isSelector⟩, ?_⟩
  intro i hi
  cases i with
  | zero =>
    rw [List.getElem?_cons_zero, Option.some.injEq] at hi
    simpa using hchild hi
  | succ i => exact h.compound_of_child i hi

theorem links_cons {e : Entity} {rest : List Entity} (he : ∀ parts, e ≠ .compound parts) :
    links (e :: rest) = (links rest).modifyHead fun l => ⟨e :: l.gap, l.parts⟩ := by
  cases e with
  | compound parts => exact absurd rfl (he parts)
  | _ => rfl

/-- The links and some last entries make up the list, and only the links' own compounds are
compounds. -/
theorem exists_eq_entries_links (selectors : List Entity) :
    ∃ last, selectors = (links selectors).flatMap Link.entries ++ last ∧
      (∀ parts, .compound parts ∉ last) ∧
      ∀ l ∈ links selectors, ∀ parts, .compound parts ∉ l.gap := by
  induction selectors with
  | nil => exact ⟨[], rfl, by simp, by simp [links]⟩
  | cons e rest ih =>
    obtain ⟨last, hrest, hlast, hgap⟩ := ih
    by_cases he : ∃ parts, e = .compound parts
    · obtain ⟨parts, rfl⟩ := he
      refine ⟨last, ?_, hlast, ?_⟩
      · simpa [links, Link.entries] using hrest
      · simpa [links] using hgap
    · have he' : ∀ parts, e ≠ .compound parts := fun parts h => he ⟨parts, h⟩
      have hcons : ∀ l, (∀ parts, .compound parts ∉ l) → ∀ parts, .compound parts ∉ e :: l := by
        intro l hl parts hmem
        rcases List.mem_cons.1 hmem with h | h
        · exact he' parts h.symm
        · exact hl parts h
      rw [links_cons he']
      -- the entry joins the gap of the first link, or the last entries if there is no link
      cases hl : links rest with
      | nil =>
        rw [hl] at hrest
        exact ⟨e :: last, by simpa using hrest, hcons last hlast, by simp⟩
      | cons l ls =>
        rw [hl, List.forall_mem_cons] at hgap
        rw [hl] at hrest
        refine ⟨last, by simpa [Link.entries] using hrest, hlast, ?_⟩
        exact List.forall_mem_cons.2 ⟨hcons l.gap hgap.1, hgap.2⟩

/-- Every compound has its link. -/
theorem exists_link_of_mem {selectors : List Entity} {parts : List Entity}
    (h : .compound parts ∈ selectors) : ∃ l ∈ links selectors, l.parts = parts := by
  obtain ⟨last, heq, hlast, hgap⟩ := exists_eq_entries_links selectors
  rw [heq, List.mem_append, List.mem_flatMap] at h
  rcases h with ⟨l, hl, hmem⟩ | hmem
  · rcases List.mem_append.1 hmem with hmem | hmem
    · exact absurd hmem (hgap l hl parts)
    · exact ⟨l, hl, by simpa [eq_comm] using hmem⟩
  · exact absurd hmem (hlast parts)

/-! ## Placements -/

/-- A level of a context and a position in it. -/
structure Place where
  level : Nat
  offset : Nat
deriving DecidableEq, Repr

namespace Place

/-- The place after a level has been put in front. -/
def outward (p : Place) : Place := ⟨p.level + 1, p.offset⟩

/-- The place after an element has been put in front of the first level. -/
def sideways (p : Place) : Place := if p.level = 0 then ⟨0, p.offset + 1⟩ else p

end Place

namespace Context

/-- The value at a place. -/
def at? {α : Type} (context : Context α) (p : Place) : Option α :=
  context[p.level]?.bind fun level => level[p.offset]?

/-- The element at the place is described by the compound, and it is no more siblings away than the
gap has `+`. -/
structure Stands (context : Context Profile) (l : Link) (p : Place) : Prop where
  described : ∃ e, context.at? p = some e ∧ ∀ d ∈ l.parts, d.describes e = true
  offset_le : p.offset ≤ l.gap.countP Entity.isNearby

/-- Places for links, each further out than the one before. A compound that only `>` separates from
the one before it is placed on the very next level, and so is one that follows a first `>` on the
first. -/
structure IsPlacement (context : Context Profile) (ls : List Link) (places : List Place) :
    Prop where
  stands : List.Forall₂ (Stands context) ls places
  increasing : places.Pairwise fun p q => p.level < q.level
  first_child : ∀ l p, ls[0]? = some l → places[0]? = some p → l.gap = [.combinator .child] →
    p = ⟨0, 0⟩
  next_child : ∀ k l p q, ls[k + 1]? = some l → places[k]? = some p → places[k + 1]? = some q →
    l.gap = [.combinator .child] → q = ⟨p.level + 1, 0⟩

/-- A placement from a level outward: the first link is placed at that level or further out, and
each other one beyond the place of the one before. -/
inductive Placed (context : Context Profile) : Nat → List Link → List Place → Prop where
  | nil (first : Nat) : Placed context first [] []
  | cons {first : Nat} {l : Link} {ls : List Link} {p : Place} {ps : List Place}
      (le : first ≤ p.level) (stands : Stands context l p)
      (child : l.gap = [.combinator .child] → p = ⟨first, 0⟩)
      (rest : Placed context (p.level + 1) ls ps) : Placed context first (l :: ls) (p :: ps)

/-! ## Moving a placement -/

theorem Stands.outward {up : Context Profile} {l : Link} {p : Place} (level : List Profile)
    (h : Stands up l p) : Stands (level :: up) l p.outward := ⟨h.described, h.offset_le⟩

theorem at?_sideways (e : Profile) (near : List Profile) (up : Context Profile) (p : Place) :
    at? ((e :: near) :: up) p.sideways = at? (near :: up) p := by
  obtain ⟨level, offset⟩ := p
  cases level <;> rfl

theorem Stands.sideways {near : List Profile} {up : Context Profile} {l : Link} {p : Place}
    (e : Profile) (h : Stands (near :: up) l p) :
    Stands ((e :: near) :: up) ⟨.combinator .nearby :: l.gap, l.parts⟩ p.sideways := by
  refine ⟨?_, ?_⟩
  · rw [at?_sideways]
    exact h.described
  · have hle := h.offset_le
    have hcount : (Entity.combinator .nearby :: l.gap).countP Entity.isNearby =
        l.gap.countP Entity.isNearby + 1 := List.countP_cons_of_pos rfl
    rw [hcount, Place.sideways]
    split
    · exact Nat.succ_le_succ hle
    · exact Nat.le_succ_of_le hle

/-- A level in front moves a placement one level outward. -/
theorem Placed.outward {up : Context Profile} {first : Nat} {ls : List Link} {ps : List Place}
    (level : List Profile) (h : Placed up first ls ps) :
    Placed (level :: up) (first + 1) ls (ps.map Place.outward) := by
  induction h with
  | nil first => exact .nil _
  | cons le stands child _ ih =>
    refine .cons (Nat.succ_le_succ le) (stands.outward level) ?_ ih
    intro hgap
    rw [child hgap, Place.outward]

/-- A placement that `>` does not hold to its first level is also one from a level further in. -/
theorem Placed.inward {context : Context Profile} {first first' : Nat} {ls : List Link}
    {ps : List Place} (h : Placed context first' ls ps) (hle : first ≤ first')
    (hgap : ∀ l ∈ ls.head?, l.gap ≠ [.combinator .child]) : Placed context first ls ps := by
  cases h with
  | nil => exact .nil first
  | cons le stands child rest =>
    refine .cons (Nat.le_trans hle le) stands ?_ rest
    intro h
    exact absurd h (hgap _ rfl)

/-- A level that a list does not begin to use. -/
theorem Placed.skip {up : Context Profile} {ls : List Link} {ps : List Place}
    (level : List Profile) (h : Placed up 0 ls ps)
    (hgap : ∀ l ∈ ls.head?, l.gap ≠ [.combinator .child]) :
    Placed (level :: up) 0 ls (ps.map Place.outward) :=
  (h.outward level).inward (Nat.zero_le 1) hgap

/-- The element at hand is a place for a link, and what is placed beyond stays where it is. -/
theorem Placed.cons_here {e : Profile} {near : List Profile} {up : Context Profile} {l : Link}
    {ls : List Link} {ps : List Place} (he : e.describedBy l.parts = .ok true)
    (h : Placed up 0 ls ps) :
    Placed ((e :: near) :: up) 0 (l :: ls) (⟨0, 0⟩ :: ps.map Place.outward) := by
  rw [Profile.describedBy_eq_ok_true_iff] at he
  have hstands : Stands ((e :: near) :: up) l ⟨0, 0⟩ := ⟨⟨e, rfl, he⟩, Nat.zero_le _⟩
  exact .cons (Nat.zero_le 0) hstands (fun _ => rfl) (h.outward (e :: near))

/-- A placement depends on the levels from its first one outward only. -/
theorem Placed.congr {context context' : Context Profile} {first : Nat} {ls : List Link}
    {ps : List Place} (h : Placed context first ls ps)
    (heq : ∀ p : Place, first ≤ p.level → context.at? p = context'.at? p) :
    Placed context' first ls ps := by
  induction h with
  | nil first => exact .nil first
  | @cons first l ls p ps le stands child _ ih =>
    refine .cons le ⟨?_, stands.offset_le⟩ child (ih ?_)
    · rw [← heq p le]
      exact stands.described
    · intro q hq
      exact heq q (by omega)

/-- An element in front of the first level moves a placement by one `+`. -/
theorem Placed.sideways {near : List Profile} {up : Context Profile} {ls : List Link}
    {ps : List Place} (e : Profile) (h : Placed (near :: up) 0 ls ps) :
    Placed ((e :: near) :: up) 0
      (ls.modifyHead fun l => ⟨.combinator .nearby :: l.gap, l.parts⟩)
      (ps.modifyHead Place.sideways) := by
  cases h with
  | nil => exact .nil 0
  | @cons _ l ls p ps le stands child rest =>
    have hlevel : p.sideways.level = p.level := by
      rw [Place.sideways]
      split
      · next h => exact h.symm
      · rfl
    refine .cons (Nat.zero_le _) (stands.sideways e) (fun hgap => ?_) ?_
    · simp at hgap
    · rw [hlevel]
      refine rest.congr ?_
      intro q hq
      obtain ⟨level, offset⟩ := q
      -- the other places are on levels further out
      cases level with
      | zero => exact absurd hq (Nat.not_succ_le_zero _)
      | succ level => rfl

/-! ## What a match says -/

/-- A list that matches is well formed. -/
theorem Matches.isWellFormed {context : Context Profile} {selectors : List Entity}
    (h : Matches context selectors) : IsWellFormed selectors := by
  induction h with
  | nil => exact .nil
  | hop e _ ih => exact ih.cons rfl (by simp)
  | @child e up parts rest near he _ ih =>
    exact (ih.cons rfl (by simp)).cons rfl fun _ => ⟨parts, rfl⟩
  | take near he _ ih => exact ih.cons rfl (by simp)
  | pass near he _ ih => exact ih
  | skip hs hlevel _ ih => exact ih

/-- The entry at which a list starts is the first in the gap of its first link. -/
theorem gap_ne_of_ne_child {s : Entity} {rest : List Entity} (hs : s ≠ .combinator .child) :
    ∀ l ∈ (links (s :: rest)).head?, l.gap ≠ [.combinator .child] := by
  intro l hl
  by_cases hcompound : ∃ parts, s = .compound parts
  · obtain ⟨parts, rfl⟩ := hcompound
    obtain rfl : ⟨[], parts⟩ = l := by simpa [links] using hl
    simp
  · rw [links_cons fun parts h => hcompound ⟨parts, h⟩, List.head?_modifyHead] at hl
    obtain ⟨m, -, rfl⟩ := Option.map_eq_some_iff.1 hl
    simp [hs]

/-- A list that matches can be placed. -/
theorem Matches.exists_placed {context : Context Profile} {selectors : List Entity}
    (h : Matches context selectors) : ∃ ps, Placed context 0 (links selectors) ps := by
  induction h with
  | nil => exact ⟨[], .nil 0⟩
  | hop e _ ih =>
    -- the sibling at hand moves, whatever stands on the levels beyond
    obtain ⟨ps, hps⟩ := ih
    exact ⟨_, hps.sideways e⟩
  | child near he _ ih =>
    obtain ⟨ps, hps⟩ := ih
    exact ⟨_, hps.cons_here he⟩
  | take near he _ ih =>
    obtain ⟨ps, hps⟩ := ih
    exact ⟨_, hps.cons_here he⟩
  | @pass e up parts rest near he _ ih =>
    -- the compound is the first entry, so that nothing holds it to the level it leaves
    obtain ⟨ps, hps⟩ := ih
    exact ⟨_, hps.skip (e :: near) (gap_ne_of_ne_child (by simp))⟩
  | @skip level up s rest hs hlevel _ ih =>
    obtain ⟨ps, hps⟩ := ih
    exact ⟨_, hps.skip level (gap_ne_of_ne_child hs)⟩

/-- The links of a placement stand at their places. -/
theorem Placed.forall₂_stands {context : Context Profile} {first : Nat} {ls : List Link}
    {ps : List Place} (h : Placed context first ls ps) :
    List.Forall₂ (Stands context) ls ps := by
  induction h with
  | nil => exact .nil
  | cons le stands child _ ih => exact .cons stands ih

/-- No place of a placement is further in than its first level. -/
theorem Placed.le_level {context : Context Profile} {first : Nat} {ls : List Link}
    {ps : List Place} (h : Placed context first ls ps) : ∀ p ∈ ps, first ≤ p.level := by
  induction h with
  | nil => simp
  | cons le stands child _ ih =>
    refine List.forall_mem_cons.2 ⟨le, ?_⟩
    intro q hq
    have hlt := ih q hq
    omega

/-- Each place of a placement is further out than the ones before. -/
theorem Placed.increasing {context : Context Profile} {first : Nat} {ls : List Link}
    {ps : List Place} (h : Placed context first ls ps) :
    ps.Pairwise fun p q => p.level < q.level := by
  induction h with
  | nil => exact .nil
  | cons le stands child rest ih => exact .cons rest.le_level ih

/-- A link held by `>` alone is placed right after the link before it. -/
theorem Placed.next_child {context : Context Profile} {first : Nat} {ls : List Link}
    {ps : List Place} (h : Placed context first ls ps) : ∀ k l p q, ls[k + 1]? = some l →
      ps[k]? = some p → ps[k + 1]? = some q → l.gap = [.combinator .child] →
        q = ⟨p.level + 1, 0⟩ := by
  induction h with
  | nil => simp
  | cons le stands child rest ih =>
    intro k l p q hl hp hq hgap
    cases k with
    | succ k => exact ih k l p q hl hp hq hgap
    | zero =>
      obtain rfl := Option.some.inj hp
      -- the link is the first one of the rest
      cases rest with
      | nil => cases hl
      | cons _ _ hchild _ =>
        obtain rfl := Option.some.inj hl
        obtain rfl := Option.some.inj hq
        exact hchild hgap

/-- A placement from the first level outward, said by positions. -/
theorem Placed.isPlacement {context : Context Profile} {ls : List Link} {ps : List Place}
    (h : Placed context 0 ls ps) : IsPlacement context ls ps := by
  refine ⟨h.forall₂_stands, h.increasing, ?_, h.next_child⟩
  intro l p hl hp hgap
  cases h with
  | nil => cases hl
  | cons le stands child rest =>
    obtain rfl := Option.some.inj hl
    obtain rfl := Option.some.inj hp
    exact child hgap

/-- No compound of a placement has a pseudo class. -/
theorem IsPlacement.ofPseudoClass_notMem {context : Context Profile} {ls : List Link}
    {ps : List Place} (h : IsPlacement context ls ps) :
    ∀ l ∈ ls, ∀ name, .descriptor (.ofPseudoClass name) ∉ l.parts := by
  have hstands := h.stands
  clear h
  induction hstands with
  | nil => simp
  | cons hs _ ih =>
    refine List.forall_mem_cons.2 ⟨?_, ih⟩
    intro name hmem
    -- no element has a pseudo class, so none would be described
    obtain ⟨e, -, he⟩ := hs.described
    cases he _ hmem

/-- A selector list that matches is well formed, has no pseudo class in a compound, and its
compounds can be placed. -/
theorem isMatch_sound {context : Context Profile} {selectors : List Entity}
    (h : isMatch context selectors = .ok true) :
    IsWellFormed selectors ∧
      (∀ parts, .compound parts ∈ selectors → ∀ name, .descriptor (.ofPseudoClass name) ∉ parts) ∧
      ∃ places, IsPlacement context (links selectors) places := by
  rw [isMatch_eq_ok_true_iff] at h
  obtain ⟨ps, hps⟩ := h.exists_placed
  have hplacement := hps.isPlacement
  refine ⟨h.isWellFormed, ?_, ps, hplacement⟩
  intro parts hmem
  obtain ⟨l, hl, rfl⟩ := exists_link_of_mem hmem
  exact hplacement.ofPseudoClass_notMem l hl

/-- A circle in a group that stands beside a rectangle in a drawing. -/
def drawing : Context Profile :=
  let named (name : String) : Profile := ⟨name, none, [], fun _ => none⟩
  [[named "circle"], [named "g", named "rect"], [named "svg"]]

/-- The circle, the rectangle beside its parent, and the drawing that both are in. -/
def drawingSelectors : List Entity :=
  [.compoundOf [.ofName "circle"], .combinator .nearby, .compoundOf [.ofName "rect"],
    .combinator .child, .compoundOf [.ofName "svg"]]

theorem isMatch_sound_drawing :
    isMatch drawing drawingSelectors = .ok true ∧ IsWellFormed drawingSelectors ∧
      (∀ parts, .compound parts ∈ drawingSelectors →
        ∀ name, .descriptor (.ofPseudoClass name) ∉ parts) ∧
      ∃ places, IsPlacement drawing (links drawingSelectors) places := by
  have h : isMatch drawing drawingSelectors = .ok true := by
    rw [isMatch_eq_ok_true_iff]
    refine .take _ ?_ (.hop _ (.take _ ?_ (.child _ ?_ (.nil _)))) <;>
      rw [Profile.describedBy_map_descriptor] <;> rfl
  exact ⟨h, isMatch_sound h⟩

end Context

end VectorStyle
