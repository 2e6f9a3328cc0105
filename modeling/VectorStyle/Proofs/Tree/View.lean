import VectorStyle.Proofs.Tree.DocumentOrder

/-!
# What is in view of a position

The way to a position shows the nodes on it, and the siblings before each of them. These are in view
of the position. Everything else is out of view: what is below the position, the siblings after a
node on the way with all below them, and what is below the siblings before one.

Main statements: `outOfView_iff`, a position is out of view exactly if it is not in view; and
`map_pathTo_of_inView`, two trees that agree in view of a position have the same way to it.
-/

set_option autoImplicit false

namespace VectorStyle

/-- The step with a function applied to its values. -/
def PathStep.map {α β : Type} (f : α → β) (s : PathStep α) : PathStep β :=
  ⟨f s.element, s.preceding.map f⟩

namespace Tree

variable {α β : Type}

/-! ## In view and out of view -/

/-- The second position is on the way from the root to the first one, or that of a sibling before a
node on this way. -/
def InView (p q : List Nat) : Prop := q = [] ∨ ∃ r i j, r ++ [i] <+: p ∧ j ≤ i ∧ q = r ++ [j]

/-- The second position is below the first one, at or below a sibling after a node on the way to it,
or below a sibling before such a node. -/
def OutOfView (p q : List Nat) : Prop :=
  (∃ s, s ≠ [] ∧ q = p ++ s) ∨
    ∃ r i j s, r ++ [i] <+: p ∧ q = r ++ j :: s ∧ (i < j ∨ j < i ∧ s ≠ [])

theorem inView_nil_iff {q : List Nat} : InView [] q ↔ q = [] := by
  constructor
  · rintro (rfl | ⟨r, i, j, hinit, -, -⟩)
    · rfl
    · simp at hinit
  · rintro rfl
    exact Or.inl rfl

theorem inView_cons_iff {i j : Nat} {p q : List Nat} :
    InView (i :: p) (j :: q) ↔ (j ≤ i ∧ q = []) ∨ (j = i ∧ InView p q) := by
  constructor
  · rintro (hq | ⟨r, k, l, hinit, hl, hq⟩)
    · cases hq
    · cases r with
      | nil =>
        cases hq
        obtain rfl : k = i := by simpa using hinit
        exact Or.inl ⟨hl, rfl⟩
      | cons m r =>
        cases hq
        rw [List.cons_append, List.cons_prefix_cons] at hinit
        exact Or.inr ⟨hinit.1, Or.inr ⟨r, k, l, hinit.2, hl, rfl⟩⟩
  · rintro (⟨hj, rfl⟩ | ⟨rfl, rfl | ⟨r, k, l, hinit, hl, rfl⟩⟩)
    · exact Or.inr ⟨[], i, j, by simp, hj, rfl⟩
    · exact Or.inr ⟨[], j, j, by simp, Nat.le_refl j, rfl⟩
    · refine Or.inr ⟨j :: r, k, l, ?_, hl, rfl⟩
      rw [List.cons_append, List.cons_prefix_cons]
      exact ⟨rfl, hinit⟩

theorem outOfView_nil_iff {q : List Nat} : OutOfView [] q ↔ q ≠ [] := by
  constructor
  · rintro (⟨s, hs, rfl⟩ | ⟨r, i, j, s, hinit, -, -⟩)
    · exact hs
    · simp at hinit
  · intro hq
    exact Or.inl ⟨q, hq, rfl⟩

theorem not_outOfView_cons_nil {i : Nat} {p : List Nat} : ¬ OutOfView (i :: p) [] := by
  rintro (⟨s, -, hs⟩ | ⟨r, k, l, s, -, hs, -⟩)
  · cases hs
  · cases r <;> cases hs

theorem outOfView_cons_iff {i j : Nat} {p q : List Nat} :
    OutOfView (i :: p) (j :: q) ↔ (i < j ∨ j < i ∧ q ≠ []) ∨ (j = i ∧ OutOfView p q) := by
  constructor
  · rintro (⟨s, hs, hq⟩ | ⟨r, k, l, s, hinit, hq, hside⟩)
    · cases hq
      exact Or.inr ⟨rfl, Or.inl ⟨s, hs, rfl⟩⟩
    · cases r with
      | nil =>
        cases hq
        obtain rfl : k = i := by simpa using hinit
        exact Or.inl hside
      | cons m r =>
        cases hq
        rw [List.cons_append, List.cons_prefix_cons] at hinit
        exact Or.inr ⟨hinit.1, Or.inr ⟨r, k, l, s, hinit.2, rfl, hside⟩⟩
  · rintro (hside | ⟨rfl, ⟨s, hs, rfl⟩ | ⟨r, k, l, s, hinit, rfl, hside⟩⟩)
    · exact Or.inr ⟨[], i, j, q, by simp, rfl, hside⟩
    · exact Or.inl ⟨s, hs, rfl⟩
    · refine Or.inr ⟨j :: r, k, l, s, ?_, rfl, hside⟩
      rw [List.cons_append, List.cons_prefix_cons]
      exact ⟨rfl, hinit⟩

/-- Out of view is what is not in view. -/
theorem outOfView_iff {p q : List Nat} : OutOfView p q ↔ ¬ InView p q := by
  induction p generalizing q with
  | nil => rw [outOfView_nil_iff, inView_nil_iff]
  | cons i p ih =>
    cases q with
    | nil => exact iff_of_false not_outOfView_cons_nil (fun h => h (Or.inl rfl))
    | cons j q =>
      rw [outOfView_cons_iff, inView_cons_iff, ih]
      -- the first indices decide, and where they are equal the rest does
      rcases Nat.lt_trichotomy j i with hlt | rfl | hgt
      · have hle := Nat.le_of_lt hlt
        have hne := Nat.ne_of_lt hlt
        simp [hlt, hle, hne, Nat.not_lt.2 hle]
      · have hroot : q = [] → InView p q := fun hq => Or.inl hq
        simp only [Nat.lt_irrefl, false_and, or_self, Nat.le_refl, true_and, false_or]
        tauto
      · have hne := Nat.ne_of_gt hgt
        simp [hgt, hne, Nat.not_le.2 hgt]

/-! ## Ways in two trees -/

/-- The values of the children before an index, where they agree in view. -/
theorem map_take_children {f : α → β} {t t' c c' : Tree α} {i : Nat}
    (hc : t.children[i]? = some c) (hc' : t'.children[i]? = some c')
    (h : ∀ j < i, ∀ a a', t.value? [j] = some a → t'.value? [j] = some a' → f a = f a') :
    ((t.children.take i).map value).map f = ((t'.children.take i).map value).map f := by
  have hi := (List.getElem?_eq_some_iff.1 hc).1
  have hi' := (List.getElem?_eq_some_iff.1 hc').1
  apply List.ext_getElem
  · simp only [List.length_map, List.length_take]
    omega
  · intro j hj _
    have hlt : j < i := by
      simp only [List.length_map, List.length_take] at hj
      omega
    have hchild := List.getElem?_eq_getElem (Nat.lt_trans hlt hi)
    have hchild' := List.getElem?_eq_getElem (Nat.lt_trans hlt hi')
    simp only [List.getElem_map, List.getElem_take]
    exact h j hlt _ _ (value?_cons [] hchild) (value?_cons [] hchild')

/-- The ways to a position in two trees agree where what is in view does. -/
theorem map_pathTo_of_inView {f : α → β} {t t' : Tree α} {p : List Nat}
    {preceding preceding' : List α} (hp : (t.subtree? p).isSome = true)
    (hp' : (t'.subtree? p).isSome = true)
    (hpreceding : preceding.map f = preceding'.map f)
    (h : ∀ q a a', InView p q → t.value? q = some a → t'.value? q = some a' → f a = f a') :
    (t.pathTo preceding p).map (PathStep.map f) =
      (t'.pathTo preceding' p).map (PathStep.map f) := by
  have hroot : f t.value = f t'.value := h [] _ _ (Or.inl rfl) rfl rfl
  induction p generalizing t t' preceding preceding' with
  | nil => simp [pathTo, PathStep.map, hroot, hpreceding]
  | cons i p ih =>
    rw [subtree?, Option.isSome_bind] at hp hp'
    cases hc : t.children[i]? with
    | none => simp [hc] at hp
    | some c =>
      cases hc' : t'.children[i]? with
      | none => simp [hc'] at hp'
      | some c' =>
        rw [hc] at hp
        rw [hc'] at hp'
        have hsiblings := map_take_children hc hc' fun j hj a a' =>
          h [j] a a' (inView_cons_iff.2 (Or.inl ⟨Nat.le_of_lt hj, rfl⟩))
        have hbelow : ∀ q a a', InView p q → c.value? q = some a → c'.value? q = some a' →
            f a = f a' := by
          intro q a a' hq ha ha'
          rw [← value?_cons q hc] at ha
          rw [← value?_cons q hc'] at ha'
          exact h (i :: q) a a' (inView_cons_iff.2 (Or.inr ⟨rfl, hq⟩)) ha ha'
        have hrest := ih hp hp' hsiblings hbelow (hbelow [] _ _ (Or.inl rfl) rfl rfl)
        rw [pathTo, pathTo, hc, hc', List.map_cons, List.map_cons, hrest, PathStep.map,
          PathStep.map, hroot, hpreceding]

/-! ## Ancestors -/

/-- A position has as many ancestors as it has indices. -/
theorem isSome_ancestor? {t : Tree α} {p : List Nat} (h : (t.subtree? p).isSome = true) (j : Nat) :
    (t.ancestor? p j).isSome = decide (j ≤ p.length) := by
  rw [ancestor?]
  split
  case isTrue hj => rw [isSome_value?, isSome_subtree?_take h, decide_eq_true hj]
  case isFalse hj => rw [decide_eq_false hj, Option.isSome_none]

end Tree

end VectorStyle
