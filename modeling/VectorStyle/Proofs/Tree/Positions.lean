import Mathlib.Data.List.Infix
import VectorStyle.Tree.Walk

/-!
# Positions in a tree

A node is told from others by its position, the child indices on the way from the root to it; equal
values may stand at many positions. `Tree.positions` lists the positions in document order,
`Tree.pathTo` is the way to a position with the preceding siblings of each node on it, and
`Tree.ancestor?` counts levels from a position towards the root.

The way can be read off the position, too: `Tree.step?` is a value with the siblings before it, and
the steps at the initial parts of a position are the way to it.

Main statements: `mem_positions_iff`, exactly the positions of nodes are listed; `map_some_walk`,
the walk visits the nodes in the order of the positions, each with the context of its path;
`map_some_pathTo`, the way by the steps at the initial parts of a position;
`element?_ofPath_pathTo`, the levels of its context start with the ancestors; and
`exists_pathTo_append`, the ways through one node.
-/

set_option autoImplicit false

namespace VectorStyle

namespace Tree

variable {α : Type}

/-- The tree below a position. -/
def subtree? (t : Tree α) : List Nat → Option (Tree α)
  | [] => some t
  | i :: p => t.children[i]?.bind fun c => c.subtree? p

/-- The value at a position. -/
def value? (t : Tree α) (p : List Nat) : Option α := (t.subtree? p).map value

/-- The value a number of levels above a position, which itself is at level zero. -/
def ancestor? (t : Tree α) (p : List Nat) (j : Nat) : Option α :=
  if j ≤ p.length then t.value? (p.take (p.length - j)) else none

mutual

/-- The positions of the nodes in document order. -/
def positions : Tree α → List (List Nat)
  | node _ ts => [] :: positionsAll 0 ts

/-- The positions in trees that are the children from an index on. -/
def positionsAll (i : Nat) : List (Tree α) → List (List Nat)
  | [] => []
  | t :: ts => t.positions.map (i :: ·) ++ positionsAll (i + 1) ts

end

/-- The way from a root with some preceding siblings to a position. -/
def pathTo (preceding : List α) (t : Tree α) : List Nat → List (PathStep α)
  | [] => [⟨t.value, preceding⟩]
  | i :: p => ⟨t.value, preceding⟩ :: match t.children[i]? with
    | none => []
    | some c => c.pathTo ((t.children.take i).map value) p

/-- The visit at a position, for a root with some preceding siblings and outer levels. -/
def visitAt? (preceding : List α) (outer : Context α) (t : Tree α) (p : List Nat) :
    Option (Visit α) :=
  (t.value? p).map fun v => ⟨v, Context.ofPath (t.pathTo preceding p) ++ outer⟩

/-- The walk visits the node at the position with the value and the context of the visit. -/
def VisitedAt (t : Tree α) (p : List Nat) (v : Visit α) : Prop := (p, v) ∈ t.positions.zip t.walk

/-! ## Descending -/

theorem value?_cons {t c : Tree α} {i : Nat} (p : List Nat) (h : t.children[i]? = some c) :
    t.value? (i :: p) = c.value? p := by
  rw [value?, subtree?, h]
  rfl

theorem isSome_value? (t : Tree α) (p : List Nat) :
    (t.value? p).isSome = (t.subtree? p).isSome := Option.isSome_map

theorem isSome_subtree?_of_value? {t : Tree α} {p : List Nat} {a : α} (h : t.value? p = some a) :
    (t.subtree? p).isSome = true := by
  rw [← isSome_value?, h, Option.isSome_some]

/-- Below the root, a visit is one in a child. -/
theorem visitAt?_cons {t c : Tree α} {i : Nat} (preceding : List α) (outer : Context α)
    (p : List Nat) (h : t.children[i]? = some c) :
    t.visitAt? preceding outer (i :: p) =
      c.visitAt? ((t.children.take i).map value)
        (PathStep.level ⟨t.value, preceding⟩ :: outer) p := by
  rw [visitAt?, value?_cons p h, visitAt?, pathTo, h]
  simp [Context.ofPath]

mutual

/-- Exactly the positions of nodes are listed. -/
theorem mem_positions_iff : ∀ (t : Tree α) (p : List Nat),
    p ∈ t.positions ↔ (t.subtree? p).isSome = true
  | node v ts, [] => by simp [positions, subtree?]
  | node v ts, i :: p => by
    rw [positions, List.mem_cons, mem_positionsAll_iff 0 ts]
    simp only [Nat.zero_add, reduceCtorEq, false_or, List.cons.injEq]
    constructor
    · rintro ⟨k, q, ⟨rfl, rfl⟩, h⟩
      exact h
    · intro h
      exact ⟨i, p, ⟨rfl, rfl⟩, h⟩

theorem mem_positionsAll_iff : ∀ (i : Nat) (ts : List (Tree α)) (p : List Nat),
    p ∈ positionsAll i ts ↔
      ∃ k q, p = (i + k) :: q ∧ (ts[k]?.bind fun c => c.subtree? q).isSome = true
  | i, [], p => by simp [positionsAll]
  | i, t :: ts, p => by
    rw [positionsAll, List.mem_append, List.mem_map, mem_positionsAll_iff (i + 1) ts]
    constructor
    · rintro (⟨q, hq, rfl⟩ | ⟨k, q, rfl, hq⟩)
      · exact ⟨0, q, rfl, (mem_positions_iff t q).1 hq⟩
      · exact ⟨k + 1, q, by rw [Nat.add_assoc, Nat.add_comm 1 k], hq⟩
    · rintro ⟨k, q, rfl, hq⟩
      cases k with
      | zero => exact Or.inl ⟨q, (mem_positions_iff t q).2 hq, rfl⟩
      | succ k => exact Or.inr ⟨k, q, by rw [Nat.add_assoc, Nat.add_comm 1 k], hq⟩

end

mutual

/-- A tree is visited in the order of its positions. -/
theorem map_some_visits (preceding : List α) (outer : Context α) : ∀ t : Tree α,
    (t.visits preceding outer).map some = t.positions.map (t.visitAt? preceding outer)
  | node v ts => by
    rw [visits, positions, List.map_cons, List.map_cons]
    congr 1
    exact map_some_visitsAll v preceding outer [] ts

/-- The children after some visited ones are visited in the order of their positions. -/
theorem map_some_visitsAll (v : α) (preceding : List α) (outer : Context α)
    (done : List (Tree α)) : ∀ ts : List (Tree α),
    (visitsAll (done.map value) (PathStep.level ⟨v, preceding⟩ :: outer) ts).map some =
      (positionsAll done.length ts).map ((node v (done ++ ts)).visitAt? preceding outer)
  | [] => rfl
  | t :: ts => by
    -- the child at hand has as many siblings before it as are done
    have hget : (node v (done ++ t :: ts)).children[done.length]? = some t := by
      simp [children]
    have hrest := map_some_visitsAll v preceding outer (done ++ [t]) ts
    rw [visitsAll, positionsAll, List.map_append, List.map_append, List.map_map,
      map_some_visits (done.map value)]
    congr 1
    · apply List.map_congr_left
      intro p _
      rw [Function.comp_apply, visitAt?_cons preceding outer p hget]
      simp [children, value]
    · simpa using hrest

end

/-! ## The walk -/

theorem map_some_walk (t : Tree α) : t.walk.map some = t.positions.map (t.visitAt? [] []) := by
  rw [walk_eq_visits, map_some_visits]

theorem mem_zip_iff_of_map_some {β : Type} {f : α → Option β} {as : List α} {bs : List β}
    (h : bs.map some = as.map f) {a : α} {b : β} : (a, b) ∈ as.zip bs ↔ a ∈ as ∧ f a = some b := by
  induction as generalizing bs with
  | nil => simp
  | cons a' as ih =>
    cases bs with
    | nil => simp at h
    | cons b' bs =>
      rw [List.map_cons, List.map_cons, List.cons.injEq] at h
      obtain ⟨hhead, htail⟩ := h
      rw [List.zip_cons_cons, List.mem_cons, List.mem_cons, ih htail, Prod.mk.injEq]
      constructor
      · rintro (⟨rfl, rfl⟩ | ⟨ha, hb⟩)
        · exact ⟨Or.inl rfl, hhead.symm⟩
        · exact ⟨Or.inr ha, hb⟩
      · rintro ⟨rfl | ha, hb⟩
        · rw [← hhead, Option.some.injEq] at hb
          exact Or.inl ⟨rfl, hb.symm⟩
        · exact Or.inr ⟨ha, hb⟩

/-- The walk visits the node at a position with its value and the context of its path, and with
nothing else. -/
theorem visitedAt_iff {t : Tree α} {p : List Nat} {v : Visit α} :
    t.VisitedAt p v ↔ t.value? p = some v.value ∧ v.context = Context.ofPath (t.pathTo [] p) := by
  obtain ⟨x, context⟩ := v
  rw [VisitedAt, mem_zip_iff_of_map_some (map_some_walk t), mem_positions_iff, visitAt?, value?]
  cases t.subtree? p with
  | none => simp
  | some s => simp [eq_comm]

theorem visitedAt_iff_eq {t : Tree α} {p : List Nat} {a : α} (hp : t.value? p = some a)
    (v : Visit α) : t.VisitedAt p v ↔ v = ⟨a, Context.ofPath (t.pathTo [] p)⟩ := by
  obtain ⟨x, context⟩ := v
  rw [visitedAt_iff, hp, Visit.mk.injEq, Option.some.injEq, eq_comm]

/-- Each position is visited with one context. -/
theorem context_eq_of_visitedAt_iff {t : Tree α} {p : List Nat} {a : α}
    {context context' : Context α} (h : ∀ v, t.VisitedAt p v ↔ v = ⟨a, context⟩)
    (h' : ∀ v, t.VisitedAt p v ↔ v = ⟨a, context'⟩) : context' = context := by
  have hvisit := (h' ⟨a, context'⟩).2 rfl
  rw [h] at hvisit
  exact congrArg Visit.context hvisit

/-! ## The way to a position -/

/-- The values of the siblings before a position, in order. The root has no siblings. -/
def siblingsBefore (t : Tree α) (p : List Nat) : List α :=
  match p.getLast?, t.subtree? p.dropLast with
  | some i, some parent => (parent.children.take i).map value
  | _, _ => []

/-- The value at a position with the siblings before it. -/
def step? (t : Tree α) (p : List Nat) : Option (PathStep α) :=
  (t.value? p).map fun v => ⟨v, t.siblingsBefore p⟩

theorem siblingsBefore_cons {t c : Tree α} {i : Nat} {p : List Nat} (hp : p ≠ [])
    (hc : t.children[i]? = some c) : t.siblingsBefore (i :: p) = c.siblingsBefore p := by
  obtain ⟨j, p, rfl⟩ := List.exists_cons_of_ne_nil hp
  rw [siblingsBefore, List.getLast?_cons_cons, List.dropLast_cons_cons, subtree?, hc]
  rfl

/-- The value of the sibling right before a position. The first child has none, nor has the root. -/
def siblingBefore? (t : Tree α) (p : List Nat) : Option α :=
  match p.getLast? with
  | some (i + 1) => t.value? (p.dropLast ++ [i])
  | _ => none

/-- Further down than the children, a step is one in a child. -/
theorem step?_cons {t c : Tree α} {i : Nat} {p : List Nat} (hp : p ≠ [])
    (hc : t.children[i]? = some c) : t.step? (i :: p) = c.step? p := by
  rw [step?, step?, value?_cons p hc, siblingsBefore_cons hp hc]

/-- The step at a child. -/
theorem step?_singleton {t c : Tree α} {i : Nat} (hc : t.children[i]? = some c) :
    t.step? [i] = some ⟨c.value, (t.children.take i).map value⟩ := by
  rw [step?, value?_cons [] hc]
  rfl

/-- The way to a position takes the steps at its initial parts, after the first one at the root. -/
theorem map_some_pathTo_eq_cons (preceding : List α) {t : Tree α} {p : List Nat}
    (h : (t.subtree? p).isSome = true) :
    (t.pathTo preceding p).map some =
      some ⟨t.value, preceding⟩ :: p.inits.tail.map t.step? := by
  induction p generalizing t preceding with
  | nil => rfl
  | cons i p ih =>
    cases hc : t.children[i]? with
    | none => simp [subtree?, hc] at h
    | some c =>
      rw [subtree?, hc] at h
      -- the rest is the way in the child, whose first step is the second of the whole
      have hrest := ih ((t.children.take i).map value) h
      have hinits : p.inits = [] :: p.inits.tail := by cases p <;> simp
      have hbelow : ∀ q ∈ p.inits.tail, t.step? (i :: q) = c.step? q := by
        intro q hq
        have hne : q ≠ [] := by
          rintro rfl
          cases p <;> simp at hq
        exact step?_cons hne hc
      rw [pathTo, hc, List.map_cons, hrest, List.inits_cons, List.tail_cons, List.map_map, hinits,
        List.map_cons, List.tail_cons, Function.comp_apply, step?_singleton hc]
      congr 2
      exact (List.map_congr_left hbelow).symm

/-- The way to a position takes the steps at its initial parts. -/
theorem map_some_pathTo {t : Tree α} {p : List Nat} (h : (t.subtree? p).isSome = true) :
    (t.pathTo [] p).map some = p.inits.map t.step? := by
  have hroot : t.step? [] = some ⟨t.value, []⟩ := rfl
  have hinits : p.inits = [] :: p.inits.tail := by cases p <;> simp
  rw [map_some_pathTo_eq_cons [] h, hinits, List.map_cons, List.tail_cons, hroot]

theorem length_pathTo (preceding : List α) {t : Tree α} {p : List Nat}
    (h : (t.subtree? p).isSome = true) : (t.pathTo preceding p).length = p.length + 1 := by
  have hlength := congrArg List.length (map_some_pathTo_eq_cons preceding h)
  simpa using hlength

/-- The step of the way at an initial part. -/
theorem getElem?_pathTo {t : Tree α} {p : List Nat} (h : (t.subtree? p).isSome = true)
    {k : Nat} (hk : k ≤ p.length) : (t.pathTo [] p)[k]? = t.step? (p.take k) := by
  have hinits : k < p.inits.length := by
    rw [List.length_inits]
    omega
  have hstep := congrArg (·[k]?) (map_some_pathTo h)
  rw [List.getElem?_map, List.getElem?_map, List.getElem?_eq_getElem hinits, List.getElem_inits]
    at hstep
  cases hpath : (t.pathTo [] p)[k]? with
  | none => simp [hpath] at hstep
  | some s => simpa [hpath] using hstep

/-! ## Ancestors -/

theorem ancestor?_zero (t : Tree α) (p : List Nat) : t.ancestor? p 0 = t.value? p := by
  rw [ancestor?, if_pos (Nat.zero_le _), Nat.sub_zero, List.take_length]

/-- The levels of the context at a position, from the position towards the root. -/
theorem getElem?_ofPath_pathTo {t : Tree α} {p : List Nat} (h : (t.subtree? p).isSome = true)
    {j : Nat} (hj : j ≤ p.length) :
    (Context.ofPath (t.pathTo [] p))[j]? =
      (t.step? (p.take (p.length - j))).map PathStep.level := by
  have hlength := length_pathTo [] h
  rw [Context.ofPath, List.getElem?_reverse (by rw [List.length_map]; omega), List.length_map,
    hlength, List.getElem?_map, ← getElem?_pathTo h (Nat.sub_le _ _)]
  rfl

/-- The levels of the context at a position start with the ancestors. -/
theorem element?_ofPath_pathTo {t : Tree α} {p : List Nat} (h : (t.subtree? p).isSome = true)
    (j : Nat) : (Context.ofPath (t.pathTo [] p)).element? j = t.ancestor? p j := by
  by_cases hj : j ≤ p.length
  case pos =>
    rw [Context.element?, getElem?_ofPath_pathTo h hj, ancestor?, if_pos hj, step?]
    cases t.value? (p.take (p.length - j)) <;> rfl
  case neg =>
    -- there are no more levels than the position has initial parts
    have hlength := (Context.length_ofPath (t.pathTo [] p)).1
    rw [length_pathTo [] h] at hlength
    rw [Context.element?, List.getElem?_eq_none (by omega), ancestor?, if_neg hj]
    rfl

/-! ## Ways through a node -/

/-- Below a position, positions are those of the tree there. -/
theorem subtree?_append (t : Tree α) (p q : List Nat) :
    t.subtree? (p ++ q) = (t.subtree? p).bind fun u => u.subtree? q := by
  induction p generalizing t with
  | nil => rfl
  | cons i p ih =>
    rw [List.cons_append, subtree?, subtree?]
    cases t.children[i]? with
    | none => rfl
    | some c => exact ih c

theorem value?_append {t u : Tree α} {p : List Nat} (h : t.subtree? p = some u) (q : List Nat) :
    t.value? (p ++ q) = u.value? q := by
  rw [value?, subtree?_append, h]
  rfl

/-- The sibling right before a position is the last one of those before it. -/
theorem getLast?_siblingsBefore {t : Tree α} {p : List Nat} (h : (t.subtree? p).isSome = true) :
    (t.siblingsBefore p).getLast? = t.siblingBefore? p := by
  rcases List.eq_nil_or_concat' p with rfl | ⟨q, i, rfl⟩
  · rfl
  · rw [subtree?_append] at h
    cases hq : t.subtree? q with
    | none => simp [hq] at h
    | some parent =>
      cases i with
      | zero => simp [siblingsBefore, siblingBefore?, hq]
      | succ i =>
        -- the child before is there, since the one at hand is
        have hi : i < parent.children.length := by
          rw [hq, Option.bind_some, subtree?] at h
          cases hc : parent.children[i + 1]? with
          | none => simp [hc] at h
          | some c => exact Nat.lt_of_succ_lt (List.getElem?_eq_some_iff.1 hc).1
        have hvalue : parent.value? [i] = some parent.children[i].value :=
          value?_cons [] (List.getElem?_eq_getElem hi)
        simp [siblingsBefore, siblingBefore?, hq, value?_append hq, hvalue, List.getLast?_take, hi]

/-- A way through a node is a way to the node's parent and then one in the tree below the node,
whose root has some preceding siblings. -/
theorem exists_pathTo_append (preceding : List α) {t u : Tree α} {p : List Nat}
    (h : t.subtree? p = some u) :
    ∃ before preceding', ∀ q, t.pathTo preceding (p ++ q) = before ++ u.pathTo preceding' q := by
  induction p generalizing t preceding with
  | nil =>
    obtain rfl := Option.some.inj h
    exact ⟨[], preceding, fun q => rfl⟩
  | cons i p ih =>
    cases hc : t.children[i]? with
    | none => simp [subtree?, hc] at h
    | some c =>
      rw [subtree?, hc] at h
      obtain ⟨before, preceding', hpath⟩ := ih ((t.children.take i).map value) h
      refine ⟨⟨t.value, preceding⟩ :: before, preceding', ?_⟩
      intro q
      rw [List.cons_append, pathTo, hc, List.cons_append, ← hpath]

/-- The context of a node ends with the context of each node above it. -/
theorem exists_ofPath_pathTo_eq_append {t u : Tree α} {p : List Nat} (h : t.subtree? p = some u)
    (q : List Nat) :
    ∃ inner, Context.ofPath (t.pathTo [] (p ++ q)) =
      inner ++ Context.ofPath (t.pathTo [] p) := by
  obtain ⟨before, preceding, hpath⟩ := exists_pathTo_append [] h
  -- both ways come by the node, one ends there
  obtain ⟨below, hbelow⟩ : ∃ below, u.pathTo preceding q = ⟨u.value, preceding⟩ :: below := by
    cases q <;> exact ⟨_, rfl⟩
  have hend : t.pathTo [] p = before ++ [⟨u.value, preceding⟩] := by
    have hnil := hpath []
    rwa [List.append_nil] at hnil
  refine ⟨Context.ofPath below, ?_⟩
  rw [hpath, hbelow, hend, ← Context.ofPath_append, List.append_assoc]
  rfl

end Tree

end VectorStyle
