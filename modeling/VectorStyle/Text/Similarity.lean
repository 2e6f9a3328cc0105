/-!
# Similarity of texts

How alike two texts are is counted in characters that correspond: those of their longest common run,
and then, on each side of the run, those of the parts that it leaves. Texts are similar if at least
three fifths of all characters of both correspond.
-/

set_option autoImplicit false

namespace VectorStyle.Text.Similarity

/-- The length of the longest common beginning. -/
def commonStart : List Char → List Char → Nat
  | c :: cs, d :: ds => if c = d then commonStart cs ds + 1 else 0
  | _, _ => 0

/-- A common run of two texts: where it starts in each, and its length. -/
structure Run where
  left : Nat
  right : Nat
  length : Nat

/-- The longer of two runs, the first one if they are equally long. -/
def Run.longer (r s : Run) : Run := if r.length < s.length then s else r

/-- The longest common run; of several, the one that starts first in the left text and then first in
the right one. -/
def longestRun (a b : List Char) : Run :=
  (List.range a.length).foldl
    (fun best i => (List.range b.length).foldl
      (fun best j => best.longer ⟨i, j, commonStart (a.drop i) (b.drop j)⟩) best)
    ⟨0, 0, 0⟩

/-- The number of characters of the left text that correspond to characters of the right one. -/
def matched (a b : List Char) : Nat :=
  let r := longestRun a b
  if _h : 0 < r.length ∧ r.left + r.length ≤ a.length then
    matched (a.take r.left) (b.take r.right) + r.length +
      matched (a.drop (r.left + r.length)) (b.drop (r.right + r.length))
  else 0
termination_by a.length
decreasing_by all_goals grind

/-- Whether two texts are similar. -/
def isSimilar (s t : String) : Bool :=
  3 * (s.toList.length + t.toList.length) ≤ 10 * matched s.toList t.toList

end VectorStyle.Text.Similarity
