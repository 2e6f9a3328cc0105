import Mathlib.Algebra.Order.Field.Rat
import Mathlib.Algebra.Ring.Int.Parity
import Mathlib.Tactic.Linarith
import VectorStyle.Nearest

/-!
# Whole numbers nearest to rational numbers

A whole number is nearest to a rational one if it is at most one half away, and if it is even where
it is one half away. Every rational number has at most one such neighbour, and a greater number has
no smaller one. The quotients that `nearest` rounds have the one that it finds.

Main statements: `IsNearest.mono` and `IsNearest.eq`; `IsNearest.abs_sub_le`, no other whole number
is closer; `even_nearest_of_tie`, a tie goes to the even neighbour; and `isNearest_nearest`.
-/

set_option autoImplicit false

namespace VectorStyle

/-- The whole number nearest to a rational one, a tie going to the even neighbour. -/
structure IsNearest (x : Rat) (k : Int) : Prop where
  close : |x - k| ≤ 1 / 2
  even_of_tie : |x - k| = 1 / 2 → Even k

namespace IsNearest

variable {x y : Rat} {k l : Int}

/-- Rounding keeps the order. -/
theorem mono (hk : IsNearest x k) (hl : IsNearest y l) (h : x ≤ y) : k ≤ l := by
  by_contra hlt
  have hsucc : l + 1 ≤ k := not_le.1 hlt
  have hcast : (l : Rat) + 1 ≤ k := by exact_mod_cast hsucc
  have hx := abs_le.1 hk.close
  have hy := abs_le.1 hl.close
  -- the two are half way between `l` and `l + 1`, and one of these is odd
  have hnext : (k : Rat) = l + 1 := by linarith
  have hktie : |x - k| = 1 / 2 := by
    rw [abs_sub_comm, abs_of_pos (by linarith)]
    linarith
  have hltie : |y - l| = 1 / 2 := by
    rw [abs_of_pos (by linarith)]
    linarith
  obtain rfl : k = l + 1 := by exact_mod_cast hnext
  have hodd := Int.even_add_one.1 (hk.even_of_tie hktie)
  exact hodd (hl.even_of_tie hltie)

/-- There is no other one. -/
theorem eq (hk : IsNearest x k) (hl : IsNearest x l) : k = l :=
  le_antisymm (hk.mono hl le_rfl) (hl.mono hk le_rfl)

/-- Two whole numbers are at least one apart, whatever lies between them. -/
theorem one_le_add_abs_sub (x : Rat) (h : k ≠ l) : 1 ≤ |x - k| + |x - l| := by
  have hone : (1 : Rat) ≤ |((k - l : Int) : Rat)| := by
    rw [← Int.cast_abs]
    exact_mod_cast Int.one_le_abs (sub_ne_zero.2 h)
  rw [Int.cast_sub] at hone
  have htriangle := abs_sub_le (k : Rat) x l
  rw [abs_sub_comm (k : Rat) x] at htriangle
  linarith

/-- No other whole number is closer. -/
theorem abs_sub_le (h : IsNearest x k) (l : Int) : |x - k| ≤ |x - l| := by
  by_cases hkl : k = l
  · rw [hkl]
  · have hapart := one_le_add_abs_sub x hkl
    have hclose := h.close
    linarith

/-- The number is even if another one is as close. -/
theorem even_of_abs_sub_eq (h : IsNearest x k) (hkl : k ≠ l) (heq : |x - k| = |x - l|) :
    Even k := by
  have hapart := one_le_add_abs_sub x hkl
  have hclose := h.close
  apply h.even_of_tie
  linarith

theorem neg (h : IsNearest x k) : IsNearest (-x) (-k) := by
  have habs : |-x - ((-k : Int) : Rat)| = |x - k| := by
    rw [Int.cast_neg, ← neg_sub', abs_neg]
  refine ⟨?_, ?_⟩
  · rw [habs]
    exact h.close
  · rw [habs]
    intro htie
    exact (h.even_of_tie htie).neg

end IsNearest

/-- A quotient half way between two whole numbers goes to the even one. -/
theorem even_nearest_of_tie {num den : Nat} (h : 0 < den)
    (htie : 2 * num + den = 2 * (nearest num den * den) ∨
      2 * num = 2 * (nearest num den * den) + den) :
    nearest num den % 2 = 0 := by
  have hdiv : num / den * den + num % den = num := Nat.div_add_mod' num den
  have hmod : num % den < den := Nat.mod_lt num h
  have hnext : (num / den + 1) * den = num / den * den + den := Nat.succ_mul _ _
  -- off a tie the quotient is closer to one neighbour, and the tie asks for the even one
  unfold nearest at htie ⊢
  split
  case isTrue hlow =>
    rw [if_pos hlow] at htie
    omega
  case isFalse hlow =>
    rw [if_neg hlow] at htie
    split
    case isTrue hhigh =>
      rw [if_pos hhigh, hnext] at htie
      omega
    case isFalse hhigh =>
      split <;> omega

/-- The number that a quotient is rounded to is nearest to it. -/
theorem isNearest_nearest (num : Nat) {den : Nat} (h : 0 < den) :
    IsNearest ((num : Rat) / den) (nearest num den : Nat) := by
  have hden : (0 : Rat) < den := Nat.cast_pos.2 h
  have hup : 2 * ((nearest num den : Rat) * den) ≤ 2 * num + den := by
    exact_mod_cast two_mul_nearest_le num den h
  have hdown : 2 * (num : Rat) ≤ 2 * (nearest num den * den) + den := by
    exact_mod_cast le_two_mul_nearest num den h
  constructor
  · rw [Int.cast_natCast, abs_le, le_sub_iff_add_le, sub_le_iff_le_add, le_div_iff₀ hden,
      div_le_iff₀ hden]
    constructor <;> linarith
  · intro htie
    rw [Int.cast_natCast, abs_eq (by norm_num), sub_eq_iff_eq_add, sub_eq_iff_eq_add,
      div_eq_iff hden.ne', div_eq_iff hden.ne'] at htie
    have heven : nearest num den % 2 = 0 := by
      apply even_nearest_of_tie h
      rcases htie with habove | hbelow
      · right
        have hdouble : 2 * (num : Rat) = 2 * (nearest num den * den) + den := by linarith
        exact_mod_cast hdouble
      · left
        have hdouble : 2 * (num : Rat) + den = 2 * (nearest num den * den) := by linarith
        exact_mod_cast hdouble
    exact (Int.even_coe_nat _).2 (Nat.even_iff.2 heven)

end VectorStyle
