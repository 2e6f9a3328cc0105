/-!
# Rounding a quotient to the nearest whole number

`nearest num den` is the whole number closest to `num / den`; a quotient half way between two
neighbours goes to the even one. It is the one rounding rule of the library: binary numbers are
rounded by it, and so are decimal places.

Main statements: the result is the floor of the quotient or its successor
(`div_le_nearest`, `nearest_le_div_succ`), it is off by at most one half
(`two_mul_nearest_le`, `le_two_mul_nearest`) and the only one that is off by less
(`nearest_eq_of_close`), it depends on the quotient alone (`nearest_mul_mul_right`), and an even
whole part can be split off (`nearest_add_mul`).
-/

set_option autoImplicit false

namespace VectorStyle

/-- The whole number nearest to `num / den`, a tie going to the even neighbour. -/
def nearest (num den : Nat) : Nat :=
  if 2 * (num % den) < den then num / den
  else if den < 2 * (num % den) then num / den + 1
  else if num / den % 2 = 0 then num / den
  else num / den + 1

theorem div_le_nearest (num den : Nat) : num / den ≤ nearest num den := by
  unfold nearest; split <;> try split <;> try split
  all_goals omega

theorem nearest_le_div_succ (num den : Nat) : nearest num den ≤ num / den + 1 := by
  unfold nearest; split <;> try split <;> try split
  all_goals omega

/-- Rounding up adds at most half a unit. -/
theorem two_mul_nearest_le (num den : Nat) (h : 0 < den) :
    2 * (nearest num den * den) ≤ 2 * num + den := by
  have hdiv : num / den * den + num % den = num := by
    rw [Nat.mul_comm]; exact Nat.div_add_mod num den
  have hmod : num % den < den := Nat.mod_lt _ h
  unfold nearest; split
  · omega
  · split
    · rw [Nat.add_mul]; omega
    · split
      · omega
      · rw [Nat.add_mul]; omega

/-- Rounding down loses at most half a unit. -/
theorem le_two_mul_nearest (num den : Nat) (h : 0 < den) :
    2 * num ≤ 2 * (nearest num den * den) + den := by
  have hdiv : num / den * den + num % den = num := by
    rw [Nat.mul_comm]; exact Nat.div_add_mod num den
  have hmod : num % den < den := Nat.mod_lt _ h
  unfold nearest; split
  · omega
  · split
    · rw [Nat.add_mul]; omega
    · split
      · omega
      · rw [Nat.add_mul]; omega

/-- A whole number less than one half away is the nearest one. -/
theorem nearest_eq_of_close {num den n : Nat} (hlo : 2 * num < 2 * (n * den) + den)
    (hhi : 2 * (n * den) < 2 * num + den) : nearest num den = n := by
  have hpos : 0 < den := by omega
  have hup := two_mul_nearest_le num den hpos
  have hdown := le_two_mul_nearest num den hpos
  -- two multiples less than one `den` apart are the same
  apply Nat.le_antisymm
  · apply Nat.le_of_lt_succ
    apply Nat.lt_of_mul_lt_mul_right (a := den)
    rw [Nat.succ_mul]
    omega
  · apply Nat.le_of_lt_succ
    apply Nat.lt_of_mul_lt_mul_right (a := den)
    rw [Nat.succ_mul]
    omega

/-- Only the quotient counts. -/
theorem nearest_mul_mul_right (num den c : Nat) (h : 0 < c) :
    nearest (num * c) (den * c) = nearest num den := by
  have hmod : 2 * (num * c % (den * c)) = 2 * (num % den) * c := by
    rw [Nat.mul_mod_mul_right, Nat.mul_assoc]
  rw [nearest, nearest, hmod, Nat.mul_div_mul_right _ _ h]
  simp only [Nat.mul_lt_mul_right h]

/-- A whole part that is even moves the result and changes nothing else. -/
theorem nearest_add_mul (num den k : Nat) (h : 0 < den) :
    nearest (num + 2 * k * den) den = nearest num den + 2 * k := by
  have hparity : (num / den + 2 * k) % 2 = num / den % 2 := by omega
  rw [nearest, nearest, Nat.add_mul_mod_self_right, Nat.add_mul_div_right _ _ h, hparity]
  split
  · rfl
  · split
    · omega
    · split
      · rfl
      · omega

example : (nearest 5 2, nearest 7 2, nearest 9 4, nearest 11 4) = (2, 4, 2, 3) := by decide

end VectorStyle
