import VectorStyle.Proofs.Binary64.Rounding

/-!
# The range of the format

Next to the limit the steps are `2²⁰⁴⁵` units, so the greatest magnitude lies that far below it.
What exceeds this magnitude by less than half a step is rounded down to it. Half way to the limit
the limit is the even neighbour, so that from there on everything is rounded out of range.

Main statements: `roundUnits_lt_limit_iff`, which quotients stay in range, and `ofInt?_eq_none_iff`,
which whole numbers do not.
-/

set_option autoImplicit false

namespace VectorStyle.Binary64

/-- Half a step below the limit, in units. -/
def lastHalf : Nat := Nat.pow 2 2044

/-- The first number of units that is rounded out of range. -/
def overflow : Nat := limit - lastHalf

/-- The limit as a whole number. -/
def wholeLimit : Nat := Nat.pow 2 1024

/-- Half a step below the limit as a whole number. -/
def wholeHalf : Nat := Nat.pow 2 970

/-- The first whole number that is rounded out of range. -/
def wholeOverflow : Nat := wholeLimit - wholeHalf

/-- A power of two as a product, where the exponents are numerals. -/
theorem pow_eq_mul {s t u : Nat} (h : u = s + t) : Nat.pow 2 u = Nat.pow 2 s * Nat.pow 2 t := by
  rw [h, pow_add]

theorem wholeOverflow_mul_one : wholeOverflow * one = overflow := by
  have hlimit : limit = wholeLimit * one := by
    unfold limit wholeLimit one
    apply pow_eq_mul
    rfl
  have hhalf : lastHalf = wholeHalf * one := by
    unfold lastHalf wholeHalf one
    apply pow_eq_mul
    rfl
  rw [wholeOverflow, overflow, Nat.sub_mul, hlimit, hhalf]

/-- A quotient half way below an even number is rounded up to it. -/
theorem nearest_lt_iff_of_even {num den n : Nat} (h : 0 < den) (hn : n % 2 = 0) :
    nearest num den < n ↔ 2 * num + den < 2 * (n * den) := by
  have hdiv : num / den * den + num % den = num := by
    rw [Nat.mul_comm]
    exact Nat.div_add_mod num den
  have hmod : num % den < den := Nat.mod_lt num h
  -- the whole part is below `n - 1`, is `n - 1`, or is not below `n`
  rcases Nat.lt_or_ge (num / den) n with hlt | hge
  · rcases Nat.lt_or_eq_of_le (Nat.succ_le_of_lt hlt) with hbelow | hnext
    · have hprod : (num / den + 2) * den ≤ n * den := Nat.mul_le_mul_right den hbelow
      have hnear := nearest_le_div_succ num den
      rw [Nat.add_mul] at hprod
      omega
    · have hprod : n * den = num / den * den + den := by
        rw [← hnext, Nat.succ_mul]
      unfold nearest
      split <;> try split <;> try split
      all_goals omega
  · have hprod : n * den ≤ num / den * den := Nat.mul_le_mul_right den hge
    have hnear := div_le_nearest num den
    omega

/-- Rounding does not pass a power of two. -/
theorem pow_le_roundUnits {num den e : Nat} (h : Nat.pow 2 e ≤ num / den) :
    Nat.pow 2 e ≤ roundUnits num den := by
  have hpos : 0 < num / den := Nat.lt_of_lt_of_le (pow_pos e) h
  -- the greater of the power and the step
  obtain ⟨t, hstep, het, hle⟩ :
      ∃ t, step (num / den) ≤ t ∧ e ≤ t ∧ Nat.pow 2 t ≤ num / den := by
    rcases Nat.le_total (step (num / den)) e with hs | hs
    · exact ⟨e, hs, Nat.le_refl e, h⟩
    · refine ⟨step (num / den), Nat.le_refl _, hs, ?_⟩
      have hlog : Nat.pow 2 (num / den).log2 ≤ num / den := Nat.log2_self_le (by omega)
      exact Nat.le_trans (pow_le_pow (Nat.sub_le _ 52)) hlog
  have hsplit : Nat.pow 2 t =
      Nat.pow 2 (t - step (num / den)) * Nat.pow 2 (step (num / den)) := by
    rw [← pow_add, Nat.sub_add_cancel hstep]
  have hmultiple : Nat.pow 2 (t - step (num / den)) ≤
      nearest num (den * Nat.pow 2 (step (num / den))) := by
    refine Nat.le_trans ?_ (div_le_nearest _ _)
    rw [← Nat.div_div_eq_div_mul, Nat.le_div_iff_mul_le (pow_pos _), ← hsplit]
    exact hle
  calc Nat.pow 2 e ≤ Nat.pow 2 t := pow_le_pow het
    _ = Nat.pow 2 (t - step (num / den)) * Nat.pow 2 (step (num / den)) := hsplit
    _ ≤ roundUnits num den := Nat.mul_le_mul_right _ hmultiple

/-- What is rounded to less than a power of two. The steps below the power are `2 ^ (e + 1)`. -/
theorem roundUnits_lt_iff (num : Nat) {den e u bound half : Nat} (hbound : bound = Nat.pow 2 u)
    (hhalf : half = Nat.pow 2 e) (hu : u = e + 54) (h : 0 < den) :
    roundUnits num den < bound ↔ num < den * (bound - half) := by
  subst hbound hhalf hu
  have hscale (k : Nat) : den * Nat.pow 2 (e + k) = Nat.pow 2 k * (den * Nat.pow 2 e) := by
    rw [pow_add, Nat.mul_comm (Nat.pow 2 e), Nat.mul_left_comm]
  have hpow : den * Nat.pow 2 (e + 54) = 18014398509481984 * (den * Nat.pow 2 e) := hscale 54
  have hhalf : den * Nat.pow 2 (e + 53) = 9007199254740992 * (den * Nat.pow 2 e) := hscale 53
  have hgrid : den * Nat.pow 2 (e + 1) = 2 * (den * Nat.pow 2 e) := hscale 1
  have hpos : 0 < den * Nat.pow 2 e := Nat.mul_pos h (pow_pos e)
  rw [Nat.mul_sub]
  rcases Nat.lt_or_ge num (den * Nat.pow 2 (e + 53)) with hsmall | hlarge
  · -- the steps are smaller here, and the next power of two is the most that can be reached
    have hstep : step (num / den) ≤ e := by
      apply step_le
      rwa [Nat.div_lt_iff_lt_mul h, Nat.mul_comm]
    have hround : roundUnits num den ≤ Nat.pow 2 53 * Nat.pow 2 e :=
      Nat.mul_le_mul (nearest_le_pow num den) (pow_le_pow hstep)
    refine iff_of_true ?_ (by omega)
    rw [← pow_add, Nat.add_comm] at hround
    exact Nat.lt_of_le_of_lt hround (pow_lt_pow (by omega))
  · rcases Nat.lt_or_ge num (den * Nat.pow 2 (e + 54)) with hin | hout
    · -- between the two powers the steps are the last ones before the bound
      have hlo : den * Nat.pow 2 (e + 1 + 52) ≤ num := hlarge
      have hround := roundUnits_mul_pow hlo hin 0
      have hsplit : Nat.pow 2 (e + 54) = Nat.pow 2 53 * Nat.pow 2 (e + 1) := by
        rw [← pow_add, Nat.add_comm 53]
      have heven : Nat.pow 2 53 % 2 = 0 := rfl
      have hfull : Nat.pow 2 53 * (den * Nat.pow 2 (e + 1)) =
          18014398509481984 * (den * Nat.pow 2 e) := by
        rw [Nat.mul_left_comm, ← hsplit, hpow]
      rw [Nat.zero_add, show Nat.pow 2 0 = 1 from rfl, Nat.mul_one] at hround
      rw [hround, hsplit, Nat.mul_lt_mul_right (pow_pos _),
        nearest_lt_iff_of_even (Nat.mul_pos h (pow_pos _)) heven, hfull, ← hsplit, hgrid]
      omega
    · have hquotient : Nat.pow 2 (e + 54) ≤ num / den := by
        rwa [Nat.le_div_iff_mul_le h, Nat.mul_comm]
      refine iff_of_false (Nat.not_lt.2 (pow_le_roundUnits hquotient)) ?_
      omega

/-- What is rounded into range. -/
theorem roundUnits_lt_limit_iff (num : Nat) {den : Nat} (h : 0 < den) :
    roundUnits num den < limit ↔ num < den * overflow := by
  have hlimit : limit = Nat.pow 2 2098 := by
    unfold limit
    rfl
  have hhalf : lastHalf = Nat.pow 2 2044 := by
    unfold lastHalf
    rfl
  rw [overflow]
  exact roundUnits_lt_iff num hlimit hhalf rfl h

/-- What is rounded out of range becomes infinite. -/
theorem ofUnits_eq_infinity_iff (negative : Bool) (num : Nat) {den : Nat} (h : 0 < den) :
    (∃ s, ofUnits negative num den = .infinity s) ↔ den * overflow ≤ num := by
  have hrange := roundUnits_lt_limit_iff num h
  rcases Nat.lt_or_ge (roundUnits num den) limit with hin | hout
  · have hmagnitude : IsMagnitude (roundUnits num den) := ⟨hin, pow_step_dvd_roundUnits num den⟩
    rw [ofUnits_eq_finite hmagnitude rfl]
    exact iff_of_false (by simp) (Nat.not_le.2 (hrange.1 hin))
  · have hinfinity : ofUnits negative num den = .infinity negative := by
      rw [ofUnits, dif_neg (Nat.not_lt.2 hout)]
    have hge : ¬ num < den * overflow := fun hlt => Nat.not_lt.2 hout (hrange.2 hlt)
    exact iff_of_true ⟨negative, hinfinity⟩ (Nat.not_lt.1 hge)

theorem ofInt?_eq_none_iff (i : Int) : ofInt? i = none ↔ wholeOverflow ≤ i.natAbs := by
  rw [ofInt?, unlessInfinite_eq_none_iff, ofInt, ofRatio, ofUnits_eq_infinity_iff _ _ Nat.one_pos,
    Nat.one_mul overflow, ← wholeOverflow_mul_one]
  exact Nat.mul_le_mul_right_iff one_pos

theorem ofInt?_eq_some {i : Int} (h : i.natAbs < wholeOverflow) : ofInt? i = some (ofInt i) := by
  have hne : ofInt? i ≠ none := by
    rw [ne_eq, ofInt?_eq_none_iff]
    exact Nat.not_le.2 h
  rw [ofInt?] at hne ⊢
  generalize ofInt i = x at hne
  cases x with
  | infinity s => exact absurd rfl hne
  | nan => rfl
  | finite s n hn => rfl

end VectorStyle.Binary64
