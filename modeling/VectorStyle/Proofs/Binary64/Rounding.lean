import VectorStyle.Binary64.Arithmetic

/-!
# Laws of rounding

`Binary64.roundUnits` takes a quotient to the nearest multiple of the step at its size. The result
depends on the quotient alone, it is off by at most half a step, and a multiple of the step that is
closer than that is the result. A magnitude of the format is its own rounding.

Main statements: `roundUnits_mul_mul`, `two_mul_roundUnits_le` and `le_two_mul_roundUnits`,
`roundUnits_eq_of_close`, `roundUnits_of_isMagnitude`; `roundUnits_mul_pow`, rounding between a
power of two and the next one; and `finite_div_ofInt` and `ofInt_mul_finite`, arithmetic with whole
numbers.
-/

set_option autoImplicit false

namespace VectorStyle.Binary64

/-! ## Powers of two

The exponents in use are large numerals. With these lemmas a power is rewritten by its form and
never evaluated. -/

theorem pow_le_pow {s t : Nat} (h : s ≤ t) : Nat.pow 2 s ≤ Nat.pow 2 t :=
  Nat.pow_le_pow_right (by omega) h

theorem pow_lt_pow {s t : Nat} (h : s < t) : Nat.pow 2 s < Nat.pow 2 t :=
  Nat.pow_lt_pow_right (by omega) h

theorem pow_pos (s : Nat) : 0 < Nat.pow 2 s := Nat.two_pow_pos s

theorem pow_add (s t : Nat) : Nat.pow 2 (s + t) = Nat.pow 2 s * Nat.pow 2 t := Nat.pow_add 2 s t

theorem one_pos : 0 < one := by
  unfold one
  apply pow_pos

theorem pow_le_one {s : Nat} (h : s ≤ 1074) : Nat.pow 2 s ≤ one := by
  unfold one
  apply pow_le_pow
  exact h

/-! ## The step -/

theorem step_mono {m n : Nat} (h : m ≤ n) : step m ≤ step n := by
  rw [step, step]
  rcases Nat.eq_zero_or_pos m with rfl | hm
  · simp
  · have hlog : m.log2 ≤ n.log2 :=
      (Nat.le_log2 (by omega)).2 (Nat.le_trans (Nat.log2_self_le (by omega)) h)
    omega

/-- Between a power of two and the next one the step is fixed. -/
theorem step_eq {n s : Nat} (hlo : Nat.pow 2 (s + 52) ≤ n) (hhi : n < Nat.pow 2 (s + 53)) :
    step n = s := by
  change 2 ^ (s + 52) ≤ n at hlo
  change n < 2 ^ (s + 53) at hhi
  have hpos : 0 < n := Nat.lt_of_lt_of_le (Nat.two_pow_pos _) hlo
  have hlog : n.log2 = s + 52 := (Nat.log2_eq_iff (by omega)).2 ⟨hlo, hhi⟩
  rw [step, hlog]
  omega

/-- Where the step is more than the smallest one, it is that of a power of two. -/
theorem pow_step_le {n : Nat} (h : 0 < step n) : Nat.pow 2 (step n + 52) ≤ n := by
  have hlog : step n + 52 = n.log2 := by
    rw [step] at h ⊢
    omega
  have hne : n ≠ 0 := by
    rintro rfl
    simp [step] at h
  rw [hlog]
  exact Nat.log2_self_le hne

theorem step_le {n s : Nat} (h : n < Nat.pow 2 (s + 53)) : step n ≤ s := by
  apply Nat.le_of_not_lt
  intro hlt
  have hpow : Nat.pow 2 (s + 53) ≤ n :=
    Nat.le_trans (pow_le_pow (by omega)) (pow_step_le (Nat.lt_of_le_of_lt (Nat.zero_le s) hlt))
  omega

theorem step_mul_pow_le {k s : Nat} (hk : k < Nat.pow 2 (s + 53)) (t : Nat) :
    step (k * Nat.pow 2 t) ≤ s + t := by
  apply step_le
  rw [Nat.add_right_comm, pow_add]
  exact Nat.mul_lt_mul_of_pos_right hk (pow_pos t)

theorem step_mul_one_le {k s : Nat} (hk : k < Nat.pow 2 (s + 53)) : step (k * one) ≤ s + 1074 := by
  unfold one
  apply step_mul_pow_le
  exact hk

/-- A multiple of a power of two is a magnitude, if it is not too large a one and 53 bits
suffice. -/
theorem isMagnitude_mul_pow {m s : Nat} (hm : m ≤ Nat.pow 2 53) (hs : s + 53 < 2098) :
    IsMagnitude (m * Nat.pow 2 s) := by
  refine ⟨?_, pow_step_dvd_mul m s hm⟩
  have hpow : Nat.pow 2 53 * Nat.pow 2 s < limit := by
    rw [← pow_add, Nat.add_comm]
    unfold limit
    apply pow_lt_pow
    exact hs
  exact Nat.lt_of_le_of_lt (Nat.mul_le_mul_right _ hm) hpow

/-! ## The error -/

/-- Rounding up adds at most half a step. -/
theorem two_mul_roundUnits_le (num : Nat) {den : Nat} (h : 0 < den) :
    2 * (roundUnits num den * den) ≤ 2 * num + den * Nat.pow 2 (step (num / den)) := by
  have hgrid : 0 < den * Nat.pow 2 (step (num / den)) :=
    Nat.mul_pos h (pow_pos _)
  have hnear := two_mul_nearest_le num _ hgrid
  rw [roundUnits, Nat.mul_assoc, Nat.mul_comm (Nat.pow 2 _) den]
  exact hnear

/-- Rounding down loses at most half a step. -/
theorem le_two_mul_roundUnits (num : Nat) {den : Nat} (h : 0 < den) :
    2 * num ≤ 2 * (roundUnits num den * den) + den * Nat.pow 2 (step (num / den)) := by
  have hgrid : 0 < den * Nat.pow 2 (step (num / den)) :=
    Nat.mul_pos h (pow_pos _)
  have hnear := le_two_mul_nearest num _ hgrid
  rw [roundUnits, Nat.mul_assoc, Nat.mul_comm (Nat.pow 2 _) den]
  exact hnear

/-- A multiple of the step less than half a step away is the result. -/
theorem roundUnits_eq_of_close {num den n : Nat} (hn : Nat.pow 2 (step (num / den)) ∣ n)
    (hlo : 2 * num < 2 * (n * den) + den * Nat.pow 2 (step (num / den)))
    (hhi : 2 * (n * den) < 2 * num + den * Nat.pow 2 (step (num / den))) :
    roundUnits num den = n := by
  obtain ⟨m, hm⟩ := hn
  have hgrid : m * (den * Nat.pow 2 (step (num / den))) = n * den := by
    rw [hm, Nat.mul_left_comm, Nat.mul_comm m, Nat.mul_comm den]
  have hnear : nearest num (den * Nat.pow 2 (step (num / den))) = m := by
    apply nearest_eq_of_close
    · rwa [hgrid]
    · rwa [hgrid]
  rw [roundUnits, hnear, Nat.mul_comm, ← hm]

/-! ## What rounding depends on -/

/-- Only the quotient counts. -/
theorem roundUnits_mul_mul (num den c : Nat) (h : 0 < c) :
    roundUnits (num * c) (den * c) = roundUnits num den := by
  rw [roundUnits, roundUnits, Nat.mul_div_mul_right _ _ h, Nat.mul_right_comm,
    nearest_mul_mul_right _ _ _ h]

/-- Where `num / den` lies between `2 ^ (e + 52)` and the next power of two, it is rounded to a
multiple of `2 ^ e`, and so are its products by powers of two. -/
theorem roundUnits_mul_pow {num den e : Nat} (hlo : den * Nat.pow 2 (e + 52) ≤ num)
    (hhi : num < den * Nat.pow 2 (e + 53)) (s : Nat) :
    roundUnits (num * Nat.pow 2 s) den = nearest num (den * Nat.pow 2 e) * Nat.pow 2 (s + e) := by
  have hden : 0 < den := by
    rcases Nat.eq_zero_or_pos den with rfl | hpos
    · omega
    · exact hpos
  have hpow (t : Nat) :
      Nat.pow 2 (s + e + t) * den = den * Nat.pow 2 (e + t) * Nat.pow 2 s := by
    rw [Nat.add_assoc, pow_add, Nat.mul_comm (Nat.pow 2 s), Nat.mul_right_comm, Nat.mul_comm _ den]
  have hstep : step (num * Nat.pow 2 s / den) = s + e := by
    apply step_eq
    · rw [Nat.le_div_iff_mul_le hden, hpow]
      exact Nat.mul_le_mul_right _ hlo
    · rw [Nat.div_lt_iff_lt_mul hden, hpow]
      exact Nat.mul_lt_mul_of_pos_right hhi (pow_pos s)
  have hgrid : den * Nat.pow 2 (s + e) = den * Nat.pow 2 e * Nat.pow 2 s := by
    rw [Nat.add_comm, pow_add, Nat.mul_assoc]
  rw [roundUnits, hstep, hgrid, nearest_mul_mul_right _ _ _ (pow_pos s)]

/-- What is rounded has at most 53 significant bits, but for the next power of two. -/
theorem nearest_le_pow (num den : Nat) :
    nearest num (den * Nat.pow 2 (step (num / den))) ≤ Nat.pow 2 53 := by
  refine Nat.le_trans (nearest_le_div_succ _ _) ?_
  rw [← Nat.div_div_eq_div_mul]
  exact div_pow_step_lt _

/-- What is rounded where the step is small is a magnitude. -/
theorem isMagnitude_roundUnits {num den : Nat} (h : step (num / den) + 53 < 2098) :
    IsMagnitude (roundUnits num den) :=
  isMagnitude_mul_pow (nearest_le_pow num den) h

theorem roundUnits_zero (den : Nat) : roundUnits 0 den = 0 := by
  simp [roundUnits, nearest]

/-- A magnitude of the format is not moved. -/
theorem roundUnits_of_isMagnitude {n : Nat} (hn : IsMagnitude n) {den : Nat} (h : 0 < den) :
    roundUnits (n * den) den = n := by
  have hdiv : n * den / den = n := Nat.mul_div_cancel n h
  have hstep : 0 < den * Nat.pow 2 (step n) := Nat.mul_pos h (pow_pos _)
  apply roundUnits_eq_of_close
  · rw [hdiv]
    exact hn.2
  · rw [hdiv]
    omega
  · rw [hdiv]
    omega

/-- Quotients that are rounded to the same magnitude are rounded to the same number. -/
theorem ofUnits_congr {num den num' den' : Nat}
    (h : roundUnits num den = roundUnits num' den') (negative : Bool) :
    ofUnits negative num den = ofUnits negative num' den' := by
  simp only [ofUnits, h]

/-- A quotient that is rounded to a magnitude of the format becomes the number with it. -/
theorem ofUnits_eq_finite {num den n : Nat} (hn : IsMagnitude n) (h : roundUnits num den = n)
    (negative : Bool) : ofUnits negative num den = .finite negative n hn := by
  subst h
  rw [ofUnits, dif_pos hn.1]

/-! ## Whole numbers -/

theorem isMagnitude_mul_one {k : Nat} (hk : k ≤ Nat.pow 2 53) : IsMagnitude (k * one) := by
  unfold one
  apply isMagnitude_mul_pow hk
  omega

/-- A whole number of 53 bits is a number of the format. -/
theorem ofInt_natCast {k : Nat} (hk : k ≤ Nat.pow 2 53) :
    ofInt k = .finite false (k * one) (isMagnitude_mul_one hk) := by
  have hround := roundUnits_of_isMagnitude (isMagnitude_mul_one hk) Nat.one_pos
  rw [Nat.mul_one] at hround
  have hsign : decide ((k : Int) < 0) = false := by simp
  rw [ofInt, ofRatio, hsign, Int.natAbs_natCast, ofUnits_eq_finite _ hround]

theorem finite_div_finite (s t : Bool) {m n : Nat} (hm : IsMagnitude m) (hn : IsMagnitude n)
    (hne : n ≠ 0) :
    Binary64.finite s m hm / Binary64.finite t n hn = ofUnits (s != t) (m * one) n :=
  if_neg hne

theorem finite_mul_finite (s t : Bool) {m n : Nat} (hm : IsMagnitude m) (hn : IsMagnitude n) :
    Binary64.finite s m hm * Binary64.finite t n hn = ofUnits (s != t) (m * n) one := by
  change Binary64.mul _ _ = _
  rw [mul]

/-- Division by a whole number rounds the quotient once. -/
theorem finite_div_ofInt (s : Bool) {n : Nat} (hn : IsMagnitude n) {k : Nat} (hpos : 0 < k)
    (hk : k ≤ Nat.pow 2 53) : Binary64.finite s n hn / ofInt k = ofUnits s n k := by
  have hne : k * one ≠ 0 := Nat.ne_of_gt (Nat.mul_pos hpos one_pos)
  rw [ofInt_natCast hk, finite_div_finite _ _ _ _ hne, Bool.bne_false]
  exact ofUnits_congr (roundUnits_mul_mul n k one one_pos) s

/-- Multiplication by a whole number rounds the product once. -/
theorem ofInt_mul_finite {k : Nat} (hk : k ≤ Nat.pow 2 53) (s : Bool) {n : Nat}
    (hn : IsMagnitude n) :
    ofInt k * Binary64.finite s n hn = ofUnits s (k * n) 1 := by
  rw [ofInt_natCast hk, finite_mul_finite, Bool.false_bne, Nat.mul_right_comm]
  have hscale := roundUnits_mul_mul (k * n) 1 one one_pos
  rw [Nat.one_mul] at hscale
  exact ofUnits_congr hscale s

end VectorStyle.Binary64
