import VectorStyle.Proofs.Binary64.Nearest

/-!
# Rounding keeps the order

Of two numbers that are nearest to one rational number, and so equally far away from it, both have
even significands. But between two finite numbers with even significands there is another one, which
is closer. So the nearest number is one in value, and what is rounded from a greater rational number
is no smaller.

Main statements: `exists_toRat_between` and `IsNearestTo.mono`.
-/

set_option autoImplicit false

namespace VectorStyle.Binary64

/-! ## Between even significands -/

theorem ulps_mul_pow (k s : Nat) (hs : step (k * Nat.pow 2 s) = s) :
    ulps (k * Nat.pow 2 s) = k := by
  rw [ulps, hs, Nat.mul_div_cancel _ (pow_pos s)]

/-- The multiple of a step that follows an even one is no magnitude with an even significand. -/
theorem not_even_ulps_succ {k s : Nat} (hk : Even k) (hstep : s ≤ step ((k + 1) * Nat.pow 2 s))
    (hdvd : Nat.pow 2 (step ((k + 1) * Nat.pow 2 s)) ∣ (k + 1) * Nat.pow 2 s) :
    ¬ Even (ulps ((k + 1) * Nat.pow 2 s)) := by
  have hodd : ¬ Even (k + 1) := Nat.not_even_iff_odd.2 hk.add_one
  rcases Nat.eq_or_lt_of_le hstep with heq | hlt
  · rwa [ulps_mul_pow (k + 1) s heq.symm]
  · -- a multiple of a greater step is an even multiple of this one
    have hdouble : Nat.pow 2 (s + 1) ∣ (k + 1) * Nat.pow 2 s :=
      Nat.dvd_trans (Nat.pow_dvd_pow 2 hlt) hdvd
    rw [Nat.add_comm s, pow_add] at hdouble
    exact absurd (even_iff_two_dvd.2 (Nat.dvd_of_mul_dvd_mul_right (pow_pos s) hdouble)) hodd

theorem exists_magnitude_between {m n : Nat} (hm : Nat.pow 2 (step m) ∣ m)
    (hn : Nat.pow 2 (step n) ∣ n) (hlt : m < n) (hmeven : Even (ulps m))
    (hneven : Even (ulps n)) :
    ∃ k, Nat.pow 2 (step k) ∣ k ∧ m < k ∧ k < n := by
  have hsmall : ulps m < Nat.pow 2 53 := div_pow_step_lt m
  have hvalue : m = ulps m * Nat.pow 2 (step m) := (Nat.div_mul_cancel hm).symm
  have hstep : step m ≤ step n := step_mono hlt.le
  -- the greater one is a multiple of the step of the smaller one, and not the next multiple
  obtain ⟨l, hl⟩ : Nat.pow 2 (step m) ∣ n := Nat.dvd_trans (Nat.pow_dvd_pow 2 hstep) hn
  rw [Nat.mul_comm] at hl
  generalize ulps m = k at hmeven hsmall hvalue
  generalize step m = s at hvalue hstep hl
  subst hvalue hl
  have hkl : k < l := Nat.lt_of_mul_lt_mul_right hlt
  have hne : k + 1 ≠ l := by
    rintro rfl
    exact not_even_ulps_succ hmeven hstep hn hneven
  refine ⟨(k + 1) * Nat.pow 2 s, pow_step_dvd_mul _ _ hsmall, ?_, ?_⟩
  · exact Nat.mul_lt_mul_of_pos_right (Nat.lt_succ_self k) (pow_pos s)
  · exact Nat.mul_lt_mul_of_pos_right (Nat.lt_of_le_of_ne hkl hne) (pow_pos s)

theorem toRat_finite (s : Bool) {n : Nat} (hn : IsMagnitude n) :
    (finite s n hn).toRat = (signedUnits s n : Rat) / (one : Nat) := rfl

theorem toRat_lt_toRat_iff {s t : Bool} {m n : Nat} (hm : IsMagnitude m) (hn : IsMagnitude n) :
    (finite s m hm).toRat < (finite t n hn).toRat ↔ signedUnits s m < signedUnits t n := by
  have hone : (0 : Rat) < (one : Nat) := Nat.cast_pos.2 one_pos
  rw [toRat_finite, toRat_finite, div_lt_div_iff_of_pos_right hone, Int.cast_lt]

theorem isMagnitude_zero : IsMagnitude 0 := by
  refine ⟨?_, Nat.dvd_zero _⟩
  unfold limit
  apply pow_pos

theorem isMagnitude_one : IsMagnitude 1 :=
  isMagnitude_mul_pow (m := 1) (s := 0) (by decide) (by decide)

/-- The smallest positive number of the format. -/
def smallest : Binary64 := .finite false 1 isMagnitude_one

theorem exists_signedUnits_between {s t : Bool} {m n : Nat} (hm : IsMagnitude m)
    (hn : IsMagnitude n) (hlt : signedUnits s m < signedUnits t n) (hmeven : Even (ulps m))
    (hneven : Even (ulps n)) :
    ∃ u k, IsMagnitude k ∧ signedUnits s m < signedUnits u k ∧
      signedUnits u k < signedUnits t n := by
  have hbelow {k l : Nat} (hdvd : Nat.pow 2 (step k) ∣ k) (hkl : k < l) (hl : IsMagnitude l) :
      IsMagnitude k := ⟨Nat.lt_trans hkl hl.1, hdvd⟩
  cases s with
  | false =>
    cases t with
    | false =>
      rw [signedUnits_false, signedUnits_false] at hlt
      obtain ⟨k, hk, hmk, hkn⟩ :=
        exists_magnitude_between hm.2 hn.2 (Int.ofNat_lt.1 hlt) hmeven hneven
      exact ⟨false, k, hbelow hk hkn hn, Int.ofNat_lt.2 hmk, Int.ofNat_lt.2 hkn⟩
    | true =>
      rw [signedUnits_false, signedUnits_true] at hlt
      omega
  | true =>
    cases t with
    | true =>
      rw [signedUnits_true, signedUnits_true] at hlt ⊢
      obtain ⟨k, hk, hnk, hkm⟩ := exists_magnitude_between hn.2 hm.2 (by omega) hneven hmeven
      refine ⟨true, k, hbelow hk hkm hm, ?_, ?_⟩
      · rw [signedUnits_true]
        omega
      · rw [signedUnits_true]
        omega
    | false =>
      rw [signedUnits_true, signedUnits_false] at hlt ⊢
      -- zero lies between the two, or it is one of them
      rcases Nat.eq_zero_or_pos m with rfl | hmpos
      · obtain ⟨k, hk, hzero, hkn⟩ := exists_magnitude_between hm.2 hn.2 (by omega) hmeven hneven
        exact ⟨false, k, hbelow hk hkn hn, Int.ofNat_lt.2 hzero, Int.ofNat_lt.2 hkn⟩
      · rcases Nat.eq_zero_or_pos n with rfl | hnpos
        · obtain ⟨k, hk, hzero, hkm⟩ := exists_magnitude_between hn.2 hm.2 hmpos hneven hmeven
          refine ⟨true, k, hbelow hk hkm hm, ?_, ?_⟩
          · rw [signedUnits_true]
            omega
          · rw [signedUnits_true]
            omega
        · refine ⟨false, 0, isMagnitude_zero, ?_, ?_⟩
          · rw [signedUnits_false]
            omega
          · rw [signedUnits_false]
            omega

/-- Between two finite numbers with even significands there is another one. -/
theorem exists_toRat_between {x y : Binary64} (hx : x.isFinite = true) (hy : y.isFinite = true)
    (hlt : x.toRat < y.toRat) (hxeven : Even x.mantissa) (hyeven : Even y.mantissa) :
    ∃ z : Binary64, z.isFinite = true ∧ x.toRat < z.toRat ∧ z.toRat < y.toRat := by
  cases x with
  | finite s m hm =>
    cases y with
    | finite t n hn =>
      rw [toRat_lt_toRat_iff] at hlt
      obtain ⟨u, k, hk, hlow, hhigh⟩ := exists_signedUnits_between hm hn hlt hxeven hyeven
      exact ⟨finite u k hk, rfl, (toRat_lt_toRat_iff hm hk).2 hlow,
        (toRat_lt_toRat_iff hk hn).2 hhigh⟩
    | _ => cases hy
  | _ => cases hx

/-! ## The order of rounded numbers -/

theorem le_infinity {x : Binary64} (h : x ≠ .nan) : x ≤ .infinity false := by
  cases x with
  | nan => exact absurd rfl h
  | infinity s => cases s <;> exact rfl
  | finite s n hn => exact rfl

theorem infinity_le {x : Binary64} (h : x ≠ .nan) : .infinity true ≤ x := by
  cases x with
  | nan => exact absurd rfl h
  | infinity s => exact rfl
  | finite s n hn => exact rfl

theorem two_mul_le_of_abs_sub_le {a b r : Rat} (hab : a < b) (h : |r - a| ≤ |r - b|) :
    2 * r ≤ a + b := by
  by_contra hlt
  rw [not_le] at hlt
  have hclose : |r - b| < r - a := abs_lt.2 ⟨by linarith, by linarith⟩
  exact absurd (h.trans_lt hclose) (not_lt.2 (le_abs_self _))

theorem le_two_mul_of_abs_sub_le {a b r : Rat} (hab : a < b) (h : |r - b| ≤ |r - a|) :
    a + b ≤ 2 * r := by
  by_contra hlt
  rw [not_le] at hlt
  have hclose : |r - a| < b - r := abs_lt.2 ⟨by linarith, by linarith⟩
  rw [abs_sub_comm r b] at h
  exact absurd (h.trans_lt hclose) (not_lt.2 (le_abs_self _))

namespace IsNearestTo

variable {x y : Binary64} {r r' : Rat}

theorem ne_nan (h : x.IsNearestTo r) : x ≠ .nan := by
  rintro rfl
  rcases lt_or_ge |r| wholeOverflow with hlt | hge
  · cases h.finite hlt
  · cases h.infinite hge

theorem eq_infinity_of_le (h : x.IsNearestTo r) (hr : (wholeOverflow : Rat) ≤ r) :
    x = .infinity false := by
  have hpos : (0 : Rat) < r := lt_of_lt_of_le (Nat.cast_pos.2 wholeOverflow_pos) hr
  rw [h.infinite (hr.trans (le_abs_self r)), decide_eq_false (not_lt.2 hpos.le)]

theorem eq_infinity_of_le_neg (h : x.IsNearestTo r) (hr : r ≤ -(wholeOverflow : Rat)) :
    x = .infinity true := by
  have hpos : (0 : Rat) < wholeOverflow := Nat.cast_pos.2 wholeOverflow_pos
  have hneg : r < 0 := by linarith
  rw [h.infinite (le_abs.2 (.inr (le_neg_of_le_neg hr))), decide_eq_true hneg]

/-- Where two numbers are equally far away, both have even significands, and one between them is
closer. -/
theorem toRat_mono (hx : x.IsNearestTo r) (hy : y.IsNearestTo r') (hr : |r| < wholeOverflow)
    (hr' : |r'| < wholeOverflow) (h : r ≤ r') : x.toRat ≤ y.toRat := by
  by_contra hlt
  rw [not_le] at hlt
  have hlow := le_two_mul_of_abs_sub_le hlt (hx.close hr y (hy.finite hr'))
  have hhigh := two_mul_le_of_abs_sub_le hlt (hy.close hr' x (hx.finite hr))
  obtain rfl : r = r' := by linarith
  have htie : |r - x.toRat| = |r - y.toRat| := by
    have hmiddle : r - x.toRat = -(r - y.toRat) := by linarith
    rw [hmiddle, abs_neg]
  have hxeven := hx.even_of_tie hr y (hy.finite hr') hlt.ne' htie
  have hyeven := hy.even_of_tie hr x (hx.finite hr) hlt.ne htie.symm
  obtain ⟨z, hz, hyz, hzx⟩ := exists_toRat_between (hy.finite hr) (hx.finite hr) hlt hyeven hxeven
  have hcloser : |r - z.toRat| < x.toRat - r := abs_lt.2 ⟨by linarith, by linarith⟩
  have hxclose := hx.close hr z hz
  rw [abs_sub_comm r x.toRat] at hxclose
  exact absurd (hxclose.trans_lt hcloser) (not_lt.2 (le_abs_self _))

/-- Rounding keeps the order. -/
theorem mono (hx : x.IsNearestTo r) (hy : y.IsNearestTo r') (h : r ≤ r') : x ≤ y := by
  rcases le_or_gt (wholeOverflow : Rat) r' with hhigh | hhigh
  · rw [hy.eq_infinity_of_le hhigh]
    exact le_infinity hx.ne_nan
  · rcases le_or_gt r (-(wholeOverflow : Rat)) with hlow | hlow
    · rw [hx.eq_infinity_of_le_neg hlow]
      exact infinity_le hy.ne_nan
    · have hr : |r| < wholeOverflow := abs_lt.2 ⟨hlow, lt_of_le_of_lt h hhigh⟩
      have hr' : |r'| < wholeOverflow := abs_lt.2 ⟨lt_of_lt_of_le hlow h, hhigh⟩
      rw [← toRat_le_toRat_iff (hx.finite hr) (hy.finite hr')]
      exact hx.toRat_mono hy hr hr' h

end IsNearestTo

end VectorStyle.Binary64
