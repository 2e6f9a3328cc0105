import VectorStyle.Proofs.Binary64.Order

/-!
# Scaling

A product by a positive number and a quotient by one are the exact results, rounded once: the
nearest number of the format, a tie going to the even significand, infinity out of range, and
multiples of the smallest positive number next to zero. The sign stays, and an infinite number stays
as it is. Each rounding keeps the order, and so does any row of roundings.

Main statements: `isScaled_mul` and `isScaled_div`, the operations; `IsScaled.mono` and
`ScaledBy.mono`.
-/

set_option autoImplicit false

namespace VectorStyle.Binary64

/-! ## Scaling once -/

/-- A number is scaled by a positive factor, and the exact result rounded. -/
structure IsScaled (factor : Rat) (x y : Binary64) : Prop where
  nearest : x.isFinite = true → y.IsNearestTo (factor * x.toRat)
  unchanged : x.isFinite = false → y = x
  isNegative : y.isNegative = x.isNegative

theorem ne_nan_of_le {x y : Binary64} (h : x ≤ y) : x ≠ .nan ∧ y ≠ .nan := by
  constructor
  · rintro rfl
    cases h
  · rintro rfl
    cases x <;> cases h

theorem isFinite_of_le {x y : Binary64} (h : x ≤ y) (hx : x ≠ infinity true)
    (hy : y ≠ infinity false) : x.isFinite = true ∧ y.isFinite = true := by
  cases x with
  | nan => cases h
  | infinity s =>
    cases s with
    | true => exact absurd rfl hx
    | false =>
      cases y with
      | infinity t =>
        cases t with
        | false => exact absurd rfl hy
        | true => cases h
      | _ => cases h
  | finite s m hm =>
    cases y with
    | nan => cases h
    | infinity t =>
      cases t with
      | false => exact absurd rfl hy
      | true => cases h
    | finite t n hn => exact ⟨rfl, rfl⟩

namespace IsScaled

variable {c : Rat} {x y x' y' : Binary64}

theorem ne_nan (h : IsScaled c x y) (hx : x ≠ .nan) : y ≠ .nan := by
  cases hfinite : x.isFinite with
  | true => exact (h.nearest hfinite).ne_nan
  | false =>
    rw [h.unchanged hfinite]
    exact hx

theorem of_not_isFinite (c : Rat) (h : x.isFinite = false) : IsScaled c x x where
  nearest hfinite := absurd (h.symm.trans hfinite) Bool.false_ne_true
  unchanged _ := rfl
  isNegative := rfl

/-- Scaling keeps the order. -/
theorem mono (hc : 0 < c) (hx : IsScaled c x x') (hy : IsScaled c y y') (h : x ≤ y) : x' ≤ y' := by
  obtain ⟨hxnan, hynan⟩ := ne_nan_of_le h
  rcases eq_or_ne x (infinity true) with rfl | hlow
  · rw [hx.unchanged rfl]
    exact infinity_le (hy.ne_nan hynan)
  · rcases eq_or_ne y (infinity false) with rfl | hhigh
    · rw [hy.unchanged rfl]
      exact le_infinity (hx.ne_nan hxnan)
    · obtain ⟨hxfinite, hyfinite⟩ := isFinite_of_le h hlow hhigh
      apply (hx.nearest hxfinite).mono (hy.nearest hyfinite)
      exact mul_le_mul_of_nonneg_left ((toRat_le_toRat_iff hxfinite hyfinite).2 h) hc.le

end IsScaled

/-! ## Scaling by several factors -/

/-- A number is scaled by one factor after the other, and each result is rounded. -/
inductive ScaledBy : List Rat → Binary64 → Binary64 → Prop
  | nil (x : Binary64) : ScaledBy [] x x
  | cons {c : Rat} {cs : List Rat} {x y z : Binary64} (h : IsScaled c x y)
      (hrest : ScaledBy cs y z) : ScaledBy (c :: cs) x z

theorem ScaledBy.mono {cs : List Rat} (hcs : ∀ c ∈ cs, 0 < c) {x y x' y' : Binary64}
    (hx : ScaledBy cs x x') (hy : ScaledBy cs y y') (h : x ≤ y) : x' ≤ y' := by
  induction hx generalizing y with
  | nil x =>
    cases hy with
    | nil => exact h
  | cons hfirst _ ih =>
    rw [List.forall_mem_cons] at hcs
    cases hy with
    | cons hfirst' hrest' => exact ih hcs.2 hrest' (IsScaled.mono hcs.1 hfirst hfirst' h)

/-! ## Products and quotients -/

protected theorem mul_comm (x y : Binary64) : x * y = y * x := by
  change mul x y = mul y x
  cases x <;> cases y <;> simp only [mul]
  case infinity.infinity s t => rw [bne_comm]
  case infinity.finite s t n hn => rw [bne_comm]
  case finite.infinity s m hm t => rw [bne_comm]
  case finite.finite s m hm t n hn => rw [bne_comm, Nat.mul_comm]

theorem exists_eq_finite_of_toRat_pos {d : Binary64} (hd : 0 < d.toRat) :
    ∃ n, ∃ hn : IsMagnitude n, 0 < n ∧ d = finite false n hn := by
  have hone : (0 : Rat) < (one : Nat) := Nat.cast_pos.2 one_pos
  cases d with
  | finite s n hn =>
    rw [toRat_finite, div_pos_iff_of_pos_right hone, Int.cast_pos] at hd
    cases s with
    | false => exact ⟨n, hn, Int.natCast_pos.1 hd, rfl⟩
    | true =>
      rw [signedUnits_true] at hd
      omega
  | _ => exact absurd hd (lt_irrefl 0)

theorem toRat_finite_eq_signedRat (s : Bool) {n : Nat} (hn : IsMagnitude n) :
    (finite s n hn).toRat = signedRat s ((n : Rat) / (one : Nat)) := by
  cases s with
  | false => rw [toRat_finite, signedUnits_false, Int.cast_natCast]; rfl
  | true => rw [toRat_finite, signedUnits_true, Int.cast_neg, Int.cast_natCast, neg_div]; rfl

theorem mul_signedRat (c : Rat) (s : Bool) (q : Rat) : c * signedRat s q = signedRat s (c * q) := by
  cases s with
  | false => rfl
  | true => exact mul_neg c q

theorem toRat_finite_false {n : Nat} (hn : IsMagnitude n) :
    (finite false n hn).toRat = (n : Rat) / (one : Nat) := toRat_finite_eq_signedRat false hn

/-- The product with a positive number. -/
theorem finite_mul_isNearestTo (s : Bool) {m n : Nat} (hm : IsMagnitude m) (hn : IsMagnitude n) :
    (ofUnits s (m * n) one).IsNearestTo ((finite false n hn).toRat * (finite s m hm).toRat) := by
  have hvalue : (n : Rat) / (one : Nat) * ((m : Rat) / (one : Nat)) =
      ((m * n : Nat) : Rat) / (one : Nat) / (one : Nat) := by
    generalize one = u
    rw [div_mul_div_comm, ← Nat.cast_mul, Nat.mul_comm n, div_div]
  rw [toRat_finite_false, toRat_finite_eq_signedRat, mul_signedRat, hvalue]
  exact ofUnits_isNearestTo s (m * n) one_pos

/-- The quotient by a positive number. -/
theorem finite_div_isNearestTo (s : Bool) {m n : Nat} (hm : IsMagnitude m) (hn : IsMagnitude n)
    (hpos : 0 < n) :
    (ofUnits s (m * one) n).IsNearestTo
      (1 / (finite false n hn).toRat * (finite s m hm).toRat) := by
  have hvalue : 1 / ((n : Rat) / (one : Nat)) * ((m : Rat) / (one : Nat)) =
      ((m * one : Nat) : Rat) / n / (one : Nat) := by
    generalize one = u
    rw [one_div_div, Nat.cast_mul, div_mul_div_comm, div_div, mul_comm (u : Rat)]
  rw [toRat_finite_false, toRat_finite_eq_signedRat, mul_signedRat, hvalue]
  exact ofUnits_isNearestTo s (m * one) hpos

/-- Multiplication by a positive number. -/
theorem isScaled_mul {d : Binary64} (hd : 0 < d.toRat) (x : Binary64) :
    IsScaled d.toRat x (x * d) := by
  obtain ⟨n, hn, hpos, rfl⟩ := exists_eq_finite_of_toRat_pos hd
  cases x with
  | nan => exact .of_not_isFinite _ rfl
  | infinity s =>
    have hproduct : infinity s * finite false n hn = infinity s := by
      change (if n = 0 then nan else infinity (s != false)) = infinity s
      rw [if_neg hpos.ne', Bool.bne_false]
    rw [hproduct]
    exact .of_not_isFinite _ rfl
  | finite s m hm =>
    rw [finite_mul_finite, Bool.bne_false]
    exact ⟨fun _ => finite_mul_isNearestTo s hm hn, fun h => absurd h.symm Bool.false_ne_true,
      ofUnits_isNegative s _ _⟩

/-- Division by a positive number. -/
theorem isScaled_div {d : Binary64} (hd : 0 < d.toRat) (x : Binary64) :
    IsScaled (1 / d.toRat) x (x / d) := by
  obtain ⟨n, hn, hpos, rfl⟩ := exists_eq_finite_of_toRat_pos hd
  cases x with
  | nan => exact .of_not_isFinite _ rfl
  | infinity s =>
    have hquotient : infinity s / finite false n hn = infinity s := by
      change infinity (s != false) = infinity s
      rw [Bool.bne_false]
    rw [hquotient]
    exact .of_not_isFinite _ rfl
  | finite s m hm =>
    rw [finite_div_finite _ _ _ _ hpos.ne', Bool.bne_false]
    exact ⟨fun _ => finite_div_isNearestTo s hm hn hpos, fun h => absurd h.symm Bool.false_ne_true,
      ofUnits_isNegative s _ _⟩

/-! ## Quotients of whole numbers -/

/-- A quotient of whole numbers is rounded to the nearest number of the format. -/
theorem ofRatio_isNearestTo (negative : Bool) (num : Nat) {den : Nat} (h : 0 < den) :
    (ofRatio negative num den).IsNearestTo (signedRat negative ((num : Rat) / den)) := by
  have hone : ((one : Nat) : Rat) ≠ 0 := Nat.cast_ne_zero.2 one_pos.ne'
  have hvalue : ((num * one : Nat) : Rat) / den / (one : Nat) = (num : Rat) / den := by
    generalize one = u at hone
    rw [Nat.cast_mul, div_right_comm, mul_div_cancel_right₀ _ hone]
  rw [← hvalue]
  exact ofUnits_isNearestTo negative (num * one) h

/-- So is a whole number. -/
theorem ofInt_isNearestTo (i : Int) : (ofInt i).IsNearestTo i := by
  have hvalue : signedRat (decide (i < 0)) (((i.natAbs : Nat) : Rat) / (1 : Nat)) = i := by
    rw [Nat.cast_one, div_one, Nat.cast_natAbs, Int.cast_abs]
    rcases lt_or_ge i 0 with hneg | hpos
    · have hcast : (i : Rat) ≤ 0 := Int.cast_nonpos.2 hneg.le
      rw [signedRat, decide_eq_true hneg, if_pos rfl, abs_of_nonpos hcast, neg_neg]
    · have hcast : (0 : Rat) ≤ i := Int.cast_nonneg hpos
      rw [signedRat, decide_eq_false (not_lt.2 hpos), if_neg Bool.false_ne_true,
        abs_of_nonneg hcast]
  have hnearest := ofRatio_isNearestTo (decide (i < 0)) i.natAbs Nat.one_pos
  rwa [hvalue] at hnearest

/-- A whole number of 53 bits has its own value. -/
theorem toRat_ofInt_natCast {k : Nat} (hk : k ≤ Nat.pow 2 53) : (ofInt k).toRat = k := by
  have hone : ((one : Nat) : Rat) ≠ 0 := Nat.cast_ne_zero.2 one_pos.ne'
  rw [ofInt_natCast hk, toRat_finite_false, Nat.cast_mul, mul_div_cancel_right₀ _ hone]

/-- What is not below one is not rounded below one. -/
theorem IsNearestTo.toRat_pos {x : Binary64} {r : Rat} (h : x.IsNearestTo r) (hone : 1 ≤ r)
    (hr : r < wholeOverflow) : 0 < x.toRat := by
  have hrange : |r| < wholeOverflow := by
    rwa [abs_of_nonneg (zero_le_one.trans hone)]
  have hclose := h.close hrange (ofInt (1 : Nat)) ?_
  · rw [toRat_ofInt_natCast (by decide), Nat.cast_one, abs_of_nonneg (sub_nonneg.2 hone)] at hclose
    have habove := le_abs_self (r - x.toRat)
    linarith
  · rw [ofInt_natCast (by decide)]
    rfl

theorem toRat_ofRatio_pos {num den : Nat} (h : 0 < den) (hle : den ≤ num)
    (hlt : num < den * wholeOverflow) : 0 < (ofRatio false num den).toRat := by
  have hden : (0 : Rat) < den := Nat.cast_pos.2 h
  apply (ofRatio_isNearestTo false num h).toRat_pos
  · rw [signedRat, if_neg Bool.false_ne_true, one_le_div hden]
    exact Nat.cast_le.2 hle
  · rw [signedRat, if_neg Bool.false_ne_true, div_lt_iff₀' hden, ← Nat.cast_mul]
    exact Nat.cast_lt.2 hlt

theorem toRat_ofInt_pos {i : Int} (hpos : 1 ≤ i) (hlt : i < wholeOverflow) :
    0 < (ofInt i).toRat := by
  apply (ofInt_isNearestTo i).toRat_pos
  · exact_mod_cast hpos
  · exact_mod_cast hlt

theorem isScaled_ofInt_mul {k : Nat} (hpos : 0 < k) (hk : k ≤ Nat.pow 2 53) (x : Binary64) :
    IsScaled k x (ofInt k * x) := by
  have hvalue := toRat_ofInt_natCast hk
  have hscaled := isScaled_mul (d := ofInt k) (by rw [hvalue]; exact Nat.cast_pos.2 hpos) x
  rwa [hvalue, Binary64.mul_comm] at hscaled

theorem isScaled_div_ofInt {k : Nat} (hpos : 0 < k) (hk : k ≤ Nat.pow 2 53) (x : Binary64) :
    IsScaled (1 / k) x (x / ofInt k) := by
  have hvalue := toRat_ofInt_natCast hk
  have hscaled := isScaled_div (d := ofInt k) (by rw [hvalue]; exact Nat.cast_pos.2 hpos) x
  rwa [hvalue] at hscaled

end VectorStyle.Binary64
