import VectorStyle.Proofs.Binary64.Rounding

/-!
# A hundredth, and the hundredfold of it

A number of the format is divided by one hundred and the quotient is multiplied by one hundred, each
of the two rounded once. What comes back is not always the number one began with.

Write the number with 53 significant bits. The quotient needs a finer step than the number, by six
or by seven powers of two, and the product is rounded to the step of the number again. With seven
powers to spare the error of the quotient stays below half a step, and the number is found again.
With six powers it may exceed that, and then the last place goes down or up by one. Which of the two
happens is a matter of the significand modulo fifty.

Main statements: `nearest_hundredfold`, the case with six powers; `roundUnits_hundredfold`, the
significand that comes back; `roundUnits_hundredfold_div_one`, the whole number that comes back from
a whole number below `2⁵³`, rounded down; and `floor?_hundredfold`, the same in the arithmetic of
the format.
-/

set_option autoImplicit false

namespace VectorStyle.Binary64

/-! ## Significands -/

/-- Remainders modulo fifty of the significands that come back one lower. -/
def lowered : List Nat := [7, 10, 13, 21, 24, 32, 35, 46, 49]

/-- Remainders modulo fifty of the significands that come back one higher. -/
def raised : List Nat := [1, 4, 15, 18, 26, 29, 37, 40, 43]

/-- From this significand on the quotient by one hundred has only six powers of two to spare. -/
def coarseFrom : Nat := 25 * Nat.pow 2 48

/-- What comes back of a significand of 53 bits. -/
def returned (n : Nat) : Nat :=
  if n < coarseFrom then n
  else if n % 50 ∈ lowered then n - 1
  else if n % 50 ∈ raised then n + 1
  else n

/-- Two roundings, to multiples of one hundred and of sixty-four, on the way from `64 * n` back to
`n`. -/
theorem nearest_hundredfold {n : Nat} (h : coarseFrom ≤ n) :
    nearest (100 * nearest (64 * n) 100) 64 = returned n := by
  -- both roundings are the same for all significands that differ by a multiple of fifty
  have hperiod : nearest (100 * nearest (64 * n) 100) 64 =
      nearest (100 * nearest (64 * (n % 50)) 100) 64 + 50 * (n / 50) := by
    have hinner : 64 * n = 64 * (n % 50) + 2 * (16 * (n / 50)) * 100 := by omega
    have houter : 100 * (nearest (64 * (n % 50)) 100 + 2 * (16 * (n / 50))) =
        100 * nearest (64 * (n % 50)) 100 + 2 * (25 * (n / 50)) * 64 := by omega
    rw [hinner, nearest_add_mul _ _ _ (by omega), houter, nearest_add_mul _ _ _ (by omega)]
    omega
  have hremainders : ∀ r < 50,
      (r ∈ lowered → nearest (100 * nearest (64 * r) 100) 64 + 1 = r) ∧
        (r ∈ raised → nearest (100 * nearest (64 * r) 100) 64 = r + 1) ∧
          (r ∉ lowered → r ∉ raised → nearest (100 * nearest (64 * r) 100) 64 = r) := by
    decide
  obtain ⟨hlow, hhigh, hsame⟩ := hremainders (n % 50) (Nat.mod_lt n (by omega))
  rw [hperiod, returned, if_neg (by omega)]
  split
  case isTrue hmem =>
    have := hlow hmem
    omega
  case isFalse hlower =>
    split
    case isTrue hmem =>
      have := hhigh hmem
      omega
    case isFalse hraise =>
      have := hsame hlower hraise
      omega

/-- With `e` powers of two to spare the quotient by one hundred is rounded to a whole number of its
steps, and the product to a multiple of `2 ^ e` of them. -/
theorem roundUnits_hundredfold_spare {n e c : Nat} (hc : Nat.pow 2 e = c)
    (hlo : 100 * Nat.pow 2 52 ≤ n * c) (hhi : n * c < 100 * Nat.pow 2 53)
    (hlo' : c * Nat.pow 2 52 ≤ 100 * nearest (n * c) 100)
    (hhi' : 100 * nearest (n * c) 100 < c * Nat.pow 2 53) (s : Nat) :
    roundUnits (100 * roundUnits (n * Nat.pow 2 (s + e)) 100) 1 =
      nearest (100 * nearest (n * c) 100) c * Nat.pow 2 (s + e) := by
  subst hc
  have hscale : n * Nat.pow 2 (s + e) = n * Nat.pow 2 e * Nat.pow 2 s := by
    rw [Nat.add_comm, pow_add, Nat.mul_assoc]
  have hquotient : roundUnits (n * Nat.pow 2 e * Nat.pow 2 s) 100 =
      nearest (n * Nat.pow 2 e) 100 * Nat.pow 2 s := by
    rw [← Nat.zero_add 52] at hlo
    rw [← Nat.zero_add 53] at hhi
    exact roundUnits_mul_pow hlo hhi s
  have hproduct : roundUnits (100 * nearest (n * Nat.pow 2 e) 100 * Nat.pow 2 s) 1 =
      nearest (100 * nearest (n * Nat.pow 2 e) 100) (1 * Nat.pow 2 e) * Nat.pow 2 (s + e) := by
    apply roundUnits_mul_pow
    · rwa [Nat.one_mul, pow_add]
    · rwa [Nat.one_mul, pow_add]
  rw [hscale, hquotient, ← Nat.mul_assoc, hproduct, Nat.one_mul]

/-- The hundredfold of the hundredth of a number with 53 significant bits. -/
theorem roundUnits_hundredfold {n : Nat} (hlo : Nat.pow 2 52 ≤ n) (hhi : n < Nat.pow 2 53)
    (s : Nat) :
    roundUnits (100 * roundUnits (n * Nat.pow 2 (s + 7)) 100) 1 =
      returned n * Nat.pow 2 (s + 7) := by
  have hfrom : coarseFrom = 7036874417766400 := rfl
  have hfirst : Nat.pow 2 52 = 4503599627370496 := rfl
  have hlast : Nat.pow 2 53 = 9007199254740992 := rfl
  rcases Nat.lt_or_ge n coarseFrom with hfine | hcoarse
  · have hup := two_mul_nearest_le (n * 128) 100 (by omega)
    have hdown := le_two_mul_nearest (n * 128) 100 (by omega)
    have hseven : Nat.pow 2 7 = 128 := rfl
    -- the first rounding moves by at most fifty, half a step of the second one is sixty-four
    have hback : nearest (100 * nearest (n * 128) 100) 128 = n := by
      apply nearest_eq_of_close
      · omega
      · omega
    rw [roundUnits_hundredfold_spare hseven, hback, returned, if_pos hfine]
    all_goals omega
  · have hup := two_mul_nearest_le (n * 64) 100 (by omega)
    have hdown := le_two_mul_nearest (n * 64) 100 (by omega)
    have hsix : Nat.pow 2 6 = 64 := rfl
    have hback : nearest (100 * nearest (n * 64) 100) 64 = returned n := by
      rw [Nat.mul_comm n]
      exact nearest_hundredfold hcoarse
    have hshift : s + 7 = s + 1 + 6 := by omega
    rw [hshift, roundUnits_hundredfold_spare hsix, hback]
    all_goals omega

/-! ## Whole numbers -/

/-- A whole number with as many factors of two as make 53 significant bits. -/
def significand (p : Nat) : Nat := p * Nat.pow 2 (52 - p.log2)

/-- The whole numbers that come back one lower. -/
def FallsShort (p : Nat) : Prop := coarseFrom ≤ significand p ∧ significand p % 50 ∈ lowered

/-- The whole numbers that come back one higher. Their last place is the ones. -/
def Overshoots (p : Nat) : Prop := coarseFrom ≤ p ∧ p % 50 ∈ raised

instance (p : Nat) : Decidable (FallsShort p) := inferInstanceAs (Decidable (_ ∧ _))

instance (p : Nat) : Decidable (Overshoots p) := inferInstanceAs (Decidable (_ ∧ _))

/-- What comes back of a whole number, rounded down. -/
def broughtBack (p : Nat) : Nat :=
  if FallsShort p then p - 1 else if Overshoots p then p + 1 else p

theorem broughtBack_eq_self_iff (p : Nat) :
    broughtBack p = p ↔ ¬ FallsShort p ∧ ¬ Overshoots p := by
  have hpos : FallsShort p → 0 < p := by
    intro hfalls
    rcases Nat.eq_zero_or_pos p with rfl | hpos
    · exact absurd hfalls (by decide)
    · exact hpos
  rw [broughtBack]
  split
  case isTrue hfalls =>
    have := hpos hfalls
    constructor
    · intro h
      omega
    · intro h
      exact absurd hfalls h.1
  case isFalse hfalls =>
    split
    case isTrue hover =>
      constructor
      · intro h
        omega
      · intro h
        exact absurd hover h.2
    case isFalse hover => exact ⟨fun _ => ⟨hfalls, hover⟩, fun _ => rfl⟩

example : (broughtBack 28, broughtBack 29, broughtBack 30) = (28, 28, 30) := by decide

theorem log2_le_of_lt {p : Nat} (hp : p < Nat.pow 2 53) : p.log2 ≤ 52 := by
  rcases Nat.eq_zero_or_pos p with rfl | hpos
  · simp
  · exact Nat.le_of_lt_succ ((Nat.log2_lt (by omega)).2 hp)

theorem significand_bounds {p : Nat} (hpos : 0 < p) (hp : p < Nat.pow 2 53) :
    Nat.pow 2 52 ≤ significand p ∧ significand p < Nat.pow 2 53 := by
  have hlog := log2_le_of_lt hp
  have hlo : Nat.pow 2 p.log2 ≤ p := Nat.log2_self_le (by omega)
  have hhi : p < Nat.pow 2 (p.log2 + 1) := Nat.lt_log2_self
  have hshift := pow_pos (52 - p.log2)
  rw [significand]
  constructor
  · calc Nat.pow 2 52 = Nat.pow 2 (p.log2 + (52 - p.log2)) := by rw [Nat.add_sub_cancel' hlog]
      _ = Nat.pow 2 p.log2 * Nat.pow 2 (52 - p.log2) := pow_add _ _
      _ ≤ p * Nat.pow 2 (52 - p.log2) := Nat.mul_le_mul_right _ hlo
  · calc p * Nat.pow 2 (52 - p.log2)
        < Nat.pow 2 (p.log2 + 1) * Nat.pow 2 (52 - p.log2) := Nat.mul_lt_mul_of_pos_right hhi hshift
      _ = Nat.pow 2 (p.log2 + 1 + (52 - p.log2)) := (pow_add _ _).symm
      _ = Nat.pow 2 53 := by rw [Nat.add_right_comm, Nat.add_sub_cancel' hlog]

/-- The powers of two from the last place of a significand up to the ones, and below it. -/
theorem one_eq_mul {p : Nat} (hp : p < Nat.pow 2 53) :
    one = Nat.pow 2 (52 - p.log2) * Nat.pow 2 (1015 + p.log2 + 7) := by
  have hexponent : 1074 = 52 - p.log2 + (1015 + p.log2 + 7) := by
    have hlog := log2_le_of_lt hp
    omega
  unfold one
  rw [hexponent]
  apply pow_add

/-- The last place of the significand stands for the ones, or else for a fraction. -/
theorem significand_eq_or (p : Nat) :
    (Nat.pow 2 (52 - p.log2) = 1 ∧ significand p = p) ∨
      (2 ≤ Nat.pow 2 (52 - p.log2) ∧ ¬ Overshoots p) := by
  rcases Nat.lt_or_ge p.log2 52 with hlog | hlog
  · right
    constructor
    · exact pow_le_pow (s := 1) (by omega)
    · rintro ⟨hlarge, -⟩
      have hfirst : Nat.pow 2 52 ≤ p := Nat.le_trans (by decide) hlarge
      have hpos := pow_pos 52
      exact absurd ((Nat.le_log2 (by omega)).2 hfirst) (by omega)
  · left
    rw [significand, Nat.sub_eq_zero_of_le hlog]
    exact ⟨rfl, Nat.mul_one p⟩

/-- The whole number of the significand that comes back. -/
theorem returned_significand_div {p : Nat} (hpos : 0 < p) :
    returned (significand p) / Nat.pow 2 (52 - p.log2) = broughtBack p := by
  have hplace := significand_eq_or p
  have hshift := pow_pos (52 - p.log2)
  have hge : p ≤ significand p := Nat.le_mul_of_pos_right p hshift
  have hdef : significand p = p * Nat.pow 2 (52 - p.log2) := rfl
  have hbelow : (p - 1) * Nat.pow 2 (52 - p.log2) + Nat.pow 2 (52 - p.log2) = significand p := by
    rw [← Nat.succ_mul, Nat.succ_eq_add_one, Nat.sub_add_cancel hpos, hdef]
  have hexact : significand p / Nat.pow 2 (52 - p.log2) = p := Nat.mul_div_cancel p hshift
  rw [returned, broughtBack]
  split
  case isTrue hfine =>
    have hfalls : ¬ FallsShort p := fun h => absurd h.1 (by omega)
    have hover : ¬ Overshoots p := fun h => absurd h.1 (by omega)
    rw [if_neg hfalls, if_neg hover, hexact]
  case isFalse hcoarse =>
    split
    case isTrue hlow =>
      have hfalls : FallsShort p := ⟨by omega, hlow⟩
      rw [if_pos hfalls]
      apply Nat.div_eq_of_lt_le
      · omega
      · rw [Nat.succ_mul]
        omega
    case isFalse hlow =>
      have hfalls : ¬ FallsShort p := fun h => hlow h.2
      rw [if_neg hfalls]
      rcases hplace with ⟨hone, hsame⟩ | ⟨hfraction, hover⟩
      · -- the last place is the ones
        rw [hone, Nat.div_one, hsame]
        rw [hsame] at hcoarse
        have hover : Overshoots p ↔ p % 50 ∈ raised := and_iff_right (by omega)
        simp only [hover]
      · -- one more in the last place is less than a whole
        rw [if_neg hover]
        split
        · apply Nat.div_eq_of_lt_le
          · omega
          · rw [Nat.succ_mul]
            omega
        · exact hexact

/-- The hundredfold of the hundredth of a whole number, rounded down to a whole number. -/
theorem roundUnits_hundredfold_div_one {p : Nat} (hp : p < Nat.pow 2 53) :
    roundUnits (100 * roundUnits (p * one) 100) 1 / one = broughtBack p := by
  rcases Nat.eq_zero_or_pos p with rfl | hpos
  · have hzero : broughtBack 0 = 0 := by decide
    rw [Nat.zero_mul, roundUnits_zero, Nat.mul_zero, roundUnits_zero, Nat.zero_div, hzero]
  · obtain ⟨hlo, hhi⟩ := significand_bounds hpos hp
    rw [one_eq_mul hp, ← Nat.mul_assoc, ← significand, roundUnits_hundredfold hlo hhi,
      Nat.mul_div_mul_right _ _ (pow_pos _), returned_significand_div hpos]

/-- In the arithmetic of the format: a whole number by one hundred, and the quotient by one hundred
again. -/
theorem floor?_hundredfold {p : Nat} (hp : p < Nat.pow 2 53) :
    (ofInt 100 * (ofInt p / ofInt 100)).floor? = some (broughtBack p : Int) := by
  have hhundred : (100 : Int) = ((100 : Nat) : Int) := rfl
  have hbound : 100 ≤ Nat.pow 2 53 := by decide
  have hback := roundUnits_hundredfold_div_one hp
  -- both results are far below the limit
  have hstep : step (p * one / 100) ≤ 0 + 1074 :=
    Nat.le_trans (step_mono (Nat.div_le_self _ _)) (step_mul_one_le hp)
  have hquotient : IsMagnitude (roundUnits (p * one) 100) := isMagnitude_roundUnits (by omega)
  have hproduct : IsMagnitude (roundUnits (100 * roundUnits (p * one) 100) 1) := by
    have hhundredth : 0 < 100 := by omega
    have hup := two_mul_roundUnits_le (p * one) hhundredth
    have hpow : Nat.pow 2 (step (p * one / 100)) ≤ one := pow_le_one (by omega)
    have hle : 100 * roundUnits (p * one) 100 / 1 ≤ (p + 50) * one := by
      rw [Nat.add_mul]
      omega
    have hlast : p + 50 < Nat.pow 2 (1 + 53) := by
      have hdouble : Nat.pow 2 (1 + 53) = 2 * Nat.pow 2 53 := rfl
      have hfifty : 50 ≤ Nat.pow 2 53 := by decide
      omega
    have hstep' := Nat.le_trans (step_mono hle) (step_mul_one_le hlast)
    exact isMagnitude_roundUnits (by omega)
  rw [hhundred, ofInt_natCast (Nat.le_of_lt hp), finite_div_ofInt _ _ (by omega) hbound,
    ofUnits_eq_finite hquotient rfl, ofInt_mul_finite hbound, ofUnits_eq_finite hproduct rfl]
  rw [floor?, signedUnits, if_neg Bool.false_ne_true, ← Int.natCast_ediv, hback]

end VectorStyle.Binary64
