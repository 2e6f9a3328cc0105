import VectorStyle.Nearest

/-!
# Numbers of the 64-bit binary format

A finite number of the format is a sign and a whole number of *units*, the unit being `2⁻¹⁰⁷⁴`, the
smallest positive number. Not every whole number of units is a number of the format: a magnitude is
kept with 53 significant bits, so it is a multiple of its own step. `Binary64` carries that as a
proof field; nothing outside the format can be built.

Powers are written `Nat.pow`, which names the function itself and not an instance.

Exact results become numbers of the format by one rule, `Binary64.ofUnits`: the nearest multiple of
the step, a tie to the even one, and infinity from `2¹⁰²⁴` on.

Main statement: `pow_step_dvd_roundUnits`, rounding lands on a multiple of the step of its own
result, also where rounding up carries into the next power of two.
-/

set_option autoImplicit false

namespace VectorStyle

namespace Binary64

/-! ## Magnitudes -/

/-- How many units make one. -/
def one : Nat := Nat.pow 2 1074

/-- The first number of units that is out of range, `2¹⁰²⁴` in units. -/
def limit : Nat := Nat.pow 2 2098

/-- Magnitudes near `n` units lie `2 ^ step n` units apart: 53 bits are significant. -/
def step (n : Nat) : Nat := n.log2 - 52

/-- A number of units that the format can hold. -/
def IsMagnitude (n : Nat) : Prop := n < limit ∧ Nat.pow 2 (step n) ∣ n

instance (n : Nat) : Decidable (IsMagnitude n) := inferInstanceAs (Decidable (_ ∧ _))

/-- The multiple of the step nearest to `num / den` units, a tie going to the even multiple. -/
def roundUnits (num den : Nat) : Nat :=
  nearest num (den * Nat.pow 2 (step (num / den))) * Nat.pow 2 (step (num / den))

theorem div_pow_step_lt (q : Nat) : q / Nat.pow 2 (step q) < Nat.pow 2 53 := by
  show q / 2 ^ step q < 2 ^ 53
  rw [Nat.div_lt_iff_lt_mul (Nat.two_pow_pos _), ← Nat.pow_add]
  have h : q < 2 ^ (q.log2 + 1) := Nat.lt_log2_self
  exact Nat.lt_of_lt_of_le h (Nat.pow_le_pow_right (by omega) (by unfold step; omega))

/-- A multiple `m` of `2 ^ s` with `m ≤ 2 ^ 53` is a multiple of the step at its own size. -/
theorem pow_step_dvd_mul (m s : Nat) (h : m ≤ Nat.pow 2 53) :
    Nat.pow 2 (step (m * Nat.pow 2 s)) ∣ m * Nat.pow 2 s := by
  show 2 ^ step (m * 2 ^ s) ∣ m * 2 ^ s
  change m ≤ 2 ^ 53 at h
  rcases Nat.lt_or_eq_of_le h with hlt | rfl
  · have hstep : step (m * 2 ^ s) ≤ s := by
      unfold step
      rcases Nat.eq_zero_or_pos m with rfl | hpos
      · simp
      · have hne : m * 2 ^ s ≠ 0 := Nat.mul_ne_zero (by omega) (Nat.ne_of_gt (Nat.two_pow_pos s))
        have hlog : (m * 2 ^ s).log2 < 53 + s := by
          rw [Nat.log2_lt hne, Nat.pow_add]
          exact Nat.mul_lt_mul_of_pos_right hlt (Nat.two_pow_pos s)
        omega
    exact Nat.dvd_trans (Nat.pow_dvd_pow 2 hstep) (Nat.dvd_mul_left _ _)
  · rw [← Nat.pow_add]
    apply Nat.pow_dvd_pow
    unfold step
    rw [Nat.log2_two_pow]
    omega

theorem pow_step_dvd_roundUnits (num den : Nat) :
    Nat.pow 2 (step (roundUnits num den)) ∣ roundUnits num den := by
  apply pow_step_dvd_mul
  refine Nat.le_trans (nearest_le_div_succ _ _) ?_
  rw [← Nat.div_div_eq_div_mul]
  exact div_pow_step_lt _

end Binary64

/-! ## Numbers -/

/-- A number of the 64-bit binary format. Zero has two signs; all NaNs are one value. -/
inductive Binary64 where
  | nan
  | infinity (negative : Bool)
  | finite (negative : Bool) (units : Nat) (isMagnitude : Binary64.IsMagnitude units)
deriving DecidableEq

namespace Binary64

/-- The number nearest to `num / den` units, with the given sign. -/
def ofUnits (negative : Bool) (num den : Nat) : Binary64 :=
  if h : roundUnits num den < limit then
    .finite negative (roundUnits num den) ⟨h, pow_step_dvd_roundUnits num den⟩
  else .infinity negative

/-- The number nearest to `num / den`, with the given sign. -/
def ofRatio (negative : Bool) (num den : Nat) : Binary64 := ofUnits negative (num * one) den

/-- The number nearest to a whole number. -/
def ofInt (i : Int) : Binary64 := ofRatio (decide (i < 0)) i.natAbs 1

/-- The number, unless it is infinite. -/
def unlessInfinite : Binary64 → Option Binary64
  | infinity _ => none
  | x => some x

theorem unlessInfinite_eq_none_iff (x : Binary64) :
    x.unlessInfinite = none ↔ ∃ negative, x = .infinity negative := by
  cases x <;> simp [unlessInfinite]

/-- The number nearest to a whole number, if that is a finite one. -/
def ofInt? (i : Int) : Option Binary64 := (ofInt i).unlessInfinite

/-- The zero without a minus sign. -/
def zero : Binary64 := ofInt 0

instance : Inhabited Binary64 := ⟨zero⟩

/-- Neither infinite nor NaN. -/
def isFinite : Binary64 → Bool
  | finite .. => true
  | _ => false

/-- A finite number as a signed number of units; the two zeros are one here. -/
def signedUnits (negative : Bool) (units : Nat) : Int :=
  if negative then -(units : Int) else units

/-- The greatest whole number that is not above a finite number. -/
def floor? : Binary64 → Option Int
  | finite s n _ => some (signedUnits s n / (one : Int))
  | _ => none

/-! ## Order -/

/-- The order of the format. NaN is not comparable to anything, and the two zeros are equal. -/
def le : Binary64 → Binary64 → Bool
  | nan, _ => false
  | _, nan => false
  | infinity true, _ => true
  | _, infinity false => true
  | infinity false, _ => false
  | _, infinity true => false
  | finite s m _, finite t n _ => decide (signedUnits s m ≤ signedUnits t n)

instance : LE Binary64 := ⟨fun x y => x.le y = true⟩

instance (x y : Binary64) : Decidable (x ≤ y) := inferInstanceAs (Decidable (x.le y = true))

/-- Equality of numbers: the two zeros are equal and NaN equals nothing. -/
def same (x y : Binary64) : Bool := x.le y && y.le x

end Binary64

end VectorStyle
