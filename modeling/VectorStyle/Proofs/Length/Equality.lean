import VectorStyle.Proofs.Binary64.Order
import VectorStyle.Proofs.Length.Percentages

/-!
# Lengths that are the same are written alike

Two numbers are the same if they are one number other than NaN, or if they are the two zeros. No
text shows which zero it is of. Rounded to four places, a zero is written without a sign, as all
that rounds to zero is. As a percentage, the hundredfold of a zero is a zero again, and the whole
number that it is rounded down to has no sign.

Main statements: `Binary64.same_iff`, which numbers are the same; `Length.text_zeroOf`, how a zero
is written in every unit; and `Length.text_eq_of_same`.
-/

set_option autoImplicit false

namespace VectorStyle

/-! ## Numbers -/

namespace Binary64

/-- The zero with a given sign. -/
def zeroOf (negative : Bool) : Binary64 := .finite negative 0 isMagnitude_zero

theorem signedUnits_zero (negative : Bool) : signedUnits negative 0 = 0 := by cases negative <;> rfl

theorem signedUnits_eq_iff {s t : Bool} {m n : Nat} :
    signedUnits s m = signedUnits t n ↔ m = n ∧ (s = t ∨ n = 0) := by
  cases s <;> cases t <;> simp [signedUnits] <;> omega

theorem finite_same_finite_iff {s t : Bool} {m n : Nat} (hm : IsMagnitude m) (hn : IsMagnitude n) :
    (finite s m hm).same (finite t n hn) = true ↔ signedUnits s m = signedUnits t n := by
  rw [same, le, le, Bool.and_eq_true, decide_eq_true_iff, decide_eq_true_iff, ← Int.le_antisymm_iff]

theorem same_self {x : Binary64} (h : x ≠ .nan) : x.same x = true := by
  cases x with
  | nan => exact absurd rfl h
  | infinity s => cases s <;> rfl
  | finite s n hn => exact (finite_same_finite_iff hn hn).2 rfl

theorem zeroOf_same_zeroOf (s t : Bool) : (zeroOf s).same (zeroOf t) = true := by
  rw [zeroOf, zeroOf, finite_same_finite_iff, signedUnits_zero, signedUnits_zero]

/-- Numbers that are the same differ in the sign of a zero at most. -/
theorem same_iff {x y : Binary64} :
    x.same y = true ↔ (x = y ∧ x ≠ .nan) ∨ ∃ s t, x = zeroOf s ∧ y = zeroOf t := by
  constructor
  · intro h
    cases x with
    | nan => cases h
    | infinity s =>
      cases y with
      | nan => cases s <;> cases h
      | infinity t =>
        obtain rfl : s = t := by
          revert h
          cases s <;> cases t <;> decide
        exact .inl ⟨rfl, by simp⟩
      | finite t n hn => cases s <;> cases h
    | finite s m hm =>
      cases y with
      | nan => cases h
      | infinity t => cases t <;> cases h
      | finite t n hn =>
        rw [finite_same_finite_iff, signedUnits_eq_iff] at h
        obtain ⟨rfl, rfl | rfl⟩ := h
        · exact .inl ⟨rfl, by simp⟩
        · exact .inr ⟨s, t, rfl, rfl⟩
  · rintro (⟨rfl, hne⟩ | ⟨s, t, rfl, rfl⟩)
    · exact same_self hne
    · exact zeroOf_same_zeroOf s t

/-- A whole multiple of a zero is that zero. -/
theorem ofInt_mul_zeroOf {k : Nat} (hk : k ≤ Nat.pow 2 53) (negative : Bool) :
    ofInt k * zeroOf negative = zeroOf negative := by
  rw [zeroOf, ofInt_mul_finite hk, Nat.mul_zero,
    ofUnits_eq_finite isMagnitude_zero (roundUnits_zero 1)]

theorem floor?_zeroOf (negative : Bool) : (zeroOf negative).floor? = some 0 := by
  rw [zeroOf, floor?, signedUnits_zero, Int.zero_ediv]

end Binary64

theorem Decimal.format_zeroOf (negative : Bool) : Decimal.format (.zeroOf negative) = "0" := by
  have hscaled : Decimal.scaled 0 = 0 := by simp [Decimal.scaled, nearest]
  have htext : Decimal.text Decimal.places 0 = ['0'] := by decide
  rw [Binary64.zeroOf, Decimal.format, hscaled, htext, bne_self_eq_false, Bool.and_false]
  rfl

/-! ## Lengths -/

namespace Length

theorem percentText_zeroOf (negative : Bool) : percentText (.zeroOf negative) = "0" := by
  have hproduct : Binary64.ofInt 100 * .zeroOf negative = .zeroOf negative :=
    Binary64.ofInt_mul_zeroOf (k := 100) (by decide) negative
  have hfloor := Binary64.floor?_zeroOf negative
  rw [← hproduct] at hfloor
  exact percentText_eq hfloor

/-- A zero is written without a sign, in every unit. -/
theorem text_zeroOf (negative : Bool) (u : LengthUnit) :
    text ⟨.zeroOf negative, u⟩ = "0" ++ u.suffix := by
  rw [text, percentText_zeroOf, Decimal.format_zeroOf, ite_self]

theorem text_eq_of_same {l m : Length} (h : l.same m = true) : l.text = m.text := by
  obtain ⟨x, u⟩ := l
  obtain ⟨y, v⟩ := m
  rw [same, Bool.and_eq_true, Binary64.same_iff, beq_iff_eq] at h
  obtain ⟨⟨rfl, -⟩ | ⟨s, t, rfl, rfl⟩, rfl⟩ := h
  · rfl
  · rw [text_zeroOf, text_zeroOf]

end Length

end VectorStyle
