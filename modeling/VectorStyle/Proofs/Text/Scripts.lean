import VectorStyle.Text.Blank
import VectorStyle.Text.Digit

/-!
# Letters and digits among other characters

The digits of every script lie apart from the blanks, and those of ASCII are the only ones below the
128th code point. So a digit is told from every sign, point, ASCII letter and blank. Each digit
stands for the ASCII digit with its value, and a row of digits in whatever scripts for the row of
these.

Main statements: `toNat_of_isAlpha`, `toNat_of_isDigit` and `isBlank_of_isDigit`; `value?_toAscii`
and `number_map_toAscii`.
-/

set_option autoImplicit false

namespace VectorStyle.Text

/-! ## Letters -/

theorem toNat_of_isUpper {c : Char} (h : c.isUpper = true) : 65 ≤ c.toNat ∧ c.toNat ≤ 90 :=
  of_decide_eq_true h

theorem toNat_of_isLower {c : Char} (h : c.isLower = true) : 97 ≤ c.toNat ∧ c.toNat ≤ 122 := by
  obtain ⟨hlo, hhi⟩ := Bool.and_eq_true_iff.1 h
  exact ⟨of_decide_eq_true hlo, of_decide_eq_true hhi⟩

theorem toNat_of_isAlpha {c : Char} (h : c.isAlpha = true) : 65 ≤ c.toNat ∧ c.toNat ≤ 122 := by
  rcases Bool.or_eq_true_iff.1 h with hupper | hlower
  · have := toNat_of_isUpper hupper
    omega
  · have := toNat_of_isLower hlower
    omega

/-- What has an upper-case letter of ASCII for its upper case is a letter of ASCII itself. -/
theorem toNat_of_isUpper_toUpper {c : Char} (h : c.toUpper.isUpper = true) :
    65 ≤ c.toNat ∧ c.toNat ≤ 122 := by
  by_cases hlower : 97 ≤ c.toNat ∧ c.toNat ≤ 122
  · omega
  · have hkeep : c.toUpper = c := dif_neg hlower
    rw [hkeep] at h
    have := toNat_of_isUpper h
    omega

/-- What is printed of ASCII is no blank. -/
theorem isBlank_of_toNat {c : Char} (h : 33 ≤ c.toNat ∧ c.toNat ≤ 126) : isBlank c = false := by
  simp only [isBlank, Bool.or_eq_false_iff, Bool.and_eq_false_iff, decide_eq_false_iff_not,
    beq_eq_false_iff_ne]
  omega

/-! ## Digits -/

namespace Digit

/-- A digit is less than ten places after the zero of its script. -/
theorem exists_zero_of_isDigit {c : Char} (h : isDigit c = true) :
    ∃ z ∈ zeros, z ≤ c.toNat ∧ c.toNat < z + 10 ∧ value? c = some (c.toNat - z) := by
  rw [isDigit, value?, Option.isSome_map, Option.isSome_iff_exists] at h
  obtain ⟨z, hz⟩ := h
  have hrange : z ≤ c.toNat ∧ c.toNat < z + 10 := by simpa using List.find?_some hz
  exact ⟨z, List.mem_of_find?_eq_some hz, hrange.1, hrange.2, by rw [value?, hz, Option.map_some]⟩

theorem toNat_of_isDigit {c : Char} (h : isDigit c = true) :
    48 ≤ c.toNat ∧ c.toNat ≤ 57 ∨ 128 ≤ c.toNat := by
  have hzeros : ∀ z ∈ zeros, z = 48 ∨ 128 ≤ z := by decide
  obtain ⟨z, hz, hlo, hhi, -⟩ := exists_zero_of_isDigit h
  have := hzeros z hz
  omega

/-- No digit of any script is a blank: the blanks beyond ASCII lie between the scripts. -/
theorem isBlank_of_isDigit {c : Char} (h : isDigit c = true) : isBlank c = false := by
  have hzeros : ∀ z ∈ zeros, z = 0x30 ∨ 0xa0 < z ∧ z + 10 ≤ 0x1680 ∨
      0x1680 < z ∧ z + 10 ≤ 0x2000 ∨ 0x3000 < z := by decide
  obtain ⟨z, hz, hlo, hhi, -⟩ := exists_zero_of_isDigit h
  have := hzeros z hz
  simp only [isBlank, Bool.or_eq_false_iff, Bool.and_eq_false_iff, decide_eq_false_iff_not,
    beq_eq_false_iff_ne]
  omega

/-- The ASCII digit with the value of a digit; other characters stay. -/
def toAscii (c : Char) : Char :=
  match value? c with
  | some d => Nat.digitChar d
  | none => c

theorem toAscii_of_not_isDigit {c : Char} (h : isDigit c = false) : toAscii c = c := by
  rw [isDigit, Option.isSome_eq_false_iff, Option.isNone_iff_eq_none] at h
  rw [toAscii, h]

theorem value?_toAscii (c : Char) : value? (toAscii c) = value? c := by
  have hdigits : ∀ d < 10, value? (Nat.digitChar d) = some d := by decide
  cases h : isDigit c with
  | false => rw [toAscii_of_not_isDigit h]
  | true =>
    obtain ⟨z, -, hlo, hhi, hvalue⟩ := exists_zero_of_isDigit h
    rw [toAscii, hvalue]
    exact hdigits _ (by omega)

theorem isDigit_toAscii (c : Char) : isDigit (toAscii c) = isDigit c := by
  rw [isDigit, isDigit, value?_toAscii]

theorem isDigit_of_mem_map_toAscii {cs : List Char} (h : ∀ c ∈ cs, isDigit c = true) :
    ∀ c ∈ cs.map toAscii, isDigit c = true := by
  rw [List.forall_mem_map]
  intro c hc
  rw [isDigit_toAscii]
  exact h c hc

theorem number_map_toAscii (cs : List Char) : number (cs.map toAscii) = number cs := by
  rw [number, number, List.foldl_map]
  simp only [value?_toAscii]

end Digit

end VectorStyle.Text
