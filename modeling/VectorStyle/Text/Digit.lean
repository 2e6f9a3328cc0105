/-!
# Decimal digits of every script

A decimal digit is a character of the general category Nd. These characters come in runs of ten, so
a table of the zeros gives every digit's value.

Main statement: `value?_of_ascii`, the ASCII digits have the value that core gives them.
-/

set_option autoImplicit false

namespace VectorStyle.Text.Digit

/-- The code points of the zeros, one for each script's run of ten digits. -/
def zeros : List Nat := [
  0x30, 0x660, 0x6f0, 0x7c0, 0x966, 0x9e6, 0xa66, 0xae6, 0xb66, 0xbe6, 0xc66, 0xce6, 0xd66, 0xde6,
  0xe50, 0xed0, 0xf20, 0x1040, 0x1090, 0x17e0, 0x1810, 0x1946, 0x19d0, 0x1a80, 0x1a90, 0x1b50,
  0x1bb0, 0x1c40, 0x1c50, 0xa620, 0xa8d0, 0xa900, 0xa9d0, 0xa9f0, 0xaa50, 0xabf0, 0xff10, 0x104a0,
  0x10d30, 0x11066, 0x110f0, 0x11136, 0x111d0, 0x112f0, 0x11450, 0x114d0, 0x11650, 0x116c0,
  0x11730, 0x118e0, 0x11950, 0x11c50, 0x11d50, 0x11da0, 0x16a60, 0x16ac0, 0x16b50, 0x1d7ce,
  0x1d7d8, 0x1d7e2, 0x1d7ec, 0x1d7f6, 0x1e140, 0x1e2f0, 0x1e950, 0x1fbf0]

/-- The value of a decimal digit. -/
def value? (c : Char) : Option Nat :=
  (zeros.find? fun z => z ≤ c.toNat && c.toNat < z + 10).map fun z => c.toNat - z

/-- Whether a character is a decimal digit. -/
def isDigit (c : Char) : Bool := (value? c).isSome

/-- The number that a row of digits denotes, the most significant first. Characters that are no
digits count as zeros. -/
def number (cs : List Char) : Nat := cs.foldl (fun n c => 10 * n + (value? c).getD 0) 0

theorem value?_of_ascii (c : Char) (h : c.isDigit = true) : value? c = some (c.toNat - 48) := by
  have hrange : 48 ≤ c.toNat ∧ c.toNat < 58 := by
    simp only [Char.isDigit, Bool.and_eq_true, decide_eq_true_eq] at h
    exact ⟨h.1, Nat.lt_succ_of_le h.2⟩
  have hfind : (zeros.find? fun z => z ≤ c.toNat && c.toNat < z + 10) = some 0x30 := by
    unfold zeros
    rw [List.find?_cons_of_pos]
    simp only [Bool.and_eq_true, decide_eq_true_eq]
    omega
  simp [value?, hfind]

end VectorStyle.Text.Digit
