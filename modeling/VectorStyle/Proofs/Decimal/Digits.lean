import Mathlib.Data.List.TakeWhile
import VectorStyle.Decimal.Places
import VectorStyle.Text.Digit

/-!
# The number that a decimal text denotes

A text of `Decimal.text places k` has a whole part and a fraction without zeros at its end. Read as
one row of digits, and with as many zeros after it as have been dropped, it gives `k` back.

Main statements: `number_toDigits`, the digits of a number denote it; `exists_trimZeros`, what is
dropped at the end; and `number_text`, the number behind a text.
-/

set_option autoImplicit false

namespace VectorStyle

/-! ## Rows of digits -/

namespace Text.Digit

theorem isDigit_of_ascii {c : Char} (h : c.isDigit = true) : isDigit c = true := by
  rw [isDigit, value?_of_ascii c h, Option.isSome_some]

/-- ASCII digits denote what they denote in core. -/
theorem number_of_ascii {cs : List Char} (h : ∀ c ∈ cs, c.isDigit = true) :
    number cs = Nat.ofDigitChars 10 cs 0 := by
  -- the fold is the same one, digit by digit, from any start
  have hfold (start : Nat) :
      cs.foldl (fun n c => 10 * n + (value? c).getD 0) start = Nat.ofDigitChars 10 cs start := by
    induction cs generalizing start with
    | nil => rfl
    | cons c cs ih =>
      rw [List.forall_mem_cons] at h
      rw [List.foldl_cons, Nat.ofDigitChars_cons, value?_of_ascii c h.1, ih h.2]
      rfl
  exact hfold 0

theorem isDigit_of_mem_toDigits (n : Nat) : ∀ c ∈ Nat.toDigits 10 n, c.isDigit = true := fun _ hc =>
  Nat.isDigit_of_mem_toDigits (by omega) (by omega) hc

theorem number_toDigits (n : Nat) : number (Nat.toDigits 10 n) = n := by
  rw [number_of_ascii (isDigit_of_mem_toDigits n)]
  exact Nat.ofDigitChars_toDigits (by omega) (by omega)

/-- Numbers with the same decimal digits are the same. -/
theorem toString_inj {m n : Nat} : toString m = toString n ↔ m = n := by
  constructor
  · intro h
    rw [Nat.toString_eq_ofList_toDigits, Nat.toString_eq_ofList_toDigits, String.ofList_inj] at h
    rw [← number_toDigits m, h, number_toDigits]
  · rintro rfl
    rfl

theorem foldl_eq (cs : List Char) (start : Nat) :
    cs.foldl (fun n c => 10 * n + (value? c).getD 0) start =
      start * Nat.pow 10 cs.length + number cs := by
  induction cs generalizing start with
  | nil => exact (Nat.mul_one start).symm
  | cons c cs ih =>
    have hpow : Nat.pow 10 (c :: cs).length = Nat.pow 10 cs.length * 10 := Nat.pow_succ 10 _
    rw [number, List.foldl_cons, List.foldl_cons, ih, ih, hpow, Nat.add_mul, Nat.add_mul]
    simp only [Nat.mul_zero, Nat.zero_mul, Nat.zero_add, Nat.add_assoc]
    rw [Nat.mul_comm 10 start, Nat.mul_assoc, Nat.mul_comm 10]

/-- The digits in front count as many powers of ten as there are digits behind them. -/
theorem number_append (as bs : List Char) :
    number (as ++ bs) = number as * Nat.pow 10 bs.length + number bs := by
  rw [number, List.foldl_append]
  exact foldl_eq bs _

/-- A digit is the digit of the number it denotes. -/
theorem digitChar_number {c : Char} (h : c.isDigit = true) :
    number [c] < 10 ∧ Nat.digitChar (number [c]) = c := by
  have hnumber : number [c] = c.toNat - 48 := by
    rw [number, List.foldl_cons, List.foldl_nil, value?_of_ascii c h, Option.getD_some,
      Nat.mul_zero, Nat.zero_add]
  have hrange : 48 ≤ c.toNat ∧ c.toNat ≤ 57 := by
    simp only [Char.isDigit, Bool.and_eq_true, decide_eq_true_eq] at h
    exact ⟨h.1, h.2⟩
  rw [hnumber]
  refine ⟨by omega, Char.toNat_inj.1 ?_⟩
  rw [Nat.toNat_digitChar_of_lt_ten (by omega)]
  omega

/-- A row of digits denotes less than the power of ten with as many zeros. -/
theorem number_lt {cs : List Char} (h : ∀ c ∈ cs, c.isDigit = true) :
    number cs < Nat.pow 10 cs.length := by
  induction cs with
  | nil => decide
  | cons c cs ih =>
    have hc := List.forall_mem_cons.1 h
    have hfirst := (digitChar_number hc.1).1
    have hrest := ih hc.2
    have hsplit := number_append [c] cs
    rw [List.singleton_append] at hsplit
    have hpow : Nat.pow 10 (c :: cs).length = Nat.pow 10 cs.length * 10 := Nat.pow_succ 10 _
    have hmul : number [c] * Nat.pow 10 cs.length ≤ 9 * Nat.pow 10 cs.length :=
      Nat.mul_le_mul_right _ (by omega)
    rw [hsplit, hpow]
    omega

end Text.Digit

/-! ## Texts with places -/

namespace Decimal

open Text.Digit (number number_append number_toDigits number_lt isDigit_of_mem_toDigits)

/-- Trimming drops nothing but zeros. -/
theorem exists_trimZeros (cs : List Char) : ∃ n, cs = trimZeros cs ++ List.replicate n '0' := by
  refine ⟨(cs.reverse.takeWhile (· == '0')).length, ?_⟩
  have hzeros : cs.reverse.takeWhile (· == '0') =
      List.replicate (cs.reverse.takeWhile (· == '0')).length '0' := by
    rw [List.eq_replicate_iff]
    refine ⟨rfl, fun c hc => ?_⟩
    simpa using List.mem_takeWhile_imp hc
  have hsplit := List.takeWhile_append_dropWhile (p := (· == '0')) (l := cs.reverse)
  rw [trimZeros, ← List.reverse_replicate, ← hzeros, ← List.reverse_append, hsplit,
    List.reverse_reverse]

theorem isDigit_of_mem_fraction (places part : Nat) :
    ∀ c ∈ fraction places part, c.isDigit = true := fun c hc =>
  isDigit_of_mem_toDigits _ c (List.mem_of_mem_drop hc)

theorem isDigit_of_mem_zeros {n : Nat} : ∀ c ∈ List.replicate n '0', c.isDigit = true := by
  intro c hc
  rw [List.eq_of_mem_replicate hc]
  rfl

/-- The digits after the point denote the part they stand for. -/
theorem number_fraction {places part : Nat} (h : part < Nat.pow 10 places) :
    number (fraction places part) = part := by
  have hlength := length_fraction places part h
  have hdigits := isDigit_of_mem_fraction places part
  cases hcs : Nat.toDigits 10 (Nat.pow 10 places + part) with
  | nil => exact absurd hcs Nat.toDigits_ne_nil
  | cons c cs =>
    have hfraction : fraction places part = cs := by
      rw [fraction, hcs]
      rfl
    rw [hfraction] at hlength hdigits ⊢
    have hc : c.isDigit = true := by
      apply isDigit_of_mem_toDigits (Nat.pow 10 places + part)
      rw [hcs]
      exact List.mem_cons_self
    -- the first digit counts a power of ten, the others count less than one
    have hall := number_toDigits (Nat.pow 10 places + part)
    rw [hcs, ← List.singleton_append, number_append, hlength] at hall
    have hlt := number_lt hdigits
    rw [hlength] at hlt
    rw [← Nat.mod_eq_of_lt hlt, ← Nat.mod_eq_of_lt h, ← Nat.mul_add_mod' (number [c]), hall,
      Nat.add_mod_left]

theorem isDigit_of_mem_trimZeros {cs : List Char} (h : ∀ c ∈ cs, c.isDigit = true) :
    ∀ c ∈ trimZeros cs, c.isDigit = true := by
  obtain ⟨n, hn⟩ := exists_trimZeros cs
  intro c hc
  apply h c
  rw [hn]
  exact List.mem_append_left _ hc

/-- The digits of a text, with the zeros that it leaves out, denote the number behind it. -/
theorem number_text (places k : Nat) :
    ∃ n, (trimZeros (fraction places (k % Nat.pow 10 places))).length + n = places ∧
      number (Nat.toDigits 10 (k / Nat.pow 10 places) ++
        trimZeros (fraction places (k % Nat.pow 10 places))) * Nat.pow 10 n = k := by
  have hpow : 0 < Nat.pow 10 places := Nat.pow_pos (by omega)
  have hpart : k % Nat.pow 10 places < Nat.pow 10 places := Nat.mod_lt k hpow
  have hlength := length_fraction places _ hpart
  have hnumber := number_fraction hpart
  obtain ⟨n, hn⟩ := exists_trimZeros (fraction places (k % Nat.pow 10 places))
  generalize trimZeros (fraction places (k % Nat.pow 10 places)) = ds at hn ⊢
  rw [hn, List.length_append, List.length_replicate] at hlength
  have hzero : number (List.replicate n '0') = 0 := by
    rw [Text.Digit.number_of_ascii isDigit_of_mem_zeros, Nat.ofDigitChars_replicate_zero,
      Nat.mul_zero]
  rw [hn, number_append, List.length_replicate, hzero, Nat.add_zero] at hnumber
  refine ⟨n, hlength, ?_⟩
  calc number (Nat.toDigits 10 (k / Nat.pow 10 places) ++ ds) * Nat.pow 10 n
      = (k / Nat.pow 10 places * Nat.pow 10 ds.length + number ds) * Nat.pow 10 n := by
        rw [number_append, number_toDigits]
    _ = k / Nat.pow 10 places * (Nat.pow 10 ds.length * Nat.pow 10 n) +
          number ds * Nat.pow 10 n := by rw [Nat.add_mul, Nat.mul_assoc]
    _ = k / Nat.pow 10 places * Nat.pow 10 places + k % Nat.pow 10 places := by
        have hsum : Nat.pow 10 ds.length * Nat.pow 10 n = Nat.pow 10 places := by
          rw [← hlength]
          exact (Nat.pow_add 10 _ _).symm
        rw [hsum, hnumber]
    _ = k := by rw [Nat.mul_comm, Nat.div_add_mod]

end Decimal

end VectorStyle
