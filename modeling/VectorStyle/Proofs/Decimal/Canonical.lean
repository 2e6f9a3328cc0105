import Mathlib.Algebra.Order.Field.Rat
import Mathlib.Computability.RegularExpressions
import Mathlib.Tactic.IntervalCases
import VectorStyle.Proofs.Decimal.Digits

/-!
# Canonical decimal texts

A decimal text with at most four places is canonical if its whole part has no zero in front of other
digits and its fraction no zero at the end. A regular expression says so, `Decimal.canonical`.

The texts that match are those of `Decimal.text`, with or without a sign. Two of them denote zero,
`0` and `-0`; without the second one, every multiple of a ten thousandth has exactly one canonical
text.

Main statements: `toDigits_number` and `fraction_number`, rows of digits are found again from the
number they denote; `mem_canonical_iff`, which texts match; and `eq_canonicalText_iff`, the one
canonical text of a number.
-/

set_option autoImplicit false

namespace VectorStyle

/-! ## Regular expressions -/

namespace Pattern

open RegularExpression (char star matches'_add matches'_mul matches'_star matches'_epsilon)

variable {cs w : List Char}

/-- One of the characters. -/
def anyOf (cs : List Char) : RegularExpression Char := (cs.map char).foldr (· + ·) 0

/-- The expression or nothing. -/
def optional (P : RegularExpression Char) : RegularExpression Char := 1 + P

/-- The expression up to `n` times. -/
def upTo (P : RegularExpression Char) : Nat → RegularExpression Char
  | 0 => 1
  | n + 1 => optional (P * upTo P n)

theorem mem_optional_iff {P : RegularExpression Char} :
    w ∈ (optional P).matches' ↔ w = [] ∨ w ∈ P.matches' := by
  rw [optional, matches'_add, matches'_epsilon, Language.mem_add, Language.mem_one]

theorem mem_anyOf_iff : w ∈ (anyOf cs).matches' ↔ ∃ c ∈ cs, w = [c] := by
  induction cs with
  | nil => exact iff_of_false (Language.notMem_zero w) (by simp)
  | cons c cs ih =>
    have hsplit : w ∈ (anyOf (c :: cs)).matches' ↔ w = [c] ∨ w ∈ (anyOf cs).matches' := Iff.rfl
    rw [hsplit, ih, List.exists_mem_cons_iff]

/-- A repetition of one of the characters is a row of them. -/
theorem mem_star_anyOf_iff : w ∈ (star (anyOf cs)).matches' ↔ ∀ c ∈ w, c ∈ cs := by
  rw [matches'_star, Language.mem_kstar]
  constructor
  · rintro ⟨words, rfl, hwords⟩ c hc
    obtain ⟨word, hword, hc⟩ := List.mem_flatten.1 hc
    obtain ⟨d, hd, rfl⟩ := mem_anyOf_iff.1 (hwords word hword)
    rw [List.mem_singleton.1 hc]
    exact hd
  · intro h
    refine ⟨w.map fun c => [c], (by rw [← List.flatMap_def, List.flatMap_singleton']), ?_⟩
    rw [List.forall_mem_map]
    intro c hc
    exact mem_anyOf_iff.2 ⟨c, h c hc, rfl⟩

theorem mem_upTo_anyOf_iff {n : Nat} :
    w ∈ (upTo (anyOf cs) n).matches' ↔ w.length ≤ n ∧ ∀ c ∈ w, c ∈ cs := by
  induction n generalizing w with
  | zero =>
    rw [upTo, matches'_epsilon, Language.mem_one, Nat.le_zero, List.length_eq_zero_iff]
    constructor
    · rintro rfl
      exact ⟨rfl, List.forall_mem_nil _⟩
    · exact And.left
  | succ n ih =>
    rw [upTo, mem_optional_iff, matches'_mul, Language.mem_mul]
    constructor
    · rintro (rfl | ⟨a, ha, v, hv, rfl⟩)
      · exact ⟨Nat.zero_le _, List.forall_mem_nil _⟩
      · obtain ⟨c, hc, rfl⟩ := mem_anyOf_iff.1 ha
        obtain ⟨hlength, hv⟩ := ih.1 hv
        exact ⟨Nat.succ_le_succ hlength, List.forall_mem_cons.2 ⟨hc, hv⟩⟩
    · rintro ⟨hlength, hw⟩
      cases w with
      | nil => exact Or.inl rfl
      | cons c v =>
        rw [List.forall_mem_cons] at hw
        exact Or.inr ⟨[c], mem_anyOf_iff.2 ⟨c, hw.1, rfl⟩, v,
          ih.2 ⟨Nat.le_of_succ_le_succ hlength, hw.2⟩, rfl⟩

end Pattern

/-! ## Rows of digits -/

namespace Text.Digit

/-- A row of digits that does not begin with a zero is written again from the number it denotes. -/
theorem toDigits_number {c : Char} {cs : List Char} (h : ∀ d ∈ c :: cs, d.isDigit = true)
    (hc : c ≠ '0') : 0 < number (c :: cs) ∧ Nat.toDigits 10 (number (c :: cs)) = c :: cs := by
  -- digit by digit from the left, as the row is read
  induction cs using List.reverseRecOn with
  | nil =>
    obtain ⟨hlt, hchar⟩ := digitChar_number (h c List.mem_cons_self)
    refine ⟨Nat.pos_of_ne_zero fun hzero => hc ?_, ?_⟩
    · rw [← hchar, hzero]
      rfl
    · rw [Nat.toDigits_of_lt_base hlt, hchar]
  | append_singleton cs d ih =>
    rw [← List.cons_append, List.forall_mem_append] at h
    obtain ⟨hpos, hdigits⟩ := ih h.1
    obtain ⟨hlt, hchar⟩ := digitChar_number (h.2 d List.mem_cons_self)
    have hnumber : number (c :: cs ++ [d]) = 10 * number (c :: cs) + number [d] := by
      rw [number_append, Nat.mul_comm]
      rfl
    rw [← List.cons_append, hnumber, ← Nat.toDigits_append_toDigits (by omega) hpos hlt, hdigits,
      Nat.toDigits_of_lt_base hlt, hchar]
    exact ⟨by omega, rfl⟩

/-- The digits of a positive number do not begin with a zero. -/
theorem head?_toDigits {n : Nat} (h : 0 < n) : (Nat.toDigits 10 n).head? ≠ some '0' := by
  induction n using Nat.strongRecOn with
  | ind n ih =>
    rcases Nat.lt_or_ge n 10 with hlt | hge
    · rw [Nat.toDigits_of_lt_base hlt, List.head?_singleton, ne_eq, Option.some.injEq,
        Nat.digitChar_eq_zero]
      omega
    · rw [Nat.toDigits_of_base_le (by omega) hge,
        List.head?_append_of_ne_nil _ Nat.toDigits_ne_nil]
      exact ih (n / 10) (by omega) (by omega)

end Text.Digit

namespace Decimal

open Text.Digit (number number_append toDigits_number head?_toDigits
  isDigit_of_mem_toDigits)

variable {cs whole fraction : List Char}

/-- A row of as many digits as there are places is the fraction of the number it denotes. -/
theorem fraction_number {places : Nat} (h : ∀ c ∈ cs, c.isDigit = true)
    (hlength : cs.length = places) :
    Decimal.fraction places (number cs) = cs := by
  have hall : ∀ c ∈ '1' :: cs, c.isDigit = true := List.forall_mem_cons.2 ⟨rfl, h⟩
  have hnumber : number ('1' :: cs) = Nat.pow 10 places + number cs := by
    rw [← List.singleton_append, number_append, hlength]
    exact congrArg (· + number cs) (Nat.one_mul _)
  rw [Decimal.fraction, ← hnumber, (toDigits_number hall (by decide)).2]
  rfl

/-! ## Zeros at the end -/

/-- Trimming a row with a last digit other than zero and zeros after it leaves the row. -/
theorem trimZeros_append_replicate (h : cs.getLast? ≠ some '0') (n : Nat) :
    trimZeros (cs ++ List.replicate n '0') = cs := by
  have hzeros : ∀ c ∈ List.replicate n '0', (c == '0') = true := by
    intro c hc
    rw [List.eq_of_mem_replicate hc]
    rfl
  rw [trimZeros, List.reverse_append, List.reverse_replicate, List.dropWhile_append_of_pos hzeros]
  -- what is left stops the dropping with its first character, which is the last one of the row
  rw [← List.head?_reverse] at h
  cases hreverse : cs.reverse with
  | nil => rw [List.reverse_eq_nil_iff.1 hreverse]; rfl
  | cons c rest =>
    rw [hreverse, List.head?_cons, ne_eq, Option.some.injEq] at h
    rw [List.dropWhile_cons_of_neg (by simpa using h), ← hreverse, List.reverse_reverse]

theorem getLast?_trimZeros (cs : List Char) : (trimZeros cs).getLast? ≠ some '0' := by
  rw [trimZeros, List.getLast?_reverse]
  intro h
  have hnot := List.head?_dropWhile_not (· == '0') cs.reverse
  rw [h] at hnot
  exact absurd hnot (by decide)

/-! ## The pattern -/

open Pattern (anyOf optional upTo)
open RegularExpression (char star)

/-- The digits from one on. -/
def nonzeroDigits : List Char := "123456789".toList

/-- The decimal digits. -/
def digits : List Char := '0' :: nonzeroDigits

/-- A zero, or digits of which the first is no zero. -/
def wholePart : RegularExpression Char := char '0' + anyOf nonzeroDigits * star (anyOf digits)

/-- Up to four digits of which the last is no zero. -/
def fractionPart : RegularExpression Char := upTo (anyOf digits) 3 * anyOf nonzeroDigits

/-- The canonical decimal texts with up to four places, `-?(0|[1-9][0-9]*)(\.[0-9]{0,3}[1-9])?`. -/
def canonical : RegularExpression Char :=
  optional (char '-') * wholePart * optional (char '.' * fractionPart)

theorem mem_digits_iff {c : Char} : c ∈ digits ↔ c.isDigit = true := by
  have hall : digits.all Char.isDigit = true := by decide
  constructor
  · exact List.all_eq_true.1 hall c
  · intro h
    obtain ⟨hlt, hchar⟩ := Text.Digit.digitChar_number h
    rw [← hchar]
    interval_cases number [c] <;> decide

theorem mem_nonzeroDigits_iff {c : Char} : c ∈ nonzeroDigits ↔ c.isDigit = true ∧ c ≠ '0' := by
  rw [← mem_digits_iff, digits, List.mem_cons]
  constructor
  · intro h
    refine ⟨Or.inr h, ?_⟩
    rintro rfl
    exact absurd h (by decide)
  · rintro ⟨rfl | h, hne⟩
    · exact absurd rfl hne
    · exact h

/-- A whole part is the row of digits of a number. -/
theorem mem_wholePart_iff : cs ∈ wholePart.matches' ↔ ∃ m, cs = Nat.toDigits 10 m := by
  rw [wholePart, RegularExpression.matches'_add, Language.mem_add, RegularExpression.matches'_mul,
    Language.mem_mul]
  constructor
  · rintro (rfl | ⟨a, ha, ds, hds, rfl⟩)
    · exact ⟨0, rfl⟩
    · obtain ⟨c, hc, rfl⟩ := Pattern.mem_anyOf_iff.1 ha
      rw [mem_nonzeroDigits_iff] at hc
      rw [Pattern.mem_star_anyOf_iff] at hds
      have hall : ∀ d ∈ c :: ds, d.isDigit = true :=
        List.forall_mem_cons.2 ⟨hc.1, fun d hd => mem_digits_iff.1 (hds d hd)⟩
      exact ⟨_, (toDigits_number hall hc.2).2.symm⟩
  · rintro ⟨m, rfl⟩
    rcases Nat.eq_zero_or_pos m with rfl | hpos
    · exact Or.inl rfl
    · have hall := isDigit_of_mem_toDigits m
      have hhead := head?_toDigits hpos
      cases hdigits : Nat.toDigits 10 m with
      | nil => exact absurd hdigits Nat.toDigits_ne_nil
      | cons c ds =>
        rw [hdigits, List.forall_mem_cons] at hall
        rw [hdigits, List.head?_cons, ne_eq, Option.some.injEq] at hhead
        refine Or.inr
          ⟨[c], Pattern.mem_anyOf_iff.2 ⟨c, mem_nonzeroDigits_iff.2 ⟨hall.1, hhead⟩, rfl⟩,
            ds, Pattern.mem_star_anyOf_iff.2 fun d hd => mem_digits_iff.2 (hall.2 d hd), rfl⟩

/-- A row of digits that fits the places and does not end in a zero. -/
structure IsFraction (cs : List Char) : Prop where
  digits : ∀ c ∈ cs, c.isDigit = true
  length_le : cs.length ≤ places
  getLast?_ne : cs.getLast? ≠ some '0'

/-- Such a row is what trimming leaves of the fraction of a number. -/
theorem isFraction_iff :
    IsFraction cs ↔ ∃ part < Nat.pow 10 places, cs = trimZeros (Decimal.fraction places part) := by
  constructor
  · intro h
    -- the zeros that are left out are written again
    have hall := List.forall_mem_append.2 ⟨h.digits, isDigit_of_mem_zeros (n := places - cs.length)⟩
    have hlength : (cs ++ List.replicate (places - cs.length) '0').length = places := by
      have hle := h.length_le
      rw [List.length_append, List.length_replicate]
      omega
    refine ⟨number (cs ++ List.replicate (places - cs.length) '0'), ?_, ?_⟩
    · have hlt := Text.Digit.number_lt hall
      rwa [hlength] at hlt
    · rw [fraction_number hall hlength, trimZeros_append_replicate h.getLast?_ne]
  · rintro ⟨part, hpart, rfl⟩
    obtain ⟨n, hn⟩ := exists_trimZeros (Decimal.fraction places part)
    have hlength := length_fraction places part hpart
    refine ⟨isDigit_of_mem_trimZeros (isDigit_of_mem_fraction places part), ?_,
      getLast?_trimZeros _⟩
    rw [hn, List.length_append] at hlength
    omega

/-- A fraction part is such a row with at least one digit. -/
theorem mem_fractionPart_iff : cs ∈ fractionPart.matches' ↔ IsFraction cs ∧ cs ≠ [] := by
  rw [fractionPart, RegularExpression.matches'_mul, Language.mem_mul]
  constructor
  · rintro ⟨ds, hds, a, ha, rfl⟩
    obtain ⟨c, hc, rfl⟩ := Pattern.mem_anyOf_iff.1 ha
    rw [Pattern.mem_upTo_anyOf_iff] at hds
    rw [mem_nonzeroDigits_iff] at hc
    refine ⟨⟨?_, ?_, ?_⟩, List.concat_ne_nil c ds⟩
    · rw [List.forall_mem_append, List.forall_mem_singleton]
      exact ⟨fun d hd => mem_digits_iff.1 (hds.2 d hd), hc.1⟩
    · rw [List.length_append, List.length_singleton]
      exact Nat.succ_le_succ hds.1
    · rw [List.getLast?_concat, ne_eq, Option.some.injEq]
      exact hc.2
  · rintro ⟨h, hne⟩
    obtain ⟨ds, c, rfl⟩ := List.eq_nil_or_concat' cs |>.resolve_left hne
    obtain ⟨hdigits, hlength, hlast⟩ := h
    rw [List.forall_mem_append, List.forall_mem_singleton] at hdigits
    rw [List.length_append, List.length_singleton] at hlength
    rw [List.getLast?_concat, ne_eq, Option.some.injEq] at hlast
    refine ⟨ds, Pattern.mem_upTo_anyOf_iff.2 ⟨Nat.le_of_succ_le_succ hlength, ?_⟩, [c],
      Pattern.mem_anyOf_iff.2 ⟨c, mem_nonzeroDigits_iff.2 ⟨hdigits.2, hlast⟩, rfl⟩, rfl⟩
    intro d hd
    exact mem_digits_iff.2 (hdigits.1 d hd)

/-! ## The texts that match -/

/-- A text is a sign, a whole part, and what stands from the point on. -/
theorem signed_pointed (negative : Bool) (whole fraction : List Char) :
    signed negative (pointed whole fraction) =
      signed negative [] ++ whole ++ pointed [] fraction := by
  cases negative <;> cases fraction <;> simp [signed, pointed]

/-- A number with a whole part and a fraction is written as both. -/
theorem text_add {part : Nat} (m : Nat) (h : part < Nat.pow 10 places) :
    text places (Nat.pow 10 places * m + part) =
      pointed (Nat.toDigits 10 m) (trimZeros (Decimal.fraction places part)) := by
  have hpow : 0 < Nat.pow 10 places := by decide
  rw [text, Nat.mul_add_div hpow, Nat.div_eq_of_lt h, Nat.add_zero, Nat.mul_add_mod,
    Nat.mod_eq_of_lt h]

theorem mem_optional_minus_iff :
    cs ∈ (optional (char '-')).matches' ↔ ∃ negative, cs = signed negative [] := by
  rw [Pattern.mem_optional_iff, Bool.exists_bool]
  exact Iff.rfl

theorem mem_optional_pointed_iff :
    cs ∈ (optional (char '.' * fractionPart)).matches' ↔
      ∃ fraction, IsFraction fraction ∧ cs = pointed [] fraction := by
  rw [Pattern.mem_optional_iff, RegularExpression.matches'_mul, Language.mem_mul]
  constructor
  · rintro (rfl | ⟨_, rfl, fraction, hfraction, rfl⟩)
    · exact ⟨[], ⟨List.forall_mem_nil _, Nat.zero_le _, by decide⟩, rfl⟩
    · obtain ⟨h, hne⟩ := mem_fractionPart_iff.1 hfraction
      refine ⟨fraction, h, ?_⟩
      rw [pointed, if_neg (by simpa using hne)]
      rfl
  · rintro ⟨fraction, h, rfl⟩
    cases fraction with
    | nil => exact Or.inl rfl
    | cons c ds =>
      exact Or.inr ⟨['.'], rfl, c :: ds, mem_fractionPart_iff.2 ⟨h, List.cons_ne_nil c ds⟩, rfl⟩

/-- The texts that match are those of the numbers with four places, with or without a sign. -/
theorem mem_canonical_iff :
    cs ∈ canonical.matches' ↔ ∃ negative k, cs = signed negative (text places k) := by
  rw [canonical, RegularExpression.matches'_mul, Language.mem_mul, RegularExpression.matches'_mul]
  constructor
  · rintro ⟨_, ⟨sign, hsign, whole, hwhole, rfl⟩, point, hpoint, rfl⟩
    obtain ⟨negative, rfl⟩ := mem_optional_minus_iff.1 hsign
    obtain ⟨m, rfl⟩ := mem_wholePart_iff.1 hwhole
    obtain ⟨fraction, hfraction, rfl⟩ := mem_optional_pointed_iff.1 hpoint
    obtain ⟨part, hpart, rfl⟩ := isFraction_iff.1 hfraction
    -- the three parts were matched on their own, and together they are the text of one number
    refine ⟨negative, Nat.pow 10 places * m + part, ?_⟩
    rw [text_add m hpart, signed_pointed]
  · rintro ⟨negative, k, rfl⟩
    have hpart : k % Nat.pow 10 places < Nat.pow 10 places := Nat.mod_lt k (by decide)
    refine ⟨signed negative [] ++ Nat.toDigits 10 (k / Nat.pow 10 places),
      Language.append_mem_mul (mem_optional_minus_iff.2 ⟨negative, rfl⟩)
        (mem_wholePart_iff.2 ⟨_, rfl⟩),
      pointed [] (trimZeros (Decimal.fraction places (k % Nat.pow 10 places))),
      mem_optional_pointed_iff.2 ⟨_, isFraction_iff.2 ⟨_, hpart, rfl⟩, rfl⟩, ?_⟩
    rw [text, signed_pointed]

/-! ## The number that a text denotes -/

/-- The number that a text without a sign denotes: its digits as a whole number, divided by the
power of ten with as many zeros as there are digits after the point. -/
def magnitude (cs : List Char) : Rat :=
  let fraction := (cs.dropWhile (· != '.')).drop 1
  (number (cs.takeWhile (· != '.') ++ fraction) : Rat) / (Nat.pow 10 fraction.length : Nat)

/-- The number that a text denotes. -/
def denoted (cs : List Char) : Rat :=
  if cs.head? = some '-' then -magnitude (cs.drop 1) else magnitude cs

theorem ne_point_of_isDigit {c : Char} (h : c.isDigit = true) : (c != '.') = true := by
  rw [bne_iff_ne]
  rintro rfl
  exact absurd h (by decide)

theorem magnitude_pointed (hwhole : ∀ c ∈ whole, c.isDigit = true) :
    magnitude (pointed whole fraction) =
      (number (whole ++ fraction) : Rat) / (Nat.pow 10 fraction.length : Nat) := by
  have hne : ∀ c ∈ whole, (c != '.') = true := fun c hc => ne_point_of_isDigit (hwhole c hc)
  have htake : (pointed whole fraction).takeWhile (· != '.') = whole := by
    cases fraction with
    | nil => exact List.takeWhile_eq_self_iff.2 hne
    | cons c cs =>
      rw [pointed, if_neg (by simp), List.takeWhile_append_of_pos hne,
        List.takeWhile_cons_of_neg (by simp), List.append_nil]
  have hdrop : ((pointed whole fraction).dropWhile (· != '.')).drop 1 = fraction := by
    cases fraction with
    | nil =>
      have hnil : pointed whole [] = whole := rfl
      rw [hnil, List.dropWhile_eq_nil_iff.2 hne, List.drop_nil]
    | cons c cs =>
      rw [pointed, if_neg (by simp), List.dropWhile_append_of_pos hne,
        List.dropWhile_cons_of_neg (by simp), List.drop_one, List.tail_cons]
  rw [magnitude, htake, hdrop]

theorem cast_pow_ten_ne_zero (n : Nat) : ((Nat.pow 10 n : Nat) : Rat) ≠ 0 :=
  Nat.cast_ne_zero.2 (Nat.pow_pos (by omega)).ne'

theorem magnitude_text (places k : Nat) :
    magnitude (text places k) = (k : Rat) / (Nat.pow 10 places : Nat) := by
  obtain ⟨n, hplaces, hnumber⟩ := number_text places k
  have hsplit (l : Nat) (h : l + n = places) : Nat.pow 10 l * Nat.pow 10 n = Nat.pow 10 places := by
    rw [← h]
    exact (Nat.pow_add 10 l n).symm
  rw [text, magnitude_pointed (isDigit_of_mem_toDigits _)]
  generalize trimZeros (Decimal.fraction places (k % Nat.pow 10 places)) = ds at hplaces hnumber ⊢
  -- the zeros that are left out multiply the number and the power of ten alike
  calc (number (Nat.toDigits 10 (k / Nat.pow 10 places) ++ ds) : Rat) / (Nat.pow 10 ds.length : Nat)
      = (number (Nat.toDigits 10 (k / Nat.pow 10 places) ++ ds) * (Nat.pow 10 n : Nat)) /
          ((Nat.pow 10 ds.length : Nat) * (Nat.pow 10 n : Nat)) :=
          (mul_div_mul_right _ _ (cast_pow_ten_ne_zero n)).symm
    _ = (k : Rat) / (Nat.pow 10 places : Nat) := by
      rw [← Nat.cast_mul, ← Nat.cast_mul, hnumber, hsplit _ hplaces]

theorem head?_text_ne (places k : Nat) : (text places k).head? ≠ some '-' := by
  have hdigits := isDigit_of_mem_toDigits (k / Nat.pow 10 places)
  cases hwhole : Nat.toDigits 10 (k / Nat.pow 10 places) with
  | nil => exact absurd hwhole Nat.toDigits_ne_nil
  | cons c cs =>
    have hhead : (text places k).head? = some c := by
      rw [text, hwhole, pointed]
      split <;> rfl
    rw [hwhole, List.forall_mem_cons] at hdigits
    rw [hhead, ne_eq, Option.some.injEq]
    rintro rfl
    exact absurd hdigits.1 (by decide)

theorem text_inj {places j k : Nat} : text places j = text places k ↔ j = k := by
  constructor
  · intro h
    have hmagnitude := congrArg magnitude h
    rw [magnitude_text, magnitude_text, div_left_inj' (cast_pow_ten_ne_zero places)] at hmagnitude
    exact_mod_cast hmagnitude
  · rintro rfl
    rfl

/-- The zero with a sign is written for no other number. -/
theorem signed_text_eq_iff {negative : Bool} {k : Nat} :
    signed negative (text places k) = ['-', '0'] ↔ negative = true ∧ k = 0 := by
  have hzero : text places 0 = ['0'] := by decide
  cases negative with
  | false =>
    refine iff_of_false (fun h => head?_text_ne places k ?_) (by simp)
    rw [show text places k = ['-', '0'] from h]
    rfl
  | true =>
    rw [signed, if_pos rfl, List.cons_inj_right, ← hzero, text_inj, and_iff_right rfl]

theorem denoted_signed_text (negative : Bool) (places k : Nat) :
    denoted (signed negative (text places k)) =
      (if negative then -(k : Rat) else k) / (Nat.pow 10 places : Nat) := by
  cases negative with
  | false => exact (if_neg (head?_text_ne places k)).trans (magnitude_text places k)
  | true =>
    have hminus : denoted (signed true (text places k)) = -magnitude (text places k) := if_pos rfl
    rw [hminus, magnitude_text, if_pos rfl, neg_div]

/-! ## One text for each number -/

/-- The canonical text of `k / 10 ^ places`, for numbers of both signs. -/
def canonicalText (k : Int) : List Char := signed (decide (k < 0)) (text places k.natAbs)

theorem denoted_canonicalText (k : Int) :
    denoted (canonicalText k) = (k : Rat) / (Nat.pow 10 places : Nat) := by
  rw [canonicalText, denoted_signed_text]
  congr 1
  rcases lt_or_ge k 0 with hneg | hpos
  · rw [decide_eq_true hneg, if_pos rfl, ← Int.cast_natCast, Int.ofNat_natAbs_of_nonpos hneg.le,
      Int.cast_neg, neg_neg]
  · rw [decide_eq_false (not_lt.2 hpos), if_neg Bool.false_ne_true, ← Int.cast_natCast,
      Int.natAbs_of_nonneg hpos]

/-- The text of a number is the only canonical one that denotes it, but for the zero with a sign. -/
theorem eq_canonicalText_iff {k : Int} :
    cs = canonicalText k ↔ cs ∈ canonical.matches' ∧ cs ≠ ['-', '0'] ∧
      denoted cs = (k : Rat) / (Nat.pow 10 places : Nat) := by
  constructor
  · rintro rfl
    refine ⟨mem_canonical_iff.2 ⟨_, _, rfl⟩, ?_, denoted_canonicalText k⟩
    rw [canonicalText, ne_eq, signed_text_eq_iff, decide_eq_true_iff, Int.natAbs_eq_zero]
    rintro ⟨hneg, rfl⟩
    exact absurd hneg (lt_irrefl 0)
  · rintro ⟨hcs, hne, hdenoted⟩
    obtain ⟨negative, j, rfl⟩ := mem_canonical_iff.1 hcs
    rw [denoted_signed_text, div_left_inj' (cast_pow_ten_ne_zero places)] at hdenoted
    -- the sign that was matched is the sign of the number, unless it is the one of the zero
    cases negative with
    | false =>
      obtain rfl : (j : Int) = k := by exact_mod_cast hdenoted
      rw [canonicalText, decide_eq_false (by omega), Int.natAbs_natCast]
    | true =>
      obtain rfl : -(j : Int) = k := by exact_mod_cast hdenoted
      have hj : j ≠ 0 := fun hzero => hne (signed_text_eq_iff.2 ⟨rfl, hzero⟩)
      rw [canonicalText, decide_eq_true (by omega), Int.natAbs_neg, Int.natAbs_natCast]

end Decimal

end VectorStyle
