import Mathlib.Data.List.DropRight
import VectorStyle.Proofs.Binary64.Rounding
import VectorStyle.Proofs.Decimal.Canonical
import VectorStyle.Proofs.Nearest

/-!
# Numbers of the format in canonical decimal texts

A finite number of the format is a rational number. It is rounded to the nearest multiple of one ten
thousandth, exactly and with ties to the even multiple, and what is written is the canonical text of
that multiple. The same text comes out if the multiple is written with all its places and then zeros
are stripped from the end, and after them the point.

Two numbers are written alike exactly if they are rounded to the same multiple, and what is written
for the greater of two numbers denotes no less than what is written for the other.

Main statements: `isNearest_multiple`, what a number is rounded to; `format_eq_stripped`, the text
by stripping; and `format_canonical`.
-/

set_option autoImplicit false

namespace VectorStyle

/-! ## The value of a number -/

namespace Binary64

theorem signedUnits_false (n : Nat) : signedUnits false n = n := rfl

theorem signedUnits_true (n : Nat) : signedUnits true n = -(n : Int) := rfl

theorem signedUnits_lt_zero_iff {s : Bool} {n : Nat} : signedUnits s n < 0 ↔ s = true ∧ n ≠ 0 := by
  cases s <;> simp [signedUnits, Nat.pos_iff_ne_zero]

theorem natAbs_signedUnits (s : Bool) (n : Nat) : (signedUnits s n).natAbs = n := by
  cases s <;> simp [signedUnits]

/-- The rational number that a finite number of the format is. -/
def toRat : Binary64 → Rat
  | finite s n _ => (signedUnits s n : Rat) / (one : Nat)
  | _ => 0

theorem toRat_le_toRat_iff {x y : Binary64} (hx : x.isFinite = true) (hy : y.isFinite = true) :
    x.toRat ≤ y.toRat ↔ x ≤ y := by
  cases x with
  | finite s m hm =>
    cases y with
    | finite t n hn =>
      have hone : (0 : Rat) < (one : Nat) := Nat.cast_pos.2 one_pos
      rw [toRat, toRat, div_le_div_iff_of_pos_right hone, Int.cast_le]
      exact decide_eq_true_iff.symm
    | _ => cases hy
  | _ => cases hx

end Binary64

namespace Decimal

open Binary64 (one signedUnits)
open Text.Digit (isDigit_of_mem_toDigits)

/-! ## The multiple that is written -/

/-- The multiple of `1 / 10 ^ places` that a finite number is rounded to. -/
def multiple : Binary64 → Int
  | .finite s n _ => signedUnits s (scaled n)
  | _ => 0

theorem cast_pow_places : ((Nat.pow 10 places : Nat) : Rat) = 10000 := by
  have hplaces : Nat.pow 10 places = 10000 := rfl
  rw [hplaces, Nat.cast_ofNat]

theorem isNearest_multiple {x : Binary64} (hx : x.isFinite = true) :
    IsNearest (10000 * x.toRat) (multiple x) := by
  cases x with
  | finite s n hn =>
    -- the magnitude is rounded, and the sign is put in front of what comes out
    have hmagnitude : IsNearest (10000 * ((n : Rat) / (one : Nat))) (scaled n : Nat) := by
      have hnearest := isNearest_nearest (n * Nat.pow 10 places) Binary64.one_pos
      rwa [Nat.cast_mul, cast_pow_places, mul_comm, mul_div_assoc] at hnearest
    rw [Binary64.toRat, multiple]
    cases s with
    | false =>
      rw [Binary64.signedUnits_false, Binary64.signedUnits_false, Int.cast_natCast]
      exact hmagnitude
    | true =>
      rw [Binary64.signedUnits_true, Binary64.signedUnits_true, Int.cast_neg, Int.cast_natCast,
        neg_div, mul_neg]
      exact hmagnitude.neg
  | _ => cases hx

theorem format_eq_canonicalText {x : Binary64} (hx : x.isFinite = true) :
    format x = String.ofList (canonicalText (multiple x)) := by
  cases x with
  | finite s n hn =>
    have hsign : (s && scaled n != 0) = decide (signedUnits s (scaled n) < 0) := by
      rw [Bool.eq_iff_iff, Bool.and_eq_true, bne_iff_ne, decide_eq_true_iff,
        Binary64.signedUnits_lt_zero_iff]
    rw [format, multiple, canonicalText, hsign, Binary64.natAbs_signedUnits]
  | _ => cases hx

/-! ## Stripping -/

/-- The text of `k / 10 ^ places` with all places. -/
def fixed (negative : Bool) (places k : Nat) : List Char :=
  signed negative (Nat.toDigits 10 (k / Nat.pow 10 places) ++
    '.' :: fraction places (k % Nat.pow 10 places))

/-- The text without the zeros at its end, and then without the point. -/
def stripped (cs : List Char) : List Char := (cs.rdropWhile (· == '0')).rdropWhile (· == '.')

theorem rdropWhile_append_cons {α : Type} {p : α → Bool} {c : α} (h : p c = false)
    (cs ds : List α) :
    (cs ++ c :: ds).rdropWhile p = cs ++ c :: ds.rdropWhile p := by
  induction ds using List.reverseRecOn with
  | nil => rw [List.rdropWhile_concat_neg _ _ _ (by simpa using h), List.rdropWhile_nil]
  | append_singleton ds d ih =>
    rw [← List.cons_append, ← List.append_assoc]
    cases hd : p d with
    | true => rw [List.rdropWhile_concat_pos _ _ _ hd, List.rdropWhile_concat_pos _ _ _ hd, ih]
    | false =>
      rw [List.rdropWhile_concat_neg _ _ _ (by simpa using hd),
        List.rdropWhile_concat_neg _ _ _ (by simpa using hd), List.append_assoc, List.cons_append]

/-- No point is stripped from behind a digit. -/
theorem rdropWhile_append_digits {ds : List Char} (hne : ds ≠ []) (h : ∀ d ∈ ds, d.isDigit = true)
    (cs : List Char) : (cs ++ ds).rdropWhile (· == '.') = cs ++ ds := by
  rw [List.rdropWhile_eq_self_iff]
  intro hnil
  rw [List.getLast_append_of_ne_nil hnil hne]
  simpa using ne_point_of_isDigit (h _ (List.getLast_mem hne))

/-- Stripping takes nothing from the whole part. -/
theorem stripped_fixed (negative : Bool) (places k : Nat) :
    stripped (fixed negative places k) = signed negative (text places k) := by
  have hwhole := isDigit_of_mem_toDigits (k / Nat.pow 10 places)
  have hfraction := isDigit_of_mem_trimZeros
    (isDigit_of_mem_fraction places (k % Nat.pow 10 places))
  have hfixed : fixed negative places k =
      signed negative [] ++ Nat.toDigits 10 (k / Nat.pow 10 places) ++
        '.' :: fraction places (k % Nat.pow 10 places) := by
    cases negative <;> rfl
  have hzeros : (fixed negative places k).rdropWhile (· == '0') =
      signed negative [] ++ Nat.toDigits 10 (k / Nat.pow 10 places) ++
        '.' :: trimZeros (fraction places (k % Nat.pow 10 places)) := by
    rw [hfixed]
    exact rdropWhile_append_cons rfl _ _
  rw [stripped, hzeros, text, signed_pointed]
  -- the point is at the end if the fraction is gone, and then the whole part ends the text
  cases hds : trimZeros (fraction places (k % Nat.pow 10 places)) with
  | nil =>
    rw [List.rdropWhile_concat_pos _ _ _ rfl, rdropWhile_append_digits Nat.toDigits_ne_nil hwhole]
    exact (List.append_nil _).symm
  | cons d ds =>
    rw [hds] at hfraction
    rw [List.append_cons, rdropWhile_append_digits (List.cons_ne_nil d ds) hfraction]
    exact (List.append_cons _ _ _).symm

/-- A finite number is written with all places and stripped, and a zero that is left loses its
sign. -/
theorem format_eq_stripped (s : Bool) {n : Nat} (hn : Binary64.IsMagnitude n) :
    format (.finite s n hn) =
      String.ofList (if stripped (fixed s places (scaled n)) = ['-', '0'] then ['0']
        else stripped (fixed s places (scaled n))) := by
  rw [stripped_fixed, format, if_congr signed_text_eq_iff rfl rfl]
  rcases Nat.eq_zero_or_pos (scaled n) with hzero | hpos
  · rw [hzero]
    cases s <;> rfl
  · rw [if_neg fun h => hpos.ne' h.2, bne_iff_ne.2 hpos.ne', Bool.and_true]

/-! ## Canonical texts -/

/-- What is written for a finite number is the only canonical text of its multiple. -/
theorem eq_format_iff {x : Binary64} (hx : x.isFinite = true) {s : String} :
    s = format x ↔
      s.toList ∈ canonical.matches' ∧ s ≠ "-0" ∧ denoted s.toList = (multiple x : Rat) / 10000 := by
  have hminus : s ≠ "-0" ↔ s.toList ≠ ['-', '0'] := by
    rw [ne_eq, ne_eq, ← String.toList_inj]
    rfl
  -- the characters of the text decide, and they are those of the canonical text
  rw [format_eq_canonicalText hx, ← String.toList_inj, String.toList_ofList, eq_canonicalText_iff,
    cast_pow_places, hminus]

theorem multiple_mono {x y : Binary64} (hx : x.isFinite = true) (hy : y.isFinite = true)
    (h : x ≤ y) :
    multiple x ≤ multiple y := by
  apply (isNearest_multiple hx).mono (isNearest_multiple hy)
  rw [← Binary64.toRat_le_toRat_iff hx hy] at h
  linarith

theorem format_eq_format_iff {x y : Binary64} (hx : x.isFinite = true) (hy : y.isFinite = true) :
    format x = format y ↔ multiple x = multiple y := by
  have hwritten := (eq_format_iff hx).1 rfl
  rw [eq_format_iff hy, and_iff_right hwritten.1, and_iff_right hwritten.2.1, hwritten.2.2]
  rw [div_left_inj' (by norm_num), Int.cast_inj]

/-- A finite number is rounded to the nearest multiple of one ten thousandth, a tie going to the
even multiple. What is written is the only canonical text of the multiple, which is at most half a
place away from the number. Another finite number is written alike exactly if it is rounded to the
same multiple, and what is written for a greater one denotes no less. -/
theorem format_canonical {x : Binary64} (hx : x.isFinite = true) :
    ∃ k : Int, (∀ l, IsNearest (10000 * x.toRat) l ↔ l = k) ∧
      (∀ s : String, s = format x ↔
        s.toList ∈ canonical.matches' ∧ s ≠ "-0" ∧ denoted s.toList = (k : Rat) / 10000) ∧
      |(k : Rat) / 10000 - x.toRat| ≤ 1 / 20000 ∧
      ∀ y : Binary64, y.isFinite = true →
        (format x = format y ↔ IsNearest (10000 * y.toRat) k) ∧
        (x ≤ y → denoted (format x).toList ≤ denoted (format y).toList) := by
  have hnearest := isNearest_multiple hx
  have hdenoted {y : Binary64} (hy : y.isFinite = true) :
      denoted (format y).toList = (multiple y : Rat) / 10000 := ((eq_format_iff hy).1 rfl).2.2
  refine ⟨multiple x, ?_, fun s => eq_format_iff hx, ?_, ?_⟩
  · intro l
    constructor
    · intro hl
      exact hl.eq hnearest
    · rintro rfl
      exact hnearest
  · have hclose := abs_le.1 hnearest.close
    rw [abs_le]
    constructor <;> linarith
  · intro y hy
    constructor
    · rw [format_eq_format_iff hx hy]
      constructor
      · intro heq
        rw [heq]
        exact isNearest_multiple hy
      · intro hy'
        exact hy'.eq (isNearest_multiple hy)
    · intro h
      rw [hdenoted hx, hdenoted hy, div_le_div_iff_of_pos_right (by norm_num), Int.cast_le]
      exact multiple_mono hx hy h

/-- One thirty-second lies half way between two multiples, and the even one is written. -/
theorem format_canonical_thirtySecond :
    (Binary64.ofRatio false 1 32).isFinite = true ∧
      10000 * (Binary64.ofRatio false 1 32).toRat = 312 + 1 / 2 ∧
      format (Binary64.ofRatio false 1 32) = "0.0312" ∧
      IsNearest (10000 * (Binary64.ofRatio false 1 32).toRat) 312 := by
  have hfinite : (Binary64.ofRatio false 1 32).isFinite = true := by decide +kernel
  have htie : 10000 * (Binary64.ofRatio false 1 32).toRat = 312 + 1 / 2 := by decide +kernel
  have hformat : format (Binary64.ofRatio false 1 32) = "0.0312" := by decide +kernel
  obtain ⟨k, hnearest, hwritten, -⟩ := format_canonical hfinite
  have hdenoted : denoted "0.0312".toList = 312 / 10000 := by decide +kernel
  obtain rfl : k = 312 := by
    have heq := ((hwritten _).1 hformat.symm).2.2
    rw [hdenoted, div_left_inj' (by norm_num)] at heq
    exact_mod_cast heq.symm
  exact ⟨hfinite, htie, hformat, (hnearest 312).2 rfl⟩

end Decimal

end VectorStyle
