import VectorStyle.Length.Reader
import VectorStyle.Proofs.Binary64.Decimals
import VectorStyle.Proofs.Text.Literals

/-!
# The grammar of numerals

A numeral is an optional sign, digits with an optional point before, among or after them, and an
optional exponent. The reader takes each part as far as it goes. This is the only way to take a
numeral off a text in which no digit and no point follows it: the exponent mark may stand at the
beginning of a unit, but then there is no digit after it.

A numeral denotes a decimal number exactly, and its value is the nearest number of the format. The
script of the digits makes no difference.

Main statements: `read?_append` and `exists_isNumeral`, the reader takes the numerals;
`value_isNearestTo`, what they denote; and `value_toAscii`.
-/

set_option autoImplicit false

namespace VectorStyle.Length

open Text (isBlank)
open Text.Digit (isDigit number toAscii)
open Text.Integer (sign IsSign)

/-! ## The parts of a numeral -/

/-- A row of digits: at least one. -/
structure IsRow (ds : List Char) : Prop where
  ne_nil : ds ≠ []
  isDigit_of_mem : ∀ d ∈ ds, isDigit d = true

/-- Digits with an optional point, and the digits before and after it. There is a digit on one
side. -/
inductive IsMantissa : List Char → List Char → List Char → Prop
  | whole {whole : List Char} (h : IsRow whole) : IsMantissa whole whole []
  | pointed {whole fraction : List Char} (h : IsRow whole) (hf : ∀ d ∈ fraction, isDigit d = true) :
      IsMantissa (whole ++ '.' :: fraction) whole fraction
  | fraction {fraction : List Char} (h : IsRow fraction) : IsMantissa ('.' :: fraction) [] fraction

/-- An optional exponent. -/
inductive IsExponent : List Char → Int → Prop
  | absent : IsExponent [] 0
  | marked {mark : Char} {signed ds : List Char} {negative : Bool} (hmark : mark = 'e' ∨ mark = 'E')
      (hs : IsSign signed negative) (h : IsRow ds) :
      IsExponent (mark :: (signed ++ ds)) (if negative then -(number ds : Int) else number ds)

/-- The text of a numeral, and its parts. -/
inductive IsNumeral : List Char → Numeral → Prop
  | mk {signed mantissa marked whole fraction : List Char} {negative : Bool} {exponent : Int}
      (hs : IsSign signed negative) (hm : IsMantissa mantissa whole fraction)
      (he : IsExponent marked exponent) :
      IsNumeral (signed ++ (mantissa ++ marked)) ⟨negative, whole, fraction, exponent⟩

theorem IsRow.isDigit_of_mem_head? {ds : List Char} (h : IsRow ds) (rest : List Char) :
    ∀ c ∈ (ds ++ rest).head?, isDigit c = true := by
  cases ds with
  | nil => exact absurd rfl h.ne_nil
  | cons d ds =>
    intro c hc
    obtain rfl : d = c := by simpa using hc
    exact h.isDigit_of_mem d List.mem_cons_self

namespace Numeral

/-! ## Reading a numeral -/

theorem readFraction_of_head? {cs : List Char} (h : ∀ c ∈ cs.head?, c ≠ '.') :
    readFraction cs = ([], cs) := by
  cases cs with
  | nil => rfl
  | cons c cs =>
    have hc : c ≠ '.' := h c rfl
    simp [readFraction, hc]

/-- The digits of a mantissa are taken, and no more where neither a digit nor a point follows. -/
theorem readFraction_append {cs whole fraction rest : List Char} (h : IsMantissa cs whole fraction)
    (hrest : ∀ c ∈ rest.head?, isDigit c = false ∧ c ≠ '.') :
    (cs ++ rest).takeWhile isDigit = whole ∧
      readFraction ((cs ++ rest).dropWhile isDigit) = (fraction, rest) := by
  have hend : ∀ c ∈ rest.head?, isDigit c = false := fun c hc => (hrest c hc).1
  have hpoint : isDigit '.' = false := by decide
  cases h with
  | whole h =>
    rw [takeWhile_append_eq h.isDigit_of_mem hend, dropWhile_append_eq h.isDigit_of_mem hend]
    exact ⟨rfl, readFraction_of_head? fun c hc => (hrest c hc).2⟩
  | pointed h hf =>
    have hhead (tail : List Char) : ∀ c ∈ ('.' :: tail).head?, isDigit c = false := by
      rintro c ⟨⟩
      exact hpoint
    rw [List.append_assoc, List.cons_append, takeWhile_append_eq h.isDigit_of_mem (hhead _),
      dropWhile_append_eq h.isDigit_of_mem (hhead _), readFraction, takeWhile_append_eq hf hend,
      dropWhile_append_eq hf hend]
    exact ⟨rfl, rfl⟩
  | fraction h =>
    have hnot : ¬ isDigit '.' = true := by rw [hpoint]; exact Bool.false_ne_true
    rw [List.cons_append, List.takeWhile_cons_of_neg hnot, List.dropWhile_cons_of_neg hnot,
      readFraction, takeWhile_append_eq h.isDigit_of_mem hend,
      dropWhile_append_eq h.isDigit_of_mem hend]
    exact ⟨rfl, rfl⟩

/-- Without digits there is no exponent. -/
theorem readExponent_of_not_isDigit {cs : List Char} (h : ∀ c ∈ cs, isDigit c = false) :
    readExponent cs = (0, cs) := by
  cases cs with
  | nil => rfl
  | cons mark rest =>
    cases hsign : sign rest with
    | mk negative body =>
      obtain ⟨signed, -, rfl⟩ := Text.Integer.exists_isSign hsign
      -- the mark makes no difference: what follows the sign begins with no digit either
      have hbody : body.takeWhile isDigit = [] := by
        cases body with
        | nil => rfl
        | cons c body => rw [List.takeWhile_cons, h c (by simp)]; rfl
      simp [readExponent, hsign, hbody]

/-- An exponent is taken, and no more where no digit follows. -/
theorem readExponent_append {cs rest : List Char} {exponent : Int} (h : IsExponent cs exponent)
    (hrest : ∀ c ∈ rest, isDigit c = false) : readExponent (cs ++ rest) = (exponent, rest) := by
  cases h with
  | absent => exact readExponent_of_not_isDigit hrest
  | marked hmark hs h =>
    have hend : ∀ c ∈ rest.head?, isDigit c = false :=
      fun c hc => hrest c (List.mem_of_mem_head? hc)
    have hsign := Text.Integer.sign_append hs fun c hc =>
      Text.Integer.ne_sign_of_isDigit (h.isDigit_of_mem_head? rest c hc)
    rw [List.cons_append, List.append_assoc, readExponent, hsign]
    simp only [takeWhile_append_eq h.isDigit_of_mem hend, dropWhile_append_eq h.isDigit_of_mem hend]
    rw [if_pos]
    simp [hmark, h.ne_nil]

/-- Neither a digit nor a point begins an exponent. -/
theorem head?_exponent {cs rest : List Char} {exponent : Int} (h : IsExponent cs exponent)
    (hrest : ∀ c ∈ rest.head?, isDigit c = false ∧ c ≠ '.') :
    ∀ c ∈ (cs ++ rest).head?, isDigit c = false ∧ c ≠ '.' := by
  cases h with
  | absent => exact hrest
  | marked hmark =>
    rintro c ⟨⟩
    rcases hmark with rfl | rfl
    · decide
    · decide

/-- No sign begins a mantissa. -/
theorem head?_mantissa {cs whole fraction : List Char} (h : IsMantissa cs whole fraction)
    (rest : List Char) : ∀ c ∈ (cs ++ rest).head?, c ≠ '+' ∧ c ≠ '-' := by
  intro c hc
  cases h with
  | whole h => exact Text.Integer.ne_sign_of_isDigit (h.isDigit_of_mem_head? rest c hc)
  | pointed h =>
    rw [List.append_assoc] at hc
    exact Text.Integer.ne_sign_of_isDigit (h.isDigit_of_mem_head? _ c hc)
  | fraction =>
    cases hc
    decide

/-- The numeral at the beginning of a text is read, where no digit and no point follows. -/
theorem read?_append {cs rest : List Char} {n : Numeral} (h : IsNumeral cs n)
    (hrest : ∀ c ∈ rest, isDigit c = false ∧ c ≠ '.') : read? (cs ++ rest) = some (n, rest) := by
  obtain ⟨hs, hm, he⟩ := h
  have hend : ∀ c ∈ rest.head?, isDigit c = false ∧ c ≠ '.' := fun c hc =>
    hrest c (List.mem_of_mem_head? hc)
  obtain ⟨hwhole, hfraction⟩ := readFraction_append hm (head?_exponent he hend)
  have hexponent := readExponent_append he fun c hc => (hrest c hc).1
  rw [List.append_assoc, List.append_assoc, read?,
    Text.Integer.sign_append hs (head?_mantissa hm _)]
  simp only [hwhole, hfraction, hexponent]
  rw [if_neg]
  -- a mantissa of any form has a digit on one side
  cases hm with
  | whole h => simp [h.ne_nil]
  | pointed h => simp [h.ne_nil]
  | fraction h => simp [h.ne_nil]

/-- A text is that of one numeral at most. -/
theorem isNumeral_unique {cs : List Char} {n m : Numeral} (hn : IsNumeral cs n)
    (hm : IsNumeral cs m) : n = m := by
  have hread := (read?_append hn (List.forall_mem_nil _)).symm.trans
    (read?_append hm (List.forall_mem_nil _))
  exact congrArg Prod.fst (Option.some.inj hread)

/-- What is read of a text with a digit is a mantissa at its beginning. -/
theorem exists_isMantissa {cs fraction rest : List Char}
    (h : readFraction (cs.dropWhile isDigit) = (fraction, rest))
    (hne : ((cs.takeWhile isDigit).isEmpty && fraction.isEmpty) = false) :
    ∃ mantissa, IsMantissa mantissa (cs.takeWhile isDigit) fraction ∧ cs = mantissa ++ rest := by
  have hsplit := List.takeWhile_append_dropWhile (p := isDigit) (l := cs)
  have hwhole : ∀ d ∈ cs.takeWhile isDigit, isDigit d = true :=
    fun d hd => List.mem_takeWhile_imp hd
  generalize cs.takeWhile isDigit = whole at hsplit hwhole hne ⊢
  generalize cs.dropWhile isDigit = tail at hsplit h
  subst hsplit
  unfold readFraction at h
  split at h
  · next tail =>
    -- there is a point, and a digit before or after it
    cases h
    have hfraction : ∀ d ∈ tail.takeWhile isDigit, isDigit d = true := fun d hd =>
      List.mem_takeWhile_imp hd
    by_cases hnil : whole = []
    · subst hnil
      refine ⟨_, .fraction ⟨?_, hfraction⟩, ?_⟩
      · rintro hempty
        rw [hempty] at hne
        cases hne
      · rw [List.nil_append, List.cons_append, List.takeWhile_append_dropWhile]
    · refine ⟨_, .pointed ⟨hnil, hwhole⟩ hfraction, ?_⟩
      rw [List.append_assoc, List.cons_append, List.takeWhile_append_dropWhile]
  · cases h
    refine ⟨whole, .whole ⟨?_, hwhole⟩, rfl⟩
    simpa using hne

theorem exists_isExponent {cs rest : List Char} {exponent : Int}
    (h : readExponent cs = (exponent, rest)) :
    ∃ marked, IsExponent marked exponent ∧ cs = marked ++ rest := by
  cases cs with
  | nil =>
    cases h
    exact ⟨[], .absent, rfl⟩
  | cons mark tail =>
    cases hsign : sign tail with
    | mk negative body =>
      obtain ⟨signed, hs, rfl⟩ := Text.Integer.exists_isSign hsign
      simp only [readExponent, hsign] at h
      split at h
      · next hmarked =>
        cases h
        rw [Bool.and_eq_true, Bool.or_eq_true, beq_iff_eq, beq_iff_eq, Bool.not_eq_true',
          List.isEmpty_eq_false_iff] at hmarked
        refine ⟨_, .marked hmarked.1 hs ⟨hmarked.2, fun d hd => List.mem_takeWhile_imp hd⟩, ?_⟩
        rw [List.cons_append, List.append_assoc, List.takeWhile_append_dropWhile]
      · cases h
        exact ⟨[], .absent, rfl⟩

/-- What is read is a numeral at the beginning of the text. -/
theorem exists_isNumeral {cs rest : List Char} {n : Numeral} (h : read? cs = some (n, rest)) :
    ∃ numeral, IsNumeral numeral n ∧ cs = numeral ++ rest := by
  cases hsign : sign cs with
  | mk negative body =>
    obtain ⟨signed, hs, rfl⟩ := Text.Integer.exists_isSign hsign
    cases hfraction : readFraction (body.dropWhile isDigit) with
    | mk fraction tail =>
      cases hexponent : readExponent tail with
      | mk exponent rest =>
        simp only [read?, hsign, hfraction, hexponent] at h
        split at h
        · cases h
        · next hne =>
          cases h
          obtain ⟨mantissa, hm, hbody⟩ :=
            exists_isMantissa hfraction (Bool.eq_false_of_not_eq_true hne)
          obtain ⟨marked, he, rfl⟩ := exists_isExponent hexponent
          refine ⟨_, ⟨hs, hm, he⟩, ?_⟩
          rw [hbody, List.append_assoc, List.append_assoc]

/-! ## What a numeral denotes -/

/-- The decimal number that a numeral denotes. -/
def exact (n : Numeral) : Rat :=
  Binary64.signedRat n.negative
    ((number n.whole + number n.fraction / (10 : Rat) ^ n.fraction.length) *
      (10 : Rat) ^ n.exponent)

/-- The value of a numeral is the number of the format nearest to what it denotes. -/
theorem value_isNearestTo (n : Numeral) : n.value.IsNearestTo n.exact := by
  have hten : (10 : Rat) ≠ 0 := by norm_num
  have hshift : ((number (n.whole ++ n.fraction) : Nat) : Rat) *
      (10 : Rat) ^ (n.exponent - (n.fraction.length : Int)) =
        (number n.whole + number n.fraction / (10 : Rat) ^ n.fraction.length) *
          (10 : Rat) ^ n.exponent := by
    have hcast : ((Nat.pow 10 n.fraction.length : Nat) : Rat) = (10 : Rat) ^ n.fraction.length :=
      Nat.cast_pow 10 _
    have hpow : (10 : Rat) ^ n.fraction.length ≠ 0 := pow_ne_zero _ hten
    rw [Text.Digit.number_append, Nat.cast_add, Nat.cast_mul, hcast, zpow_sub₀ hten, zpow_natCast,
      mul_div_assoc', mul_div_right_comm, add_div, mul_div_cancel_right₀ _ hpow]
  rw [exact, ← hshift]
  exact Binary64.ofDecimal_isNearestTo _ _ _

theorem value_isNegative (n : Numeral) : n.value.isNegative = n.negative :=
  Binary64.ofDecimal_isNegative _ _ _

/-! ## Scripts -/

/-- The numeral with its digits in ASCII. -/
def toAscii (n : Numeral) : Numeral :=
  { n with whole := n.whole.map Text.Digit.toAscii, fraction := n.fraction.map Text.Digit.toAscii }

theorem value_toAscii (n : Numeral) : n.toAscii.value = n.value := by
  rw [value, value, toAscii, ← List.map_append, Text.Digit.number_map_toAscii, List.length_map]

end Numeral

theorem IsRow.map_toAscii {ds : List Char} (h : IsRow ds) : IsRow (ds.map toAscii) where
  ne_nil := by simpa using h.ne_nil
  isDigit_of_mem := Text.Digit.isDigit_of_mem_map_toAscii h.isDigit_of_mem

theorem map_toAscii_of_isSign {cs : List Char} {negative : Bool} (h : IsSign cs negative) :
    cs.map toAscii = cs := by
  cases h <;> decide

theorem IsMantissa.map_toAscii {cs whole fraction : List Char} (h : IsMantissa cs whole fraction) :
    IsMantissa (cs.map toAscii) (whole.map toAscii) (fraction.map toAscii) := by
  have hpoint : toAscii '.' = '.' := by decide
  cases h with
  | whole h => exact .whole h.map_toAscii
  | pointed h hf =>
    rw [List.map_append, List.map_cons, hpoint]
    exact .pointed h.map_toAscii (Text.Digit.isDigit_of_mem_map_toAscii hf)
  | fraction h =>
    rw [List.map_cons, hpoint]
    exact .fraction h.map_toAscii

theorem IsExponent.map_toAscii {cs : List Char} {exponent : Int} (h : IsExponent cs exponent) :
    IsExponent (cs.map toAscii) exponent := by
  cases h with
  | absent => exact .absent
  | marked hmark hs h =>
    have hkeep {mark : Char} (hmark : mark = 'e' ∨ mark = 'E') : toAscii mark = mark := by
      rcases hmark with rfl | rfl
      · decide
      · decide
    rw [List.map_cons, List.map_append, hkeep hmark, map_toAscii_of_isSign hs,
      ← Text.Digit.number_map_toAscii]
    exact .marked hmark hs h.map_toAscii

/-- In ASCII digits a numeral is the same numeral in ASCII digits. -/
theorem IsNumeral.map_toAscii {cs : List Char} {n : Numeral} (h : IsNumeral cs n) :
    IsNumeral (cs.map toAscii) n.toAscii := by
  obtain ⟨hs, hm, he⟩ := h
  rw [List.map_append, List.map_append, map_toAscii_of_isSign hs]
  exact ⟨hs, hm.map_toAscii, he.map_toAscii⟩

end VectorStyle.Length
