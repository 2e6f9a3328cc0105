import VectorStyle.Proofs.Decimal.Digits
import VectorStyle.Proofs.Text.Scripts
import VectorStyle.Text.Integer

/-!
# Integers in decimal digits

A sign is taken off a text where no other one follows it. A row of ASCII digits is an integer
literal as it stands: there is no padding to drop and no sign.

Main statements: `Integer.sign_append`, the sign at the beginning of a text; `Integer.read?_digits`
and `Integer.read?_toString`.
-/

set_option autoImplicit false

namespace VectorStyle.Text

/-- No digit is a blank. -/
theorem isBlank_of_ascii {c : Char} (h : c.isDigit = true) : isBlank c = false :=
  Digit.isBlank_of_isDigit (Digit.isDigit_of_ascii h)

theorem Chars.stripBy_eq_self {p : Char → Bool} {cs : List Char} (h : ∀ c ∈ cs, p c = false) :
    stripBy p cs = cs := by
  have hkeep (ds : List Char) (hds : ∀ c ∈ ds, p c = false) : ds.dropWhile p = ds := by
    cases ds with
    | nil => rfl
    | cons d ds => rw [List.dropWhile_cons, if_neg (by simp [hds d List.mem_cons_self])]
  have hreverse : ∀ c ∈ cs.reverse, p c = false := fun c hc => h c (List.mem_reverse.1 hc)
  rw [stripBy, hkeep cs h, hkeep cs.reverse hreverse, List.reverse_reverse]

namespace Integer

/-! ## Signs -/

/-- An optional sign, and whether it is a minus sign. -/
inductive IsSign : List Char → Bool → Prop
  | absent : IsSign [] false
  | plus : IsSign ['+'] false
  | minus : IsSign ['-'] true

/-- The sign at the beginning of a text, where it is followed by none. -/
theorem sign_append {cs : List Char} {negative : Bool} (h : IsSign cs negative) {rest : List Char}
    (hrest : ∀ c ∈ rest.head?, c ≠ '+' ∧ c ≠ '-') : sign (cs ++ rest) = (negative, rest) := by
  cases h with
  | plus => rfl
  | minus => rfl
  | absent =>
    cases rest with
    | nil => rfl
    | cons c rest =>
      obtain ⟨hplus, hminus⟩ := hrest c rfl
      simp [sign, hplus, hminus]

theorem exists_isSign {cs body : List Char} {negative : Bool} (h : sign cs = (negative, body)) :
    ∃ signed, IsSign signed negative ∧ cs = signed ++ body := by
  unfold sign at h
  split at h
  · cases h
    exact ⟨_, .plus, rfl⟩
  · cases h
    exact ⟨_, .minus, rfl⟩
  · cases h
    exact ⟨_, .absent, rfl⟩

theorem ne_sign_of_isDigit {c : Char} (h : Digit.isDigit c = true) : c ≠ '+' ∧ c ≠ '-' := by
  constructor
  · rintro rfl
    exact absurd h (by decide)
  · rintro rfl
    exact absurd h (by decide)

/-- What begins with a digit has no sign. -/
theorem sign_of_ascii {cs : List Char} (h : ∀ c ∈ cs.head?, c.isDigit = true) :
    sign cs = (false, cs) :=
  sign_append .absent fun c hc => ne_sign_of_isDigit (Digit.isDigit_of_ascii (h c hc))

/-! ## Digits -/

/-- Digits that are not too many are read as the number that they denote. -/
theorem read?_digits {ds : List Char} (hne : ds ≠ []) (h : ∀ c ∈ ds, c.isDigit = true)
    (hlength : ds.length ≤ maxDigits) :
    read? (String.ofList ds) = some (Digit.number ds : Int) := by
  have hstrip : Chars.stripBy isPadding ds = ds := by
    apply Chars.stripBy_eq_self
    intro c hc
    rw [isPadding, isBlank_of_ascii (h c hc), Bool.false_and]
  have hsign : sign ds = (false, ds) := sign_of_ascii fun c hc => h c (List.mem_of_mem_head? hc)
  have hdigits : digits? ds = some ds :=
    digits?_of_isDigit ds hne fun c hc => Digit.isDigit_of_ascii (h c hc)
  rw [read?, String.toList_ofList, hstrip, hsign]
  simp only [hdigits, Option.bind_some, if_pos hlength, Bool.false_eq_true, if_false]

/-- A number in decimal digits is read as itself, if they are not too many. -/
theorem read?_toString {n k : Nat} (h : n < Nat.pow 10 (k + 1)) (hk : k < maxDigits) :
    read? (toString n) = some (n : Int) := by
  have hlength : (Nat.toDigits 10 n).length ≤ k + 1 :=
    (Nat.length_toDigits_le_iff (by omega) (Nat.succ_pos k)).2 h
  rw [Nat.toString_eq_ofList_toDigits,
    read?_digits Nat.toDigits_ne_nil (Digit.isDigit_of_mem_toDigits n) (by omega),
    Digit.number_toDigits]

/-- A power of ten has one digit more than its exponent says. -/
theorem read?_pow_ten {k : Nat} (hk : k < maxDigits) :
    read? (toString (Nat.pow 10 k)) = some ((Nat.pow 10 k : Nat) : Int) :=
  read?_toString (Nat.pow_lt_pow_right (by omega) (Nat.lt_succ_self k)) hk

end Integer

end VectorStyle.Text
