import VectorStyle.Text.Blank
import VectorStyle.Text.Digit

/-!
# Integer literals

An integer literal is an optional sign and decimal digits of any script, with single underscores
allowed between digits and padding around the whole. Leading zeros count as digits, and a literal
has at most 4300 digits.

Main statement: `digits?_of_isDigit`, a row of digits is read as it stands.
-/

set_option autoImplicit false

namespace VectorStyle.Text.Integer

open Digit (isDigit number)

/-- What may stand around a literal: the blanks except the four information separators. -/
def isPadding (c : Char) : Bool := isBlank c && !(0x1c ≤ c.toNat && c.toNat ≤ 0x1f)

/-- A leading sign, as "is it minus", and what follows it. -/
def sign : List Char → Bool × List Char
  | '+' :: rest => (false, rest)
  | '-' :: rest => (true, rest)
  | rest => (false, rest)

/-- The digits of a row of digits with single underscores between some of them. -/
def digits? : List Char → Option (List Char)
  | [] => none
  | c :: rest =>
    if isDigit c then
      match rest with
      | [] => some [c]
      | '_' :: more => (digits? more).map (c :: ·)
      | more => (digits? more).map (c :: ·)
    else none

/-- The greatest number of digits of a literal. Writing a whole number has no such limit here. -/
def maxDigits : Nat := 4300

/-- The number that a literal denotes. -/
def read? (s : String) : Option Int :=
  let (negative, body) := sign (Chars.stripBy isPadding s.toList)
  (digits? body).bind fun ds =>
    if ds.length ≤ maxDigits then
      some (if negative then -(number ds : Int) else number ds)
    else none

theorem digits?_of_isDigit (ds : List Char) (hne : ds ≠ []) (h : ∀ c ∈ ds, isDigit c = true) :
    digits? ds = some ds := by
  induction ds with
  | nil => exact absurd rfl hne
  | cons c rest ih =>
    have hc : isDigit c = true := h c List.mem_cons_self
    cases rest with
    | nil => simp [digits?, hc]
    | cons d more =>
      have hd : d ≠ '_' := by
        rintro rfl
        exact absurd (h '_' (by simp)) (by decide)
      have hrest := ih (by simp) fun e he => h e (List.mem_cons_of_mem _ he)
      rw [digits?, if_pos hc, hrest]
      · rfl
      · simp
      · intro tail heq
        exact hd (List.cons.inj heq).1

end VectorStyle.Text.Integer
