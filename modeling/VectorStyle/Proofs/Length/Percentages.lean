import VectorStyle.Length.Printer
import VectorStyle.Proofs.Binary64.Hundredth
import VectorStyle.Proofs.Length.Reading

/-!
# Percentages that are written whole

A percentage is read as the hundredth of its number and written as the hundredfold, rounded down. A
whole percentage does not always survive that: most are written as they were read, but some are
written one lower, `29%` as `28%`, and some of those beyond `2⁵²` one higher.

Main statements: `read_percent`, the length that is read; `text_percent`, the percentage that is
written; and `percent_not_stable`.
-/

set_option autoImplicit false

namespace VectorStyle.Length

open Binary64 (broughtBack)

/-- The length of a whole percentage. -/
def ofPercent (p : Nat) : Length := ⟨Binary64.ofInt p / Binary64.ofInt 100, .percent⟩

theorem read_percent {p : Nat} (hp : p < Nat.pow 2 53) :
    read (toString p ++ "%") = .ok (ofPercent p) := by
  have hread := read_whole (Nat.le_of_lt hp) .percent
  rwa [ofRead, if_pos rfl] at hread

theorem percentText_eq {x : Binary64} {k : Int} (h : (Binary64.ofInt 100 * x).floor? = some k) :
    percentText x = toString k := by
  unfold percentText percentage
  rw [h]

theorem text_percent {p : Nat} (hp : p < Nat.pow 2 53) :
    (ofPercent p).text = toString (broughtBack p) ++ "%" := by
  have hnat (k : Nat) : toString (k : Int) = toString k := rfl
  rw [text, ofPercent, if_pos rfl, percentText_eq (Binary64.floor?_hundredfold hp), hnat,
    LengthUnit.suffix]

/-- Not every whole percentage is written as it was read: `29%` is not. -/
theorem percent_not_stable :
    ¬ ∀ p < Nat.pow 2 53, ∃ l, read (toString p ++ "%") = .ok l ∧ l.text = toString p ++ "%" := by
  intro hstable
  have hp : 29 < Nat.pow 2 53 := by decide
  obtain ⟨l, hread, htext⟩ := hstable 29 hp
  rw [read_percent hp] at hread
  obtain rfl := Except.ok.inj hread
  rw [text_percent hp, String.append_left_inj, Text.Digit.toString_inj] at htext
  exact absurd htext (by decide)

end VectorStyle.Length
