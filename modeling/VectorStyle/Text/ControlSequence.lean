/-!
# Control sequences

A control sequence tells a terminal how to show a text and is no part of the text. It is the escape
character and an opening bracket, any number of parameters from `0` to `?`, any number of
intermediates from the space to `/`, and one final character from `@` to `~`.

`withoutControlSequences` leaves the control sequences out, in one pass from left to right: a
sequence that comes about only when another one is left out stays. The pass ends because a control
sequence is not empty (`length_lt_of_after?`).
-/

set_option autoImplicit false

namespace VectorStyle.Text

namespace ControlSequence

/-- The character that begins a control sequence. -/
def escape : Char := '\x1b'

/-- Whether a character is a parameter. -/
def isParameter (c : Char) : Bool := 0x30 ≤ c.toNat && c.toNat ≤ 0x3f

/-- Whether a character is an intermediate. -/
def isIntermediate (c : Char) : Bool := 0x20 ≤ c.toNat && c.toNat ≤ 0x2f

/-- Whether a character ends a control sequence. -/
def isFinal (c : Char) : Bool := 0x40 ≤ c.toNat && c.toNat ≤ 0x7e

/-- What follows the parameters, the intermediates and the final character at the beginning of a
text, if they are there. -/
def afterBody? (cs : List Char) : Option (List Char) :=
  match (cs.dropWhile isParameter).dropWhile isIntermediate with
  | [] => none
  | c :: rest => if isFinal c then some rest else none

/-- What follows the control sequence at the beginning of a text, if there is one. -/
def after? : List Char → Option (List Char)
  | c :: '[' :: cs => if c = escape then afterBody? cs else none
  | _ => none

theorem length_lt_of_afterBody? {cs rest : List Char} (h : afterBody? cs = some rest) :
    rest.length < cs.length := by
  unfold afterBody? at h
  have hdrop : ((cs.dropWhile isParameter).dropWhile isIntermediate).length ≤ cs.length :=
    Nat.le_trans (List.dropWhile_suffix _).length_le (List.dropWhile_suffix _).length_le
  split at h
  · cases h
  · next c tail heq =>
    rw [heq, List.length_cons] at hdrop
    split at h
    · cases h
      exact hdrop
    · cases h

theorem length_lt_of_after? {cs rest : List Char} (h : after? cs = some rest) :
    rest.length < cs.length := by
  unfold after? at h
  split at h
  · next c tail =>
    split at h
    · have hlt := length_lt_of_afterBody? h
      simp only [List.length_cons]
      omega
    · cases h
  · cases h

/-- The characters of a text without the control sequences. -/
def remove : List Char → List Char
  | [] => []
  | c :: cs =>
    match h : after? (c :: cs) with
    | some rest =>
      have : rest.length < cs.length + 1 := length_lt_of_after? h
      remove rest
    | none => c :: remove cs
termination_by cs => cs.length
decreasing_by
  · exact this
  · exact Nat.lt_succ_self _

end ControlSequence

/-- A text without the control sequences in it. -/
def withoutControlSequences (s : String) : String :=
  String.ofList (ControlSequence.remove s.toList)

end VectorStyle.Text
