import VectorStyle.Proofs.CommandLine.Calls
import VectorStyle.Proofs.CommandLine.Tasks
import VectorStyle.Proofs.Length.Percentages

/-!
# Relative lengths on the command line

A run of `resolve` on words that are lengths reads each of them, and prints one line for each of
them. A relative length is not converted, so its line shows one text twice. The text is the one that
the length is written with, which need not be the word it was read from: a whole percentage is read
and written with two roundings in between.

Main statements: `run_resolve_relative`, what is printed for relative lengths; and
`resolve_percent`, which whole percentages are printed unchanged.
-/

set_option autoImplicit false

namespace VectorStyle.CommandLine

open Binary64 (FallsShort Overshoots broughtBack)

/-! ## Relative lengths -/

/-- The line for a length that is not converted. -/
def unchangedLine (l : Length) : String := l.text ++ " -> " ++ l.text ++ "\n"

/-- Relative lengths are printed as they are, and nothing fails. -/
theorem outcome_convert_relative (dpi : Int) (level : LogLevel) {lengths : List Length}
    (h : ∀ l ∈ lengths, l.isRelative = true) :
    (Task.convert dpi lengths).outcome level =
      ⟨0, String.join (lengths.map unchangedLine), "", some level, none⟩ := by
  apply Task.outcome_of_lines_eq
  rw [Task.lines, List.map_map]
  apply List.map_congr_left
  intro l hl
  rw [conversionLine, Length.toUserUnits_of_isRelative (h l hl)]
  rfl

/-- A run of `resolve` on relative lengths. -/
theorem run_resolve_relative {words : List String} {lengths : List Length} {env : Environment}
    {config : Config} (hne : words ≠ []) (hwords : ∀ w ∈ words, isOption w = false)
    (hread : List.Forall₂ (fun w l => Length.read w = .ok l) words lengths)
    (hrelative : ∀ l ∈ lengths, l.isRelative = true)
    (hconfig : Config.ofEnvironment env = .ok config) :
    run (Command.resolve.name :: words) env =
      ⟨0, String.join (lengths.map unchangedLine), "", some config.level, none⟩ := by
  have hrun := run_resolveWords hconfig .nothing (.of_texts hwords) hne hread
  exact hrun.trans (outcome_convert_relative _ _ hrelative)

/-! ## Whole percentages -/

/-- A whole number with a percent sign is no option. -/
theorem isOption_percent (p : Nat) : isOption (toString p ++ "%") = false := by
  have hne : Nat.toDigits 10 p ≠ [] := Nat.toDigits_ne_nil
  have hdigits := Text.Digit.isDigit_of_mem_toDigits p
  obtain ⟨c, cs, hcs⟩ := List.exists_cons_of_ne_nil hne
  -- the first character is a digit, not a dash
  have hc : c ≠ '-' := by
    rintro rfl
    rw [hcs] at hdigits
    exact absurd (hdigits '-' List.mem_cons_self) (by decide)
  simp [isOption, hcs, hc]

/-- Which whole percentages `resolve` prints unchanged, and what it prints for the others. -/
theorem resolve_percent {p : Nat} (hp : p < Nat.pow 2 53) :
    ∃ l, Length.read (toString p ++ "%") = .ok l ∧ l.unit = .percent ∧
      l.text = toString (broughtBack p) ++ "%" ∧
      (l.text = toString p ++ "%" ↔ ¬ FallsShort p ∧ ¬ Overshoots p) ∧
      ∀ (env : Environment) (config : Config), Config.ofEnvironment env = .ok config →
        run ["resolve", toString p ++ "%"] env =
          ⟨0, l.text ++ " -> " ++ l.text ++ "\n", "", some config.level, none⟩ := by
  have htext := Length.text_percent hp
  refine ⟨Length.ofPercent p, Length.read_percent hp, rfl, htext, ?_, ?_⟩
  · rw [htext, String.append_left_inj, Text.Digit.toString_inj, Binary64.broughtBack_eq_self_iff]
  · intro env config hconfig
    have hjoin : String.join ([Length.ofPercent p].map unchangedLine) =
        (Length.ofPercent p).text ++ " -> " ++ (Length.ofPercent p).text ++ "\n" := by
      rw [List.map_singleton, String.join_cons, String.join_nil, String.append_empty, unchangedLine]
    rw [← hjoin]
    apply run_resolve_relative (List.cons_ne_nil _ [])
    · exact List.forall_mem_singleton.2 (isOption_percent p)
    · exact .cons (Length.read_percent hp) .nil
    · exact List.forall_mem_singleton.2 rfl
    · exact hconfig

/-- What `resolve` prints for `57%` is `56% -> 56%`. -/
theorem resolve_percent_fifty_seven :
    57 < Nat.pow 2 53 ∧ ∃ l, Length.read "57%" = .ok l ∧ l.unit = .percent ∧ l.text = "56%" ∧
      ∀ (env : Environment) (config : Config), Config.ofEnvironment env = .ok config →
        run ["resolve", "57%"] env =
          ⟨0, "56% -> 56%\n", "", some config.level, none⟩ := by
  have hp : 57 < Nat.pow 2 53 := by decide
  obtain ⟨l, hread, hunit, htext, -, hrun⟩ := resolve_percent hp
  have hback : broughtBack 57 = 56 := by decide
  have hword : toString 57 ++ "%" = "57%" := by decide
  have hshown : toString (broughtBack 57) ++ "%" = "56%" := by
    rw [hback]
    decide
  rw [hshown] at htext
  rw [hword] at hread hrun
  refine ⟨hp, l, hread, hunit, htext, ?_⟩
  intro env config hconfig
  rw [hrun env config hconfig, htext]
  rfl

end VectorStyle.CommandLine
