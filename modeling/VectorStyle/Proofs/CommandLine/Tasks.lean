import VectorStyle.CommandLine.Run
import VectorStyle.Proofs.Binary64.Range
import VectorStyle.Proofs.Results

/-!
# Carrying out a task

A task prints one line for each of its lengths. The line of a physical length fails where the
resolution is out of the range of the format, and no other line fails. So either every line is
printed, or those of the lengths before the first physical one.

Main statements: `exists_outcome`, where no line fails, and `exists_outcome_of_overflows`, where one
does.
-/

set_option autoImplicit false

namespace VectorStyle.CommandLine.Task

/-- The resolution of a task. -/
def dpi : Task → Int
  | convert dpi _ => dpi
  | listUnits dpi => dpi

/-- The lengths of a task: those that are given, or one of each unit. -/
def lengths : Task → List Length
  | convert _ ls => ls
  | listUnits _ => LengthUnit.all.map fun u => ⟨Binary64.ofInt 1, u⟩

/-- What is printed before the lines of the lengths. -/
def heading : Task → List String
  | convert .. => []
  | listUnits dpi => ["DPI: " ++ toString dpi ++ "\n"]

/-- The line of a length. -/
def line : Task → Length → Except Length.ConversionError String
  | convert dpi _, l => conversionLine dpi l
  | listUnits dpi, l => unitLine dpi l.unit

/-- A length has to be scaled by the resolution, which is too large a number. -/
def Overflows (t : Task) : Prop :=
  Binary64.wholeOverflow ≤ t.dpi.natAbs ∧ ∃ l ∈ t.lengths, l.isPhysical = true

theorem lines_eq (t : Task) : t.lines = t.heading.map .ok ++ t.lengths.map t.line := by
  cases t with
  | convert dpi ls => rfl
  | listUnits dpi =>
    rw [lines, heading, lengths, List.map_map]
    rfl

/-! ## Lines -/

/-- A line fails for a physical length, if the resolution is too large. -/
theorem line_eq_error_iff {t : Task} {l : Length} (hl : l ∈ t.lengths)
    (e : Length.ConversionError) :
    t.line l = .error e ↔ l.isPhysical = true ∧ Binary64.wholeOverflow ≤ t.dpi.natAbs := by
  cases t with
  | convert dpi ls =>
    rw [line, conversionLine, map_eq_error_iff, Length.toUserUnits_eq_error_iff,
      Binary64.ofInt?_eq_none_iff]
    rfl
  | listUnits dpi =>
    obtain ⟨u, -, rfl⟩ := List.mem_map.1 hl
    rw [line, unitLine, map_eq_error_iff, unitSize]
    cases hrelative : u.isRelative with
    | true =>
      have hphysical : u.isPhysical = false := by
        cases u <;> first | rfl | cases hrelative
      simp [Length.isPhysical, hphysical]
    | false =>
      rw [if_neg Bool.false_ne_true, map_eq_error_iff, Length.toUserUnits_eq_error_iff,
        Binary64.ofInt?_eq_none_iff]
      rfl

/-- Lengths whose lines do not fail have lines. -/
theorem exists_lines {t : Task} {ls : List Length} (hls : ∀ l ∈ ls, l ∈ t.lengths)
    (h : ∀ l ∈ ls, l.isPhysical = true → t.dpi.natAbs < Binary64.wholeOverflow) :
    ∃ printed, List.Forall₂ (fun l line => t.line l = .ok line) ls printed := by
  apply exists_forall₂_ok
  intro l hl
  cases hline : t.line l with
  | ok line => exact ⟨line, rfl⟩
  | error e =>
    obtain ⟨hphysical, hlarge⟩ := (line_eq_error_iff (hls l hl) e).1 hline
    exact absurd (h l hl hphysical) (Nat.not_lt.2 hlarge)

/-! ## Outcomes -/

theorem level_outcome (t : Task) (level : LogLevel) : (t.outcome level).level = some level := rfl

/-- The level does not change what is printed. -/
theorem stdout_outcome (t : Task) (level level' : LogLevel) :
    (t.outcome level).stdout = (t.outcome level').stdout := rfl

/-- Lines none of which fails are printed. -/
theorem outcome_of_lines_eq {t : Task} {printed : List String} (h : t.lines = printed.map .ok)
    (level : LogLevel) : t.outcome level = ⟨0, String.join printed, "", some level, none⟩ := by
  have hnone : printUntilFailure ([] : List (Except Length.ConversionError String)) = ("", none) :=
    rfl
  rw [outcome, h, ← List.append_nil (List.map _ _), printUntilFailure_eq, hnone,
    String.append_empty]
  rfl

/-- The lines before one that fails are printed. -/
theorem outcome_of_lines_eq_append {t : Task} {printed : List String} {e : Length.ConversionError}
    {rest : List (Except Length.ConversionError String)}
    (h : t.lines = printed.map .ok ++ .error e :: rest) (level : LogLevel) :
    t.outcome level = ⟨1, String.join printed, "", some level, some e⟩ := by
  rw [outcome, h, printUntilFailure_eq, printUntilFailure, String.append_empty]
  rfl

/-- A task prints the lines of all lengths, if none fails. -/
theorem exists_outcome {t : Task} (h : ¬ t.Overflows) (level : LogLevel) :
    ∃ printed, List.Forall₂ (fun l line => t.line l = .ok line) t.lengths printed ∧
      t.outcome level = ⟨0, String.join (t.heading ++ printed), "", some level, none⟩ := by
  have hsmall : ∀ l ∈ t.lengths, l.isPhysical = true → t.dpi.natAbs < Binary64.wholeOverflow := by
    intro l hl hphysical
    apply Nat.lt_of_not_le
    intro hlarge
    exact h ⟨hlarge, l, hl, hphysical⟩
  obtain ⟨printed, hprinted⟩ := exists_lines (fun l hl => hl) hsmall
  refine ⟨printed, hprinted, outcome_of_lines_eq ?_ level⟩
  rw [lines_eq, map_eq_map_ok hprinted, List.map_append]

/-- A task whose resolution is too large prints the lines before that of the first physical
length. -/
theorem exists_outcome_of_overflows {t : Task} (h : t.Overflows) (level : LogLevel) :
    ∃ before l after printed, t.lengths = before ++ l :: after ∧
      (∀ m ∈ before, m.isPhysical = false) ∧ l.isPhysical = true ∧
      List.Forall₂ (fun l line => t.line l = .ok line) before printed ∧
      t.outcome level =
        ⟨1, String.join (t.heading ++ printed), "", some level, some .resolutionTooLarge⟩ := by
  obtain ⟨hlarge, hphysical⟩ := h
  -- the first physical length, and those before it
  obtain ⟨l, hfind⟩ := Option.isSome_iff_exists.1 (List.find?_isSome.2 hphysical)
  obtain ⟨hl, before, after, hsplit, hbefore⟩ := List.find?_eq_some_iff_append.1 hfind
  have hmem : ∀ m ∈ before, m ∈ t.lengths := by
    intro m hm
    rw [hsplit]
    exact List.mem_append_left _ hm
  have hnone : ∀ m ∈ before, m.isPhysical = false := by
    intro m hm
    simpa using hbefore m hm
  have hsmall : ∀ m ∈ before, m.isPhysical = true → t.dpi.natAbs < Binary64.wholeOverflow := by
    intro m hm hm'
    rw [hnone m hm] at hm'
    cases hm'
  obtain ⟨printed, hprinted⟩ := exists_lines hmem hsmall
  have hlast : t.line l = .error .resolutionTooLarge := by
    have hin : l ∈ t.lengths := by
      rw [hsplit]
      exact List.mem_append_right _ List.mem_cons_self
    exact (line_eq_error_iff hin _).2 ⟨hl, hlarge⟩
  refine ⟨before, l, after, printed, hsplit, hnone, hl, hprinted, ?_⟩
  apply outcome_of_lines_eq_append
  rw [lines_eq, hsplit, List.map_append, List.map_cons, hlast, map_eq_map_ok hprinted,
    List.map_append, List.append_assoc]

end VectorStyle.CommandLine.Task
