import Mathlib.Data.List.TakeWhile
import VectorStyle.Text.Blank

/-!
# Runs of characters

A text is taken apart where one run of characters ends: at the first character outside a class, or
at each occurrence of a separator.

Main statements: `takeWhile_append_eq`, `dropWhile_append_eq` and `exists_run`, the first run of a
text and what follows it; `stripBy_append_eq`, the runs at both ends; and `intercalate_injective`,
non-empty words with a separator between them.
-/

set_option autoImplicit false

namespace VectorStyle

theorem takeWhile_append_eq {p : Char → Bool} {as bs : List Char} (ha : ∀ c ∈ as, p c = true)
    (hb : ∀ c ∈ bs.head?, p c = false) : (as ++ bs).takeWhile p = as := by
  rw [List.takeWhile_append_of_pos ha]
  cases bs with
  | nil => simp
  | cons b bs => simp [hb b rfl]

theorem dropWhile_append_eq {p : Char → Bool} {as bs : List Char} (ha : ∀ c ∈ as, p c = true)
    (hb : ∀ c ∈ bs.head?, p c = false) : (as ++ bs).dropWhile p = bs := by
  rw [List.dropWhile_append_of_pos ha]
  cases bs with
  | nil => rfl
  | cons b bs => simp [hb b rfl]

/-- Every text is its first run of a class and what follows. -/
theorem exists_run (p : Char → Bool) (cs : List Char) :
    ∃ run rest, cs = run ++ rest ∧ (∀ c ∈ run, p c = true) ∧ ∀ c ∈ rest.head?, p c = false := by
  refine ⟨cs.takeWhile p, cs.dropWhile p, List.takeWhile_append_dropWhile.symm, ?_, ?_⟩
  · intro c hc
    exact List.mem_takeWhile_imp hc
  · intro c hc
    exact Text.Chars.head?_dropWhile p cs c hc

/-- The runs at both ends are stripped, up to the first and the last character outside the class. -/
theorem stripBy_append_eq {p : Char → Bool} {before core after : List Char}
    (hbefore : ∀ c ∈ before, p c = true) (hafter : ∀ c ∈ after, p c = true)
    (hfirst : ∀ c ∈ core.head?, p c = false) (hlast : ∀ c ∈ core.getLast?, p c = false) :
    Text.Chars.stripBy p (before ++ (core ++ after)) = core := by
  have hreverse : ∀ c ∈ after.reverse, p c = true := fun c hc => hafter c (List.mem_reverse.1 hc)
  rw [Text.Chars.stripBy, List.dropWhile_append_of_pos hbefore]
  cases core with
  | nil => simp [List.dropWhile_eq_nil_iff.2 hafter]
  | cons c cs =>
    have hkeep : (c :: cs ++ after).dropWhile p = c :: cs ++ after := by
      simp [hfirst c rfl]
    have hends : ∀ d ∈ (c :: cs).reverse.head?, p d = false := by
      rwa [List.head?_reverse]
    rw [hkeep, List.reverse_append, dropWhile_append_eq hreverse hends, List.reverse_reverse]

/-- Words with a separator between them are determined by the text, where none of them is empty or
holds the separator. -/
theorem intercalate_injective {separator : Char} {ws vs : List (List Char)}
    (hw : ∀ w ∈ ws, w ≠ [] ∧ separator ∉ w) (hv : ∀ v ∈ vs, v ≠ [] ∧ separator ∉ v)
    (h : [separator].intercalate ws = [separator].intercalate vs) : ws = vs := by
  -- without words there is no text, and with words there is one
  have hnil : ∀ us : List (List Char), (∀ u ∈ us, u ≠ [] ∧ separator ∉ u) →
      [separator].intercalate us = [] → us = [] := by
    intro us hu hempty
    cases us with
    | nil => rfl
    | cons u us =>
      have hne : u ≠ [] := (hu u List.mem_cons_self).1
      cases us <;> simp [hne] at hempty
  by_cases hws : ws = []
  · subst hws
    exact (hnil vs hv h.symm).symm
  · by_cases hvs : vs = []
    · subst hvs
      exact hnil ws hw h
    · have hsplit := List.splitOn_intercalate separator (fun w hmem => (hw w hmem).2) hws
      rw [h, List.splitOn_intercalate separator (fun v hmem => (hv v hmem).2) hvs] at hsplit
      exact hsplit.symm

end VectorStyle
