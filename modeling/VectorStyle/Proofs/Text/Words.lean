import VectorStyle.Proofs.Text.Runs

/-!
# Words between blanks

A text is a row of words with gaps between them. A gap is a run of blanks, of which there is at
least one between two words, and a word is a run of other characters that goes on up to the next
gap. So every text has one row of words, and it is the one that `words` finds. Words that are joined
by single spaces are the words of what comes out, however large the gaps were that they stood
between before.

Main statements: `words_eq_iff`, the words of a text as a relation; and `hasWords_intercalate`,
words joined by spaces.
-/

set_option autoImplicit false

namespace VectorStyle.Text

namespace Chars

/-- The row of words of a text. -/
inductive HasWords : List Char → List (List Char) → Prop
  | gap {blanks : List Char} (hblanks : ∀ c ∈ blanks, isBlank c = true) : HasWords blanks []
  | word {blanks w rest : List Char} {ws : List (List Char)}
      (hblanks : ∀ c ∈ blanks, isBlank c = true) (hne : w ≠ [])
      (hword : ∀ c ∈ w, isBlank c = false) (hends : ∀ c ∈ rest.head?, isBlank c = true)
      (hrest : HasWords rest ws) : HasWords (blanks ++ (w ++ rest)) (w :: ws)

variable {cs w : List Char} {ws : List (List Char)}

/-- Where there is a word, there is a character that is no blank. -/
theorem HasWords.ne_nil (h : HasWords cs ws) (hcs : ∃ c ∈ cs, isBlank c = false) : ws ≠ [] := by
  obtain ⟨c, hc, hvisible⟩ := hcs
  cases h with
  | gap hblanks =>
    rw [hblanks c hc] at hvisible
    cases hvisible
  | word => exact List.cons_ne_nil _ _

/-- Words are not empty and hold no blank. -/
theorem HasWords.isWord (h : HasWords cs ws) : ∀ w ∈ ws, w ≠ [] ∧ ∀ c ∈ w, isBlank c = false := by
  induction h with
  | gap => exact List.forall_mem_nil _
  | word _ hne hword _ _ ih => exact List.forall_mem_cons.2 ⟨⟨hne, hword⟩, ih⟩

/-- A gap in front changes nothing. -/
theorem HasWords.behind_gap {blanks : List Char} (hblanks : ∀ c ∈ blanks, isBlank c = true)
    (h : HasWords cs ws) : HasWords (blanks ++ cs) ws := by
  cases h with
  | gap hcs => exact .gap (List.forall_mem_append.2 ⟨hblanks, hcs⟩)
  | word hbefore hne hword hends hrest =>
    rw [← List.append_assoc]
    exact .word (List.forall_mem_append.2 ⟨hblanks, hbefore⟩) hne hword hends hrest

/-! ## The words that are found -/

theorem words_append_gap {blanks : List Char} (h : ∀ c ∈ blanks, isBlank c = true)
    (cs : List Char) :
    words (blanks ++ cs) = words cs := by
  induction blanks with
  | nil => rfl
  | cons b blanks ih =>
    rw [List.forall_mem_cons] at h
    rw [List.cons_append, words, List.splitOnP_cons_eq_if_modifyHead, if_pos h.1,
      List.filter_cons_of_neg (by simp), ← words, ih h.2]

/-- A word that goes on up to a gap is found in front of the others. -/
theorem words_append_word (hne : w ≠ []) (hword : ∀ c ∈ w, isBlank c = false) {rest : List Char}
    (hends : ∀ c ∈ rest.head?, isBlank c = true) : words (w ++ rest) = w :: words rest := by
  have hkept (us : List (List Char)) :
      (w :: us).filter (fun u => !u.isEmpty) = w :: us.filter fun u => !u.isEmpty :=
    List.filter_cons_of_pos (by simpa using hne)
  cases rest with
  | nil =>
    rw [List.append_nil, words, List.splitOnP_eq_singleton hword, hkept]
    rfl
  | cons b rest =>
    -- the blank that ends the word belongs to the gap
    have hb : isBlank b = true := hends b rfl
    have hgap : words (b :: rest) = words rest :=
      words_append_gap (List.forall_mem_singleton.2 hb) rest
    rw [hgap, words, List.splitOnP_append_cons _ _ hb, List.splitOnP_eq_singleton hword,
      List.singleton_append, hkept, ← words]

theorem HasWords.words_eq (h : HasWords cs ws) : words cs = ws := by
  induction h with
  | @gap blanks hblanks =>
    rw [← List.append_nil blanks, words_append_gap hblanks]
    rfl
  | word hblanks hne hword hends _ ih =>
    rw [words_append_gap hblanks, words_append_word hne hword hends, ih]

/-- Every text has a row of words. -/
theorem exists_hasWords (cs : List Char) : ∃ ws, HasWords cs ws := by
  -- by the length: what follows the first word is shorter
  induction hlength : cs.length using Nat.strongRecOn generalizing cs with
  | ind n ih =>
    obtain ⟨blanks, core, rfl, hblanks, hcore⟩ := exists_run isBlank cs
    obtain ⟨w, rest, rfl, hword, hends⟩ := exists_run (fun c => !isBlank c) core
    simp only [Bool.not_eq_true', Bool.not_eq_false'] at hword hends
    cases w with
    | nil =>
      -- no character is both no blank and the first one behind the word
      cases rest with
      | nil => exact ⟨[], .gap (by simpa using hblanks)⟩
      | cons c rest => cases (hends c rfl).symm.trans (hcore c rfl)
    | cons c w =>
      have hshort : rest.length < n := by
        simp only [List.length_append, List.length_cons] at hlength
        omega
      obtain ⟨ws, hrest⟩ := ih _ hshort rest rfl
      exact ⟨(c :: w) :: ws, .word hblanks (List.cons_ne_nil c w) hword hends hrest⟩

theorem words_eq_iff : words cs = ws ↔ HasWords cs ws := by
  constructor
  · rintro rfl
    obtain ⟨ws, h⟩ := exists_hasWords cs
    rwa [h.words_eq]
  · exact HasWords.words_eq

/-! ## Joined words -/

theorem hasWords_intercalate (h : ∀ w ∈ ws, w ≠ [] ∧ ∀ c ∈ w, isBlank c = false) :
    HasWords ([' '].intercalate ws) ws := by
  have hspace : ∀ c ∈ [' '], isBlank c = true := List.forall_mem_singleton.2 rfl
  induction ws with
  | nil => exact .gap (List.forall_mem_nil _)
  | cons w ws ih =>
    rw [List.forall_mem_cons] at h
    have hfirst {rest : List Char} (hends : ∀ c ∈ rest.head?, isBlank c = true)
        (hrest : HasWords rest ws) : HasWords (w ++ rest) (w :: ws) :=
      .word (List.forall_mem_nil _) h.1.1 h.1.2 hends hrest
    cases ws with
    | nil =>
      have hlast := hfirst (by simp) (.gap (List.forall_mem_nil _))
      rw [List.append_nil] at hlast
      rwa [List.intercalate_singleton]
    | cons v ws =>
      rw [List.intercalate_cons_cons, List.append_assoc]
      exact hfirst (by simpa using hspace) ((ih h.2).behind_gap hspace)

end Chars

/-- The row of words of a text. -/
def HasWords (s : String) (ws : List String) : Prop :=
  Chars.HasWords s.toList (ws.map String.toList)

/-- The text is not empty and holds no blank. -/
def IsWord (w : String) : Prop := w ≠ "" ∧ ∀ c ∈ w.toList, isBlank c = false

variable {s : String} {ws : List String}

theorem words_eq_iff : words s = ws ↔ HasWords s ws := by
  rw [HasWords, ← Chars.words_eq_iff, words]
  constructor
  · rintro rfl
    simp
  · intro h
    rw [h]
    simp

theorem HasWords.isWord (h : HasWords s ws) : ∀ w ∈ ws, IsWord w := by
  intro w hw
  have hchars := Chars.HasWords.isWord h _ (List.mem_map_of_mem hw)
  rwa [ne_eq, String.toList_eq_nil_iff] at hchars

/-- Words that are joined by spaces are found again. -/
theorem hasWords_intercalate (h : ∀ w ∈ ws, IsWord w) : HasWords (" ".intercalate ws) ws := by
  have hspace : " ".toList = [' '] := rfl
  rw [HasWords, String.toList_intercalate, hspace]
  apply Chars.hasWords_intercalate
  rw [List.forall_mem_map]
  intro w hw
  rw [ne_eq, String.toList_eq_nil_iff]
  exact h w hw

end VectorStyle.Text
