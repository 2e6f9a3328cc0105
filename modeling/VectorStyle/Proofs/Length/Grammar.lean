import VectorStyle.Proofs.Length.Numerals

/-!
# The grammar of length texts

A length text is a numeral and a unit, with blanks before, between and after them. The unit is a row
of ASCII letters and percent signs, none of which is a blank, a digit or a point. So there is only
one way to take such a text apart, and it is the one that the reader takes. What is left over of a
text that the reader refuses belongs to no part.

Main statements: `readParts?_of_hasParts` and `exists_hasParts`, the reader takes the length texts
apart; `HasParts.unique`, there is no other way; and `read_grammar`.
-/

set_option autoImplicit false

namespace VectorStyle.Length

open Text (isBlank)
open Text.Digit (isDigit toAscii)

/-- A text of blanks, a numeral, blanks, a unit and blanks. -/
inductive HasParts : List Char → List Char → List Char → Prop
  | mk {before value between unit after : List Char} (hbefore : ∀ c ∈ before, isBlank c = true)
      (hvalue : ∃ n, IsNumeral value n) (hbetween : ∀ c ∈ between, isBlank c = true)
      (hunit : ∀ c ∈ unit, isUnitChar c = true) (hafter : ∀ c ∈ after, isBlank c = true) :
      HasParts (before ++ (value ++ (between ++ (unit ++ after)))) value unit

theorem HasParts.exists_isNumeral {cs value unit : List Char} (h : HasParts cs value unit) :
    ∃ n, IsNumeral value n := by
  obtain ⟨-, hvalue, -, -, -⟩ := h
  exact hvalue

/-! ## Where a part ends -/

theorem toNat_of_isUnitChar {c : Char} (h : isUnitChar c = true) :
    c.toNat = 37 ∨ 65 ≤ c.toNat ∧ c.toNat ≤ 122 := by
  rw [isUnitChar, Bool.or_eq_true, beq_iff_eq] at h
  rcases h with halpha | rfl
  · exact .inr (Text.toNat_of_isAlpha halpha)
  · exact .inl rfl

theorem isBlank_of_isUnitChar {c : Char} (h : isUnitChar c = true) : isBlank c = false := by
  have hrange := toNat_of_isUnitChar h
  exact Text.isBlank_of_toNat (by omega)

/-- Neither a digit nor a point stands in a unit. -/
theorem not_isDigit_of_isUnitChar {c : Char} (h : isUnitChar c = true) :
    isDigit c = false ∧ c ≠ '.' := by
  constructor
  · rw [← Bool.not_eq_true]
    intro hdigit
    have hunit := toNat_of_isUnitChar h
    have hrange := Text.Digit.toNat_of_isDigit hdigit
    omega
  · rintro rfl
    exact absurd h (by decide)

/-- Neither a digit nor a point is a blank. -/
theorem not_isDigit_of_isBlank {c : Char} (h : isBlank c = true) : isDigit c = false ∧ c ≠ '.' := by
  constructor
  · rw [← Bool.not_eq_true]
    intro hdigit
    rw [Text.Digit.isBlank_of_isDigit hdigit] at h
    cases h
  · rintro rfl
    exact absurd h (by decide)

/-- No numeral begins with a blank. -/
theorem isBlank_of_mem_head? {value : List Char} {n : Numeral} (h : IsNumeral value n)
    (rest : List Char) :
    ∀ c ∈ (value ++ rest).head?, isBlank c = false := by
  obtain ⟨hs, hm, -⟩ := h
  have hdigits {ds : List Char} (hds : IsRow ds) (tail : List Char) :
      ∀ c ∈ (ds ++ tail).head?, isBlank c = false := fun c hc =>
    Text.Digit.isBlank_of_isDigit (hds.isDigit_of_mem_head? tail c hc)
  have hmarks : isBlank '+' = false ∧ isBlank '-' = false ∧ isBlank '.' = false := by decide
  cases hs with
  | plus =>
    rintro c ⟨⟩
    exact hmarks.1
  | minus =>
    rintro c ⟨⟩
    exact hmarks.2.1
  | absent =>
    rw [List.nil_append, List.append_assoc]
    cases hm with
    | whole hw => exact hdigits hw _
    | pointed hw =>
      rw [List.append_assoc]
      exact hdigits hw _
    | fraction =>
      rintro c ⟨⟩
      exact hmarks.2.2

section Unit

variable {between unit after : List Char} (hbetween : ∀ c ∈ between, isBlank c = true)
variable (hunit : ∀ c ∈ unit, isUnitChar c = true) (hafter : ∀ c ∈ after, isBlank c = true)

include hbetween hunit hafter

/-- Nothing that follows a numeral could belong to it. -/
theorem not_isDigit_of_mem_rest :
    ∀ c ∈ between ++ (unit ++ after), isDigit c = false ∧ c ≠ '.' := by
  intro c hc
  rcases List.mem_append.1 hc with hc | hc
  · exact not_isDigit_of_isBlank (hbetween c hc)
  · rcases List.mem_append.1 hc with hc | hc
    · exact not_isDigit_of_isUnitChar (hunit c hc)
    · exact not_isDigit_of_isBlank (hafter c hc)

/-- The unit is taken off what follows a numeral, and blanks are left. -/
theorem takeWhile_dropWhile_rest :
    ((between ++ (unit ++ after)).dropWhile isBlank).takeWhile isUnitChar = unit ∧
      (((between ++ (unit ++ after)).dropWhile isBlank).dropWhile isUnitChar).all isBlank =
        true := by
  cases unit with
  | nil =>
    -- the blanks on both sides of an empty unit are dropped together
    have hblank : (between ++ ([] ++ after)).dropWhile isBlank = [] := by
      rw [List.dropWhile_eq_nil_iff, List.nil_append, List.forall_mem_append]
      exact ⟨hbetween, hafter⟩
    rw [hblank]
    exact ⟨rfl, rfl⟩
  | cons c cs =>
    have hfirst : ∀ d ∈ (c :: cs ++ after).head?, isBlank d = false := by
      rintro d ⟨⟩
      exact isBlank_of_isUnitChar (hunit c List.mem_cons_self)
    have hend : ∀ d ∈ after.head?, isUnitChar d = false := by
      intro d hd
      rw [← Bool.not_eq_true]
      intro hd'
      have hblank := hafter d (List.mem_of_mem_head? hd)
      rw [isBlank_of_isUnitChar hd'] at hblank
      cases hblank
    rw [dropWhile_append_eq hbetween hfirst, takeWhile_append_eq hunit hend,
      dropWhile_append_eq hunit hend, List.all_eq_true]
    exact ⟨rfl, hafter⟩

end Unit

/-! ## Taking a text apart -/

variable {cs value unit : List Char}

/-- The numeral of a length text is the one that is read after the blanks. -/
theorem read?_of_hasParts (h : HasParts cs value unit) {n : Numeral} (hn : IsNumeral value n) :
    ∃ rest, cs.dropWhile isBlank = value ++ rest ∧
      Numeral.read? (cs.dropWhile isBlank) = some (n, rest) ∧
      (rest.dropWhile isBlank).takeWhile isUnitChar = unit ∧
      ((rest.dropWhile isBlank).dropWhile isUnitChar).all isBlank = true := by
  obtain ⟨hbefore, -, hbetween, hunit, hafter⟩ := h
  refine ⟨_, dropWhile_append_eq hbefore (isBlank_of_mem_head? hn _), ?_,
    takeWhile_dropWhile_rest hbetween hunit hafter⟩
  rw [dropWhile_append_eq hbefore (isBlank_of_mem_head? hn _)]
  exact Numeral.read?_append hn (not_isDigit_of_mem_rest hbetween hunit hafter)

theorem readParts?_of_hasParts (h : HasParts cs value unit) {n : Numeral} (hn : IsNumeral value n) :
    readParts? cs = some (n, unit) := by
  obtain ⟨rest, -, hread, htake, hall⟩ := read?_of_hasParts h hn
  rw [readParts?, hread, Option.bind_some]
  simp only [hall, htake, if_true]

theorem exists_hasParts {n : Numeral} (h : readParts? cs = some (n, unit)) :
    ∃ value, IsNumeral value n ∧ HasParts cs value unit := by
  have hbefore : ∀ c ∈ cs.takeWhile isBlank, isBlank c = true :=
    fun c hc => List.mem_takeWhile_imp hc
  have hsplit := List.takeWhile_append_dropWhile (p := isBlank) (l := cs)
  unfold readParts? at h
  obtain ⟨⟨m, rest⟩, hread, hparts⟩ := Option.bind_eq_some_iff.1 h
  obtain ⟨value, hvalue, hvalueSplit⟩ := Numeral.exists_isNumeral hread
  simp only at hparts
  split at hparts
  · next hall =>
    cases hparts
    have hblanks : ∀ c ∈ rest.takeWhile isBlank, isBlank c = true :=
      fun c hc => List.mem_takeWhile_imp hc
    have hunit : ∀ c ∈ (rest.dropWhile isBlank).takeWhile isUnitChar, isUnitChar c = true :=
      fun c hc => List.mem_takeWhile_imp hc
    have hcs : cs = cs.takeWhile isBlank ++ (value ++ (rest.takeWhile isBlank ++
        ((rest.dropWhile isBlank).takeWhile isUnitChar ++
          (rest.dropWhile isBlank).dropWhile isUnitChar))) := by
      rw [List.takeWhile_append_dropWhile, List.takeWhile_append_dropWhile, ← hvalueSplit, hsplit]
    refine ⟨value, hvalue, ?_⟩
    rw [hcs]
    exact .mk hbefore ⟨_, hvalue⟩ hblanks hunit (List.all_eq_true.1 hall)
  · cases hparts

/-- The numeral and the unit are determined by the text. -/
theorem HasParts.unique {value' unit' : List Char} (h : HasParts cs value unit)
    (h' : HasParts cs value' unit') : value = value' ∧ unit = unit' := by
  obtain ⟨n, hn⟩ := h.exists_isNumeral
  obtain ⟨n', hn'⟩ := h'.exists_isNumeral
  obtain ⟨rest, hsplit, hread, hunit, -⟩ := read?_of_hasParts h hn
  obtain ⟨rest', hsplit', hread', hunit', -⟩ := read?_of_hasParts h' hn'
  -- both numerals are read off the same text, so the same is left of it
  obtain ⟨-, rfl⟩ := Prod.mk.inj (Option.some.inj (hread.symm.trans hread'))
  exact ⟨List.append_cancel_right (hsplit.symm.trans hsplit'), hunit.symm.trans hunit'⟩

/-! ## The length that a text denotes -/

theorem read_of_not_hasParts {s : String} (h : ¬ ∃ value unit, HasParts s.toList value unit) :
    read s = .error (.notALength s) := by
  have hnone : readParts? s.toList = none := by
    rw [Option.eq_none_iff_forall_ne_some]
    rintro ⟨n, unit⟩ hparts
    obtain ⟨value, -, hvalue⟩ := exists_hasParts hparts
    exact h ⟨value, unit, hvalue⟩
  rw [read, hnone]

theorem ofSuffix?_eq_some_iff_toList {cs : List Char} {u : LengthUnit} :
    LengthUnit.ofSuffix? (String.ofList cs) = some u ↔ u.suffix.toList = cs := by
  rw [LengthUnit.ofSuffix?_eq_some_iff, ← String.toList_inj, String.toList_ofList]

section Read

variable {s : String} (h : HasParts s.toList value unit) {n : Numeral} (hn : IsNumeral value n)

include h hn

theorem read_of_unknown (hu : ∀ u : LengthUnit, u.suffix.toList ≠ unit.map Char.toLower) :
    read s = .error (.unknownUnit (String.ofList unit) s) := by
  have hnone : LengthUnit.ofSuffix? (String.ofList (unit.map Char.toLower)) = none := by
    rw [Option.eq_none_iff_forall_ne_some]
    exact fun u hsome => hu u (ofSuffix?_eq_some_iff_toList.1 hsome)
  rw [read, readParts?_of_hasParts h hn]
  simp only [hnone]

theorem read_of_suffix {u : LengthUnit} (hu : u.suffix.toList = unit.map Char.toLower) :
    read s = .ok (ofRead n.value u) := by
  rw [read, readParts?_of_hasParts h hn]
  simp only [ofSuffix?_eq_some_iff_toList.2 hu]

/-- Blanks, the case of the unit and the script of the digits make no difference. -/
theorem read_congr {t : String} {value' unit' : List Char} (h' : HasParts t.toList value' unit')
    (hvalue : value'.map toAscii = value.map toAscii)
    (hunit : unit'.map Char.toLower = unit.map Char.toLower) {l : Length} (hl : read s = .ok l) :
    read t = .ok l := by
  obtain ⟨n', hn'⟩ := h'.exists_isNumeral
  have hsame : n'.toAscii = n.toAscii := by
    have hascii := hn'.map_toAscii
    rw [hvalue] at hascii
    exact Numeral.isNumeral_unique hascii hn.map_toAscii
  by_cases hu : ∃ u : LengthUnit, u.suffix.toList = unit.map Char.toLower
  · obtain ⟨u, hu⟩ := hu
    rw [read_of_suffix h' hn' (hu.trans hunit.symm), ← Numeral.value_toAscii, hsame,
      Numeral.value_toAscii, ← read_of_suffix h hn hu, hl]
  · rw [read_of_unknown h hn (not_exists.1 hu)] at hl
    cases hl

end Read

/-- A text that cannot be taken apart is no length, and one whose unit is no suffix in lower case
has an unknown unit. Any other text denotes the number nearest to what its numeral denotes exactly,
with its unit; percentages are divided by one hundred in the format. There is only one way to take a
text apart, and the length does not depend on blanks, on the case of the unit or on the script of
the digits. -/
theorem read_grammar (s : String) :
    (∀ value unit value' unit', HasParts s.toList value unit → HasParts s.toList value' unit' →
      value = value' ∧ unit = unit') ∧
    ((¬ ∃ value unit, HasParts s.toList value unit) → read s = .error (.notALength s)) ∧
    ∀ value unit n, HasParts s.toList value unit → IsNumeral value n →
      ((∀ u : LengthUnit, u.suffix.toList ≠ unit.map Char.toLower) →
        read s = .error (.unknownUnit (String.ofList unit) s)) ∧
      (∀ u : LengthUnit, u.suffix.toList = unit.map Char.toLower →
        ∃ x : Binary64, x.IsNearestTo n.exact ∧ x.isNegative = n.negative ∧
          read s = .ok ⟨if u = .percent then x / Binary64.ofInt 100 else x, u⟩) ∧
      (∀ (t : String) (value' unit' : List Char), HasParts t.toList value' unit' →
        value'.map toAscii = value.map toAscii → unit'.map Char.toLower = unit.map Char.toLower →
        ∀ l, read s = .ok l → read t = .ok l) := by
  refine ⟨fun _ _ _ _ h h' => h.unique h', read_of_not_hasParts,
    fun value unit n h hn => ⟨?_, ?_, ?_⟩⟩
  · exact read_of_unknown h hn
  · intro u hu
    exact ⟨n.value, n.value_isNearestTo, n.value_isNegative, read_of_suffix h hn hu⟩
  · intro t value' unit' h' hvalue hunit l hl
    exact read_congr h hn h' hvalue hunit hl

/-- Of `"1 e5"` the last digit is left over, furlongs are unknown, and `"-.5E1 Mm"` can be written
in Arabic digits. -/
theorem read_grammar_scripts :
    (¬ ∃ value unit, HasParts "1 e5".toList value unit) ∧
      read "1 e5" = .error (.notALength "1 e5") ∧
      HasParts "5furlong".toList "5".toList "furlong".toList ∧
      read "5furlong" = .error (.unknownUnit "furlong" "5furlong") ∧
      IsNumeral "-.5E1".toList ⟨true, [], ['5'], 1⟩ ∧
      HasParts "\t-.5E1 Mm".toList "-.5E1".toList "Mm".toList ∧
      HasParts "-.٥E1mm".toList "-.٥E1".toList "mm".toList ∧
      ∃ x : Binary64, x.IsNearestTo (Numeral.exact ⟨true, [], ['5'], 1⟩) ∧
        read "\t-.5E1 Mm" = .ok ⟨x, .millimeter⟩ ∧ read "-.٥E1mm" = .ok ⟨x, .millimeter⟩ := by
  have hrow (d : Char) (hd : isDigit d = true) : IsRow [d] :=
    ⟨List.cons_ne_nil d [], List.forall_mem_singleton.2 hd⟩
  have hfive : IsNumeral ['5'] ⟨false, ['5'], [], 0⟩ :=
    .mk .absent (.whole (hrow '5' (by decide))) .absent
  have hhalf : IsNumeral ['-', '.', '5', 'E', '1'] ⟨true, [], ['5'], 1⟩ :=
    .mk .minus (.fraction (hrow '5' (by decide)))
      (.marked (.inr rfl) .absent (hrow '1' (by decide)))
  have hhalf' : IsNumeral ['-', '.', '٥', 'E', '1'] ⟨true, [], ['٥'], 1⟩ :=
    .mk .minus (.fraction (hrow '٥' (by decide)))
      (.marked (.inr rfl) .absent (hrow '1' (by decide)))
  have hfurlong : HasParts "5furlong".toList ['5'] "furlong".toList :=
    @HasParts.mk [] ['5'] [] "furlong".toList [] (List.forall_mem_nil _) ⟨_, hfive⟩
      (List.forall_mem_nil _) (List.all_eq_true.1 (by decide)) (List.forall_mem_nil _)
  have hlatin : HasParts "\t-.5E1 Mm".toList ['-', '.', '5', 'E', '1'] ['M', 'm'] :=
    @HasParts.mk ['\t'] _ [' '] ['M', 'm'] [] (List.forall_mem_singleton.2 (by decide)) ⟨_, hhalf⟩
      (List.forall_mem_singleton.2 (by decide)) (List.all_eq_true.1 (by decide))
      (List.forall_mem_nil _)
  have harabic : HasParts "-.٥E1mm".toList ['-', '.', '٥', 'E', '1'] ['m', 'm'] :=
    @HasParts.mk [] _ [] ['m', 'm'] [] (List.forall_mem_nil _) ⟨_, hhalf'⟩ (List.forall_mem_nil _)
      (List.all_eq_true.1 (by decide)) (List.forall_mem_nil _)
  have hnot : ¬ ∃ value unit, HasParts "1 e5".toList value unit := by
    rintro ⟨value, unit, h⟩
    obtain ⟨n, hn⟩ := h.exists_isNumeral
    have hparts := readParts?_of_hasParts h hn
    have hnone : readParts? "1 e5".toList = none := by decide +kernel
    rw [hnone] at hparts
    cases hparts
  obtain ⟨-, hrefused, -⟩ := read_grammar "1 e5"
  obtain ⟨-, -, hknown⟩ := read_grammar "5furlong"
  obtain ⟨-, -, hdenoted⟩ := read_grammar "\t-.5E1 Mm"
  obtain ⟨x, hx, -, hread⟩ := (hdenoted _ _ _ hlatin hhalf).2.1 .millimeter (by decide)
  have hsame :=
    (hdenoted _ _ _ hlatin hhalf).2.2 "-.٥E1mm" _ _ harabic (by decide) (by decide) _ hread
  have hunknown : ∀ u : LengthUnit, u.suffix.toList ≠ "furlong".toList.map Char.toLower := by
    intro u
    cases u <;> decide
  exact ⟨hnot, hrefused hnot, hfurlong, (hknown _ _ _ hfurlong hfive).1 hunknown, hhalf, hlatin,
    harabic, x, hx, hread, hsame⟩

end VectorStyle.Length
