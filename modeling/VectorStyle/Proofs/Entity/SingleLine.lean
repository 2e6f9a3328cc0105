import VectorStyle.Entity.Printer
import VectorStyle.Proofs.Decimal.Digits
import VectorStyle.Proofs.Results

/-!
# Parts of a stylesheet that stand on one line

Only rules are written on several lines. Every other part of a stylesheet has a text, and the text
has a line end in it only if a name or a value inside the part has one.

Main statement: `Entity.IsSingleLine.exists_text`, a part whose names and values stand on one line
has a text on one line.
-/

set_option autoImplicit false

namespace VectorStyle

/-! ## Texts on one line -/

/-- A text without a line end. -/
def Text.IsSingleLine (s : String) : Prop := '\n' ∉ s.toList

namespace Text

instance (s : String) : Decidable (IsSingleLine s) := inferInstanceAs (Decidable (¬ _))

theorem isSingleLine_append {s t : String} :
    IsSingleLine (s ++ t) ↔ IsSingleLine s ∧ IsSingleLine t := by
  rw [IsSingleLine, String.toList_append, List.mem_append, not_or]
  rfl

theorem isSingleLine_join {ts : List String} (h : ∀ t ∈ ts, IsSingleLine t) :
    IsSingleLine (String.join ts) := by
  rw [IsSingleLine, String.toList_join, List.mem_flatMap]
  rintro ⟨t, ht, hmem⟩
  exact h t ht hmem

theorem isSingleLine_intercalate {separator : String} (hs : IsSingleLine separator)
    {ts : List String} (h : ∀ t ∈ ts, IsSingleLine t) :
    IsSingleLine (separator.intercalate ts) := by
  induction ts with
  | nil =>
    rw [String.intercalate_nil]
    exact List.not_mem_nil
  | cons t ts ih =>
    rw [List.forall_mem_cons] at h
    cases ts with
    | nil =>
      rw [String.intercalate_singleton]
      exact h.1
    | cons u ts =>
      rw [String.intercalate_cons_cons, isSingleLine_append, isSingleLine_append]
      exact ⟨⟨h.1, hs⟩, ih h.2⟩

end Text

open Text (IsSingleLine isSingleLine_append isSingleLine_join isSingleLine_intercalate)

/-! ## Numbers and colors -/

/-- Digits do not end a line. -/
theorem not_mem_of_isDigit {cs : List Char} (h : ∀ c ∈ cs, c.isDigit = true) : '\n' ∉ cs := by
  intro hmem
  exact absurd (h '\n' hmem) (by decide)

theorem Decimal.not_mem_text (places k : Nat) : '\n' ∉ Decimal.text places k := by
  have hwhole := not_mem_of_isDigit
    (Text.Digit.isDigit_of_mem_toDigits (k / Nat.pow 10 places))
  have hfraction := not_mem_of_isDigit
    (isDigit_of_mem_trimZeros (isDigit_of_mem_fraction places (k % Nat.pow 10 places)))
  rw [Decimal.text, Decimal.pointed]
  split
  · exact hwhole
  · rw [List.mem_append, List.mem_cons]
    rintro (hmem | hmem | hmem)
    · exact hwhole hmem
    · exact absurd hmem (by decide)
    · exact hfraction hmem

theorem Decimal.not_mem_signed {negative : Bool} {cs : List Char} (h : '\n' ∉ cs) :
    '\n' ∉ Decimal.signed negative cs := by
  cases negative with
  | false => exact h
  | true =>
    rw [Decimal.signed, if_pos rfl, List.mem_cons, not_or]
    exact ⟨by decide, h⟩

theorem Decimal.isSingleLine_format (x : Binary64) : IsSingleLine (Decimal.format x) := by
  cases x with
  | nan => exact (by decide : IsSingleLine "nan")
  | infinity s =>
    rw [Decimal.format, IsSingleLine, String.toList_ofList]
    exact Decimal.not_mem_signed (by decide)
  | finite s n h =>
    rw [Decimal.format, IsSingleLine, String.toList_ofList]
    exact Decimal.not_mem_signed (Decimal.not_mem_text _ _)

theorem isSingleLine_toString_nat (n : Nat) : IsSingleLine (toString n) := by
  rw [IsSingleLine, Nat.toString_eq_ofList_toDigits, String.toList_ofList]
  exact not_mem_of_isDigit (Text.Digit.isDigit_of_mem_toDigits n)

theorem isSingleLine_toString_int (i : Int) : IsSingleLine (toString i) := by
  cases i with
  | ofNat n => exact isSingleLine_toString_nat n
  | negSucc n =>
    have hminus : IsSingleLine "-" := by decide
    exact isSingleLine_append.2 ⟨hminus, isSingleLine_toString_nat (n + 1)⟩

theorem Length.isSingleLine_percentText (x : Binary64) : IsSingleLine (Length.percentText x) := by
  unfold Length.percentText
  cases (Length.percentage x).floor? with
  | none => exact Decimal.isSingleLine_format _
  | some whole => exact isSingleLine_toString_int whole

theorem Length.isSingleLine_text (l : Length) : IsSingleLine l.text := by
  have hsuffix : IsSingleLine l.unit.suffix := by
    cases l.unit <;> decide
  rw [Length.text, isSingleLine_append]
  refine ⟨?_, hsuffix⟩
  split
  case isTrue => exact Length.isSingleLine_percentText l.value
  case isFalse => exact Decimal.isSingleLine_format l.value

theorem Color.isSingleLine_text (c : Color) : IsSingleLine c.text := by
  have hdigit : ∀ d < 16, (Nat.digitChar d).toUpper ≠ '\n' := by decide
  have hpair (n : Fin 256) : '\n' ∉ Color.hexPair n := by
    have hhigh : n.val / 16 < 16 := by omega
    have hlow : n.val % 16 < 16 := by omega
    simp [Color.hexPair, (hdigit _ hhigh).symm, (hdigit _ hlow).symm]
  rw [Color.text, IsSingleLine, String.toList_ofList]
  simp [hpair]

/-! ## Descriptors and lists -/

/-- The names and values in a descriptor stand on one line. -/
def Descriptor.IsSingleLine : Descriptor → Prop
  | ofClass n | ofName n | ofId n | ofPseudoClass n => Text.IsSingleLine n
  | anyElement => True
  | withAttribute n v => Text.IsSingleLine n ∧ Text.IsSingleLine v

theorem Descriptor.IsSingleLine.text {d : Descriptor} (h : d.IsSingleLine) :
    Text.IsSingleLine d.text := by
  cases d with
  | ofName n => exact h
  | anyElement => exact (by decide : Text.IsSingleLine "*")
  | ofClass n => exact isSingleLine_append.2 ⟨by decide, h⟩
  | ofId n => exact isSingleLine_append.2 ⟨by decide, h⟩
  | ofPseudoClass n => exact isSingleLine_append.2 ⟨by decide, h⟩
  | withAttribute n v =>
    simp only [Descriptor.text, isSingleLine_append]
    exact ⟨⟨⟨⟨by decide, h.1⟩, by decide⟩, h.2⟩, by decide⟩

/-- Members that have texts on one line have them as a list. -/
theorem exists_texts {es : List Entity}
    (h : ∀ e ∈ es, ∃ t, e.text = .ok t ∧ Text.IsSingleLine t) :
    ∃ ts, texts es = .ok ts ∧ ∀ t ∈ ts, Text.IsSingleLine t := by
  rw [texts_eq_mapM]
  exact exists_mapM_eq_ok h

/-! ## Entities -/

/-- A part of a stylesheet, other than a rule, whose names and values stand on one line, down to the
leaves. Selectors, values and declarations are such parts. -/
inductive Entity.IsSingleLine : Entity → Prop
  | descriptor {d : Descriptor} (h : d.IsSingleLine) : IsSingleLine (.descriptor d)
  | combinator (c : Combinator) : IsSingleLine (.combinator c)
  | compound {parts : List Entity} (h : ∀ e ∈ parts, IsSingleLine e) :
      IsSingleLine (.compound parts)
  | sequence {items : List Entity} (h : ∀ e ∈ items, IsSingleLine e) :
      IsSingleLine (.sequence items)
  | declaration {d : Declaration} (hproperty : Text.IsSingleLine d.property)
      (h : ∀ e ∈ d.terms, IsSingleLine e) : IsSingleLine (.declaration d)
  | ident {name : String} (h : Text.IsSingleLine name) : IsSingleLine (.ident name)
  | reference {name : String} (h : Text.IsSingleLine name) : IsSingleLine (.reference name)
  | string {text : String} (h : Text.IsSingleLine text) : IsSingleLine (.string text)
  | number (l : Length) : IsSingleLine (.number l)
  | color (c : Color) : IsSingleLine (.color c)
  | function {name : String} {args : List Entity} (hname : Text.IsSingleLine name)
      (h : ∀ e ∈ args, IsSingleLine e) : IsSingleLine (.function name args)
  | comma : IsSingleLine .comma
  | slash : IsSingleLine .slash
  | length (l : Length) : IsSingleLine (.length l)

/-- Such a part has a text, and the text stands on one line. -/
theorem Entity.IsSingleLine.exists_text {e : Entity} (h : e.IsSingleLine) :
    ∃ t, e.text = .ok t ∧ Text.IsSingleLine t := by
  induction h with
  | descriptor h => exact ⟨_, by rw [Entity.text], h.text⟩
  | combinator c =>
    refine ⟨_, by rw [Entity.text], ?_⟩
    cases c <;> decide
  | compound _ ih =>
    obtain ⟨ts, hts, hsingle⟩ := exists_texts ih
    exact ⟨_, by rw [Entity.text, hts, ok_bind]; rfl, isSingleLine_join hsingle⟩
  | sequence _ ih =>
    obtain ⟨ts, hts, hsingle⟩ := exists_texts ih
    exact ⟨_, by rw [Entity.text, hts, ok_bind]; rfl,
      isSingleLine_intercalate (by decide) hsingle⟩
  | declaration hproperty _ ih =>
    obtain ⟨ts, hts, hsingle⟩ := exists_texts ih
    refine ⟨_, by rw [Entity.text, Declaration.text_eq, hts]; rfl, ?_⟩
    rw [declarationText, isSingleLine_append, isSingleLine_append]
    exact ⟨⟨hproperty, by decide⟩,
      isSingleLine_intercalate (by decide) hsingle⟩
  | ident h => exact ⟨_, by rw [Entity.text], h⟩
  | reference h =>
    exact ⟨_, by rw [Entity.text], isSingleLine_append.2 ⟨by decide, h⟩⟩
  | string h =>
    have hquote : Text.IsSingleLine "\"" := by decide
    exact ⟨_, by rw [Entity.text],
      isSingleLine_append.2 ⟨isSingleLine_append.2 ⟨hquote, h⟩, hquote⟩⟩
  | number l => exact ⟨_, by rw [Entity.text], l.isSingleLine_text⟩
  | color c => exact ⟨_, by rw [Entity.text], c.isSingleLine_text⟩
  | function hname _ ih =>
    obtain ⟨ts, hts, hsingle⟩ := exists_texts ih
    refine ⟨_, by rw [Entity.text, hts, ok_bind]; rfl, ?_⟩
    rw [isSingleLine_append, isSingleLine_append, isSingleLine_append]
    exact ⟨⟨⟨hname, by decide⟩,
      isSingleLine_intercalate (by decide) hsingle⟩, by decide⟩
  | comma => exact ⟨",", by rw [Entity.text], by decide⟩
  | slash => exact ⟨"/", by rw [Entity.text], by decide⟩
  | length l => exact ⟨_, by rw [Entity.text], l.isSingleLine_text⟩

end VectorStyle
