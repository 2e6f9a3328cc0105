import VectorStyle.Proofs.Text.Words
import VectorStyle.Selector.Description

/-!
# Classes given as one text

An element may be given its classes as one text, and it shows them as one text again, the value of
its attribute `class`. The gaps between the words are single spaces then, and nothing else is lost:
the words are the same, in the same order and as often. What a selector asks for by class is asked
of the same words.

An attribute `class` that the element was given besides its classes is not seen.

Main statement: `ofClassText_round_trip`.
-/

set_option autoImplicit false

namespace VectorStyle.Element

open Text (HasWords IsWord words isBlank)

variable {name classes : String} {id : Option String} {attributes : List (String × String)}

/-- With a name there is an element, and its classes are the words of the text. -/
theorem exists_ofClassText (hname : name ≠ "") (id : Option String) (classes : String)
    (attributes : List (String × String)) :
    ∃ e, ofClassText name id classes attributes = .ok e ∧ e.classes = words classes := by
  refine ⟨⟨name, id, words classes, attributes, hname⟩, ?_, rfl⟩
  rw [ofClassText, make, dif_pos hname]

/-- A class is asked for among the classes of the element. -/
theorem describedBy_ofClass (e : Element) (c : String) :
    e.profile.describedBy [.descriptor (.ofClass c)] = .ok (decide (c ∈ e.classes)) := by
  have hdescribed := Profile.describedBy_map_descriptor e.profile [.ofClass c]
  rw [List.map_singleton] at hdescribed
  rw [hdescribed]
  simp [Profile.Satisfies, Descriptor.describes, profile]

/-- Classes that are given as a text with a word in it are its words. The attribute `class` has them
as one text, in which they are found again, also by an element that is given this text; and a
descriptor finds exactly the words of this text. -/
theorem ofClassText_round_trip (hname : name ≠ "")
    (hclasses : ∃ c ∈ classes.toList, isBlank c = false)
    (id : Option String) (attributes : List (String × String)) :
    ∃ e text, ofClassText name id classes attributes = .ok e ∧ HasWords classes e.classes ∧
      (∀ w ∈ e.classes, w ≠ "" ∧ ∀ c ∈ w.toList, isBlank c = false) ∧
      e.attributeValue "class" = some text ∧ HasWords text e.classes ∧ words text = e.classes ∧
      (∀ name' id' attributes', name' ≠ "" →
        ∃ e', ofClassText name' id' text attributes' = .ok e' ∧ e'.classes = e.classes) ∧
      ∀ c, e.profile.describedBy [.descriptor (.ofClass c)] = .ok (decide (c ∈ words text)) := by
  obtain ⟨e, he, hwords⟩ := exists_ofClassText hname id classes attributes
  have hhas : HasWords classes e.classes := Text.words_eq_iff.1 hwords.symm
  have hne : e.classes ≠ [] := by
    have hchars := Text.Chars.HasWords.ne_nil hhas hclasses
    simpa using hchars
  have hjoined : HasWords (" ".intercalate e.classes) e.classes :=
    Text.hasWords_intercalate hhas.isWord
  have hagain := Text.words_eq_iff.2 hjoined
  refine ⟨e, " ".intercalate e.classes, he, hhas, hhas.isWord, attributeValue_class e hne, hjoined,
    hagain, ?_, ?_⟩
  · intro name' id' attributes' hname'
    obtain ⟨e', he', hwords'⟩ :=
      exists_ofClassText hname' id' (" ".intercalate e.classes) attributes'
    exact ⟨e', he', hwords'.trans hagain⟩
  · intro c
    rw [hagain]
    exact describedBy_ofClass e c

/-- Two classes, one of them twice, between gaps of several kinds. -/
theorem ofClassText_round_trip_gaps :
    "g" ≠ "" ∧ (∃ c ∈ "\u3000big\t\u00a0red big\n".toList, isBlank c = false) ∧
      ∃ e text, ofClassText "g" none "\u3000big\t\u00a0red big\n" [("class", "small")] = .ok e ∧
        e.classes = ["big", "red", "big"] ∧ e.attributeValue "class" = some text ∧
        words text = ["big", "red", "big"] := by
  have hname : "g" ≠ "" := by decide
  have hclasses : ∃ c ∈ "\u3000big\t\u00a0red big\n".toList, isBlank c = false :=
    ⟨'b', by decide, by decide⟩
  obtain ⟨e, text, he, hhas, -, htext, -, hwords, -⟩ :=
    ofClassText_round_trip hname hclasses none [("class", "small")]
  have hfound : words "\u3000big\t\u00a0red big\n" = ["big", "red", "big"] := by decide +kernel
  have heq : e.classes = ["big", "red", "big"] := (Text.words_eq_iff.2 hhas).symm.trans hfound
  exact ⟨hname, hclasses, e, text, he, heq, htext, hwords.trans heq⟩

end VectorStyle.Element
