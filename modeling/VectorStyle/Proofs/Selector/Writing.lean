import VectorStyle.Entity.Printer
import VectorStyle.Proofs.Results
import VectorStyle.Proofs.Text.Runs
import VectorStyle.Selector.Description

/-!
# Selectors are determined by their text

The descriptors of a compound are written without anything between them. They can be told apart
where names are names: each descriptor but a tag name begins with a character that no name holds, a
name ends where the next of these characters stands, and an attribute's value ends at the closing
bracket. A selector list is a row of such compounds and combinators with single spaces between them.

Main statements: `readDescriptor?_text_append`, the descriptor at the beginning of a text is read as
far as it goes; `chars_injective`, a compound is determined by its characters; and
`eq_of_text_sequence_eq`.
-/

set_option autoImplicit false

namespace VectorStyle

/-! ## Names -/

/-- Letters, digits, `-` and `_`. The letters and digits of other scripts are beyond ASCII, and all
that is beyond ASCII counts as one. -/
def isNameChar (c : Char) : Bool := c.isAlphanum || c == '-' || c == '_' || decide (128 ≤ c.toNat)

/-- A text of name characters, with one at least. -/
structure IsName (s : String) : Prop where
  ne_nil : s.toList ≠ []
  isNameChar : ∀ c ∈ s.toList, isNameChar c = true

instance (s : String) : Decidable (IsName s) :=
  decidable_of_iff (s.toList ≠ [] ∧ s.toList.all isNameChar = true)
    ⟨fun h => ⟨h.1, List.all_eq_true.1 h.2⟩, fun h => ⟨h.ne_nil, List.all_eq_true.2 h.isNameChar⟩⟩

namespace Descriptor

/-- The names in a descriptor are names. A value holds neither a space nor a closing bracket. -/
def IsWellNamed : Descriptor → Prop
  | ofClass n | ofName n | ofId n | ofPseudoClass n => IsName n
  | anyElement => True
  | withAttribute n v => IsName n ∧ ∀ c ∈ v.toList, c ≠ ' ' ∧ c ≠ ']'

instance : DecidablePred IsWellNamed
  | ofClass n | ofName n | ofId n | ofPseudoClass n => inferInstanceAs (Decidable (IsName n))
  | anyElement => inferInstanceAs (Decidable True)
  | withAttribute n v =>
    decidable_of_iff (IsName n ∧ v.toList.all (fun c => c != ' ' && c != ']') = true)
      (by simp [IsWellNamed])

/-- Whether a descriptor is a tag name. -/
def isTagName : Descriptor → Bool
  | ofName _ => true
  | _ => false

end Descriptor

/-! ## Reading a descriptor -/

/-- The descriptors that are written as a name after one character. -/
def prefixed? : Char → Option (String → Descriptor)
  | '.' => some .ofClass
  | '#' => some .ofId
  | ':' => some .ofPseudoClass
  | _ => none

/-- The descriptor at the beginning of a text, and what follows it. -/
def readDescriptor? : List Char → Option (Descriptor × List Char)
  | [] => none
  | c :: cs =>
    if isNameChar c then
      some (.ofName (String.ofList ((c :: cs).takeWhile isNameChar)),
        (c :: cs).dropWhile isNameChar)
    else
      let name := String.ofList (cs.takeWhile isNameChar)
      let rest := cs.dropWhile isNameChar
      match prefixed? c, c with
      | some make, _ => some (make name, rest)
      | none, '*' => some (.anyElement, cs)
      | none, '[' =>
        -- after the name stands an equals sign, and after the value a bracket
        let value := String.ofList ((rest.drop 1).takeWhile (· != ']'))
        some (.withAttribute name value, ((rest.drop 1).dropWhile (· != ']')).drop 1)
      | none, _ => none

/-- A name after one character is read as far as it goes. -/
theorem readDescriptor?_prefixed (c : Char) {make : String → Descriptor} {n : String}
    {rest : List Char} (hmake : prefixed? c = some make) (hc : isNameChar c = false) (hn : IsName n)
    (hrest : ∀ c ∈ rest.head?, isNameChar c = false)
    (htext : (make n).text.toList = c :: n.toList) :
    readDescriptor? ((make n).text.toList ++ rest) = some (make n, rest) := by
  rw [htext, List.cons_append, readDescriptor?, if_neg (by simp [hc])]
  simp only [hmake, takeWhile_append_eq hn.isNameChar hrest,
    dropWhile_append_eq hn.isNameChar hrest, String.ofList_toList]

/-- A descriptor is read from its text, if what follows could not belong to a name. -/
theorem readDescriptor?_text_append {d : Descriptor} (hd : d.IsWellNamed) {rest : List Char}
    (hrest : ∀ c ∈ rest.head?, isNameChar c = false) :
    readDescriptor? (d.text.toList ++ rest) = some (d, rest) := by
  cases d with
  | ofName n =>
    have htake := takeWhile_append_eq hd.isNameChar hrest
    have hdrop := dropWhile_append_eq hd.isNameChar hrest
    obtain ⟨c, cs, hcs⟩ := List.exists_cons_of_ne_nil hd.ne_nil
    have hc : isNameChar c = true := hd.isNameChar c (hcs ▸ List.mem_cons_self)
    rw [hcs, List.cons_append] at htake hdrop
    rw [Descriptor.text, hcs, List.cons_append, readDescriptor?, if_pos hc, htake, hdrop, ← hcs,
      String.ofList_toList]
  | ofClass n =>
    exact readDescriptor?_prefixed '.' rfl (by decide) hd hrest (by simp [Descriptor.text])
  | ofId n =>
    exact readDescriptor?_prefixed '#' rfl (by decide) hd hrest (by simp [Descriptor.text])
  | ofPseudoClass n =>
    exact readDescriptor?_prefixed ':' rfl (by decide) hd hrest (by simp [Descriptor.text])
  | anyElement => rfl
  | withAttribute n v =>
    obtain ⟨hn, hv⟩ := hd
    have htext : (Descriptor.withAttribute n v).text.toList ++ rest =
        '[' :: (n.toList ++ '=' :: (v.toList ++ ']' :: rest)) := by
      simp [Descriptor.text]
    have hequals : ∀ c ∈ ('=' :: (v.toList ++ ']' :: rest)).head?, isNameChar c = false := by
      simp
      decide
    have hvalue : ∀ c ∈ v.toList, (c != ']') = true := by
      intro c hc
      simpa using (hv c hc).2
    have hbracket : ∀ c ∈ (']' :: rest).head?, (c != ']') = false := by simp
    have hprefixed : prefixed? '[' = none := rfl
    rw [htext, readDescriptor?, if_neg (by decide), takeWhile_append_eq hn.isNameChar hequals,
      dropWhile_append_eq hn.isNameChar hequals]
    simp only [hprefixed, List.drop_one, List.tail_cons, takeWhile_append_eq hvalue hbracket,
      dropWhile_append_eq hvalue hbracket, String.ofList_toList]

/-! ## Compounds -/

/-- The characters of descriptors, one after the other. -/
def chars (ds : List Descriptor) : List Char := ds.flatMap fun d => d.text.toList

/-- The descriptors of a compound: one at least, well named, and a tag name only in the first
place. -/
structure IsCompound (ds : List Descriptor) : Prop where
  ne_nil : ds ≠ []
  isWellNamed : ∀ d ∈ ds, d.IsWellNamed
  isTagName : ∀ d ∈ ds.tail, d.isTagName = false

/-- What is no tag name begins with a character that no name holds. -/
theorem isNameChar_of_head?_chars {ds : List Descriptor} (h : ∀ d ∈ ds, d.isTagName = false) :
    ∀ c ∈ (chars ds).head?, isNameChar c = false := by
  cases ds with
  | nil => simp [chars]
  | cons d ds =>
    have hd : d.isTagName = false := h d List.mem_cons_self
    cases d with
    | ofName n => cases hd
    | _ =>
      simp [chars, Descriptor.text]
      decide

/-- The first descriptor of a compound is read from its characters. -/
theorem readDescriptor?_chars {d : Descriptor} {ds : List Descriptor} (hd : d.IsWellNamed)
    (h : ∀ d ∈ ds, d.isTagName = false) :
    readDescriptor? (chars (d :: ds)) = some (d, chars ds) := by
  rw [chars, List.flatMap_cons]
  exact readDescriptor?_text_append hd (isNameChar_of_head?_chars h)

/-- Descriptors are determined by their characters, where only the first may be a tag name. -/
theorem chars_injective {ds es : List Descriptor} (hds : ∀ d ∈ ds, d.IsWellNamed)
    (hes : ∀ d ∈ es, d.IsWellNamed) (hds' : ∀ d ∈ ds.tail, d.isTagName = false)
    (hes' : ∀ d ∈ es.tail, d.isTagName = false) (h : chars ds = chars es) : ds = es := by
  have hnil : readDescriptor? (chars []) = none := rfl
  induction ds generalizing es with
  | nil =>
    cases es with
    | nil => rfl
    | cons e es =>
      have hread : readDescriptor? (chars (e :: es)) = some (e, chars es) :=
        readDescriptor?_chars (hes e List.mem_cons_self) hes'
      rw [← h, hnil] at hread
      cases hread
  | cons d ds ih =>
    have hfirst : readDescriptor? (chars (d :: ds)) = some (d, chars ds) :=
      readDescriptor?_chars (hds d List.mem_cons_self) hds'
    cases es with
    | nil =>
      rw [h, hnil] at hfirst
      cases hfirst
    | cons e es =>
      have hread : readDescriptor? (chars (e :: es)) = some (e, chars es) :=
        readDescriptor?_chars (hes e List.mem_cons_self) hes'
      -- the first descriptors are the same, and so are the characters that are left
      rw [h, hread, Option.some.injEq, Prod.mk.injEq] at hfirst
      obtain ⟨rfl, hrest⟩ := hfirst
      rw [List.forall_mem_cons] at hds hes
      rw [ih hds.2 hes.2 (fun x hx => hds' x (List.mem_of_mem_tail hx))
        (fun x hx => hes' x (List.mem_of_mem_tail hx)) hrest.symm]

/-- The characters of a compound can be read. -/
theorem IsCompound.exists_readDescriptor? {ds : List Descriptor} (h : IsCompound ds) :
    ∃ d rest, readDescriptor? (chars ds) = some (d, rest) := by
  obtain ⟨d, ds, rfl⟩ := List.exists_cons_of_ne_nil h.ne_nil
  exact ⟨d, chars ds, readDescriptor?_chars (h.isWellNamed d List.mem_cons_self) h.isTagName⟩

/-- No space stands in a compound. -/
theorem IsCompound.not_mem_chars {ds : List Descriptor} (h : IsCompound ds) : ' ' ∉ chars ds := by
  have hname {n : String} (hn : IsName n) : ' ' ∉ n.toList := by
    intro hmem
    exact absurd (hn.isNameChar ' ' hmem) (by decide)
  rw [chars, List.mem_flatMap]
  rintro ⟨d, hd, hmem⟩
  have hwell := h.isWellNamed d hd
  cases d with
  | ofName n => exact hname hwell hmem
  | anyElement => exact absurd hmem (by decide)
  | withAttribute n v =>
    obtain ⟨hn, hv⟩ := hwell
    have hvalue : ' ' ∉ v.toList := fun hspace => (hv ' ' hspace).1 rfl
    simp [Descriptor.text, hname hn, hvalue] at hmem
  | ofClass n => simp [Descriptor.text, hname hwell] at hmem
  | ofId n => simp [Descriptor.text, hname hwell] at hmem
  | ofPseudoClass n => simp [Descriptor.text, hname hwell] at hmem

/-! ## Selector lists -/

/-- A selector that can be told from its text: a combinator, or a compound of descriptors. -/
inductive Entity.IsWellNamed : Entity → Prop
  | combinator (c : Combinator) : IsWellNamed (.combinator c)
  | compound {ds : List Descriptor} (h : IsCompound ds) : IsWellNamed (.compoundOf ds)

theorem text_compoundOf (ds : List Descriptor) :
    (Entity.compoundOf ds).text = .ok (String.ofList (chars ds)) := by
  have htexts : texts (ds.map .descriptor) = .ok (ds.map Descriptor.text) := by
    induction ds with
    | nil => rfl
    | cons d ds ih =>
      rw [List.map_cons, texts, ih]
      rfl
  have hjoin : String.join (ds.map Descriptor.text) = String.ofList (chars ds) := by
    rw [← String.toList_inj, String.toList_join, String.toList_ofList, List.flatMap_map, chars]
  rw [Entity.compoundOf, Entity.text, htexts, ok_bind, hjoin]
  rfl

/-- A selector has a text, which is a word. -/
theorem Entity.IsWellNamed.exists_text {e : Entity} (h : e.IsWellNamed) :
    ∃ t, e.text = .ok t ∧ t.toList ≠ [] ∧ ' ' ∉ t.toList := by
  cases h with
  | combinator c =>
    refine ⟨c.text, by rw [Entity.text], ?_⟩
    cases c <;> decide
  | @compound ds h =>
    refine ⟨_, text_compoundOf ds, ?_⟩
    rw [String.toList_ofList]
    refine ⟨?_, h.not_mem_chars⟩
    intro hnil
    obtain ⟨d, rest, hread⟩ := h.exists_readDescriptor?
    rw [hnil] at hread
    cases hread

/-- Selectors with the same text are the same. -/
theorem Entity.IsWellNamed.eq_of_text_eq {e f : Entity} (he : e.IsWellNamed) (hf : f.IsWellNamed)
    (h : e.text = f.text) : e = f := by
  -- nothing can be read from a combinator
  have hcombinator (c : Combinator) {ds : List Descriptor} (hds : IsCompound ds) :
      (Entity.combinator c).text ≠ (Entity.compoundOf ds).text := by
    rw [text_compoundOf, Entity.text]
    intro heq
    obtain ⟨d, rest, hread⟩ := hds.exists_readDescriptor?
    have hchars : c.text.toList = chars ds := by
      rw [Except.ok.inj heq, String.toList_ofList]
    rw [← hchars] at hread
    cases c <;> cases hread
  cases he with
  | combinator c =>
    cases hf with
    | combinator c' =>
      rw [Entity.text, Entity.text, Except.ok.injEq] at h
      cases c <;> cases c' <;> first | rfl | exact absurd h (by decide)
    | compound hes => exact absurd h (hcombinator c hes)
  | compound hds =>
    cases hf with
    | combinator c => exact absurd h.symm (hcombinator c hds)
    | compound hes =>
      rw [text_compoundOf, text_compoundOf, Except.ok.injEq, String.ofList_inj] at h
      rw [chars_injective hds.isWellNamed hes.isWellNamed hds.isTagName hes.isTagName h]

/-- Selector lists with the same text are the same. -/
theorem eq_of_text_sequence_eq {a b : List Entity} (ha : ∀ e ∈ a, e.IsWellNamed)
    (hb : ∀ e ∈ b, e.IsWellNamed) (h : (Entity.sequence a).text = (Entity.sequence b).text) :
    a = b := by
  have hword (e : Entity) (he : e.IsWellNamed) :
      ∃ t, e.text = .ok t ∧ t.toList ≠ [] ∧ ' ' ∉ t.toList := he.exists_text
  obtain ⟨ts, hts, htw⟩ := exists_mapM_eq_ok fun e he => hword e (ha e he)
  obtain ⟨us, hus, huw⟩ := exists_mapM_eq_ok fun e he => hword e (hb e he)
  -- both texts are the same words with spaces between them
  have hwords : ts.map String.toList = us.map String.toList := by
    rw [Entity.text, Entity.text, texts_eq_mapM, texts_eq_mapM, hts, hus, ok_bind, ok_bind] at h
    have hspace : " ".toList = [' '] := by decide
    have hchars := congrArg String.toList (Except.ok.inj h)
    rw [String.toList_intercalate, String.toList_intercalate, hspace] at hchars
    apply intercalate_injective _ _ hchars
    · simpa using htw
    · simpa using huw
  obtain rfl := List.map_injective_iff.2 (fun s t => String.toList_inj.1) hwords
  exact eq_of_mapM_eq_ok (fun e f he hf => he.eq_of_text_eq hf) ha hb hts hus

/-- The selectors of `g.layer > *[fill=.a#b]:hover`. -/
def hoveredInLayer : List Entity :=
  [.compoundOf [.ofName "g", .ofClass "layer"], .combinator .child,
    .compoundOf [.anyElement, .withAttribute "fill" ".a#b", .ofPseudoClass "hover"]]

theorem isWellNamed_hoveredInLayer : ∀ e ∈ hoveredInLayer, e.IsWellNamed := by
  have hlayer : IsCompound [.ofName "g", .ofClass "layer"] :=
    ⟨List.cons_ne_nil _ _, by decide, by decide⟩
  have hhovered : IsCompound [.anyElement, .withAttribute "fill" ".a#b", .ofPseudoClass "hover"] :=
    ⟨List.cons_ne_nil _ _, by decide, by decide⟩
  simp only [hoveredInLayer, List.forall_mem_cons]
  exact ⟨.compound hlayer, .combinator .child, .compound hhovered, List.forall_mem_nil _⟩

/-- No other selectors are written `g.layer > *[fill=.a#b]:hover`. -/
theorem eq_of_text_sequence_eq_hoveredInLayer :
    (∀ e ∈ hoveredInLayer, e.IsWellNamed) ∧
      (Entity.sequence hoveredInLayer).text = .ok "g.layer > *[fill=.a#b]:hover" ∧
      ∀ b : List Entity, (∀ e ∈ b, e.IsWellNamed) →
        (Entity.sequence b).text = .ok "g.layer > *[fill=.a#b]:hover" → hoveredInLayer = b := by
  have htext : (Entity.sequence hoveredInLayer).text = .ok "g.layer > *[fill=.a#b]:hover" := by
    rfl
  refine ⟨isWellNamed_hoveredInLayer, htext, ?_⟩
  intro b hb hbtext
  exact eq_of_text_sequence_eq isWellNamed_hoveredInLayer hb (htext.trans hbtext.symm)

end VectorStyle
