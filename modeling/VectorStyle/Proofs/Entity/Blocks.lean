import VectorStyle.Proofs.Entity.Parts
import VectorStyle.Proofs.Entity.SingleLine

/-!
# Reading a stylesheet back

A stylesheet is written as a row of lines, and the last character of a line tells what the line is:
one of several alternatives ends with a comma, the last alternative with an opening brace, a
declaration with a semicolon, and the line that closes a rule is a brace. None of these characters
has a meaning inside a line, so names and values may hold all of them.

`Block.read` takes the lines from the end to the beginning of the text. Where every name and value
stands on one line, it finds the texts of the alternatives and declarations of each rule, as they
are written alone.

Main statements: `Block.read_join`, a row of blocks is read from its text; `exists_stylesheetText`,
the blocks of rules are read from the stylesheet; and `blocks_eq_of_stylesheetText_eq`.
-/

set_option autoImplicit false

namespace VectorStyle

/-! ## Blocks -/

/-- What a stylesheet says of one rule: the texts of its alternatives and of its declarations. -/
structure Block where
  alternatives : List String
  declarations : List String
deriving DecidableEq, Repr

/-- The block of a rule: its alternatives and its declarations, each written alone. -/
def Rule.block (r : Rule) : Except Foreign Block := do
  let alternatives ← r.alternatives.mapM fun a => (Entity.sequence a).text
  return ⟨alternatives, ← r.declarations.mapM Declaration.text⟩

/-- The text of a block. -/
def Block.text (b : Block) : String := ruleBlock b.alternatives b.declarations

/-- A rule is written as its block. -/
theorem Entity.text_rule (r : Rule) : (Entity.rule r).text = r.block.map Block.text := by
  obtain ⟨alternatives, declarations⟩ := r
  have hdeclarations :
      texts (declarations.map .declaration) = declarations.mapM Declaration.text := by
    simp only [texts_map, Entity.text]
  rw [Entity.rule, Entity.text, Rule.block, ← texts_map .sequence, texts_map_sequence,
    hdeclarations]
  cases groupTexts alternatives with
  | error f => rfl
  | ok ts => cases declarations.mapM Declaration.text <;> rfl

theorem stylesheetText_rules (rules : List Rule) :
    stylesheetText (rules.map .rule) =
      (rules.mapM Rule.block).map fun bs => String.join (bs.map Block.text) := by
  have htexts : texts (rules.map .rule) = (rules.mapM Rule.block).map (List.map Block.text) := by
    induction rules with
    | nil => rfl
    | cons r rules ih =>
      rw [List.map_cons, texts, List.mapM_cons, ih, Entity.text_rule]
      cases r.block with
      | error f => rfl
      | ok b => cases rules.mapM Rule.block <;> rfl
  rw [stylesheetText, htexts]
  cases rules.mapM Rule.block <;> rfl

/-! ## Lines -/

/-- Lines, each with its line end. -/
def unlines (ls : List (List Char)) : List Char := ls.flatMap (· ++ ['\n'])

theorem splitOn_unlines {ls : List (List Char)} (h : ∀ l ∈ ls, '\n' ∉ l) :
    (unlines ls).splitOn '\n' = ls ++ [[]] := by
  have hintercalate : unlines ls = ['\n'].intercalate (ls ++ [[]]) := by
    clear h
    induction ls with
    | nil => rfl
    | cons l ls ih =>
      rw [unlines, List.flatMap_cons, ← unlines, ih]
      cases ls <;> simp
  rw [hintercalate]
  apply List.splitOn_intercalate
  · rw [List.forall_mem_append]
    exact ⟨h, List.forall_mem_singleton.2 List.not_mem_nil⟩
  · simp

namespace Block

/-- The lines of alternatives. -/
def alternativeLines : List String → List (List Char)
  | [] => []
  | [a] => [a.toList ++ [' ', '\x7b']]
  | a :: as => (a.toList ++ [',']) :: alternativeLines as

theorem alternativeLines_cons_cons (a a' : String) (as : List String) :
    alternativeLines (a :: a' :: as) = (a.toList ++ [',']) :: alternativeLines (a' :: as) := by
  rw [alternativeLines]
  simp

/-- The line of a declaration. -/
def declarationLine (d : String) : List Char := [' ', ' '] ++ d.toList ++ [';']

/-- The lines of a block. -/
def lines (b : Block) : List (List Char) :=
  alternativeLines b.alternatives ++ b.declarations.map declarationLine ++ [['\x7d']]

theorem toList_intercalate_alternatives {as : List String} (hne : as ≠ []) :
    (",\n".intercalate as).toList ++ [' ', '\x7b', '\n'] = unlines (alternativeLines as) := by
  induction as with
  | nil => exact absurd rfl hne
  | cons a as ih =>
    cases as with
    | nil => simp [alternativeLines, unlines]
    | cons a' as =>
      rw [alternativeLines_cons_cons, unlines, List.flatMap_cons, ← unlines,
        ← ih (List.cons_ne_nil a' as), String.intercalate_cons_cons]
      simp

theorem toList_join_declarations (ds : List String) :
    (String.join (ds.map VectorStyle.declarationLine)).toList =
      unlines (ds.map declarationLine) := by
  induction ds with
  | nil => rfl
  | cons d ds ih =>
    rw [List.map_cons, List.map_cons, unlines, List.flatMap_cons, ← unlines, ← ih, String.join_cons]
    simp [VectorStyle.declarationLine, declarationLine]

theorem toList_text {b : Block} (hne : b.alternatives ≠ []) : b.text.toList = unlines b.lines := by
  have hopening : " \x7b\n".toList = [' ', '\x7b', '\n'] := by decide
  have hclosing : "\x7d\n".toList = ['\x7d', '\n'] := by decide
  rw [text, ruleBlock, lines, unlines, List.flatMap_append, List.flatMap_append, ← unlines,
    ← unlines, ← toList_intercalate_alternatives hne, ← toList_join_declarations,
    String.toList_append, String.toList_append, String.toList_append, hopening, hclosing]
  rfl

/-! ## The reader -/

/-- Reads a line in front of lines that have been read to blocks. -/
def readLine (line : List Char) (blocks : List Block) : List Block :=
  match line.getLast?, blocks with
  | some '\x7d', bs => ⟨[], []⟩ :: bs
  | some ';', b :: bs =>
    ⟨b.alternatives, String.ofList (line.dropLast.drop 2) :: b.declarations⟩ :: bs
  | some '\x7b', b :: bs => ⟨[String.ofList line.dropLast.dropLast], b.declarations⟩ :: bs
  | some ',', b :: bs => ⟨String.ofList line.dropLast :: b.alternatives, b.declarations⟩ :: bs
  | _, bs => bs

/-- The blocks of a stylesheet. -/
def read (text : String) : List Block := (text.toList.splitOn '\n').foldr readLine []

theorem readLine_declaration (d : String) (b : Block) (bs : List Block) :
    readLine (declarationLine d) (b :: bs) =
      ⟨b.alternatives, d :: b.declarations⟩ :: bs := by
  have hlast : (declarationLine d).getLast? = some ';' := List.getLast?_concat
  have hbody : (declarationLine d).dropLast.drop 2 = d.toList := by
    rw [declarationLine, List.dropLast_concat]
    rfl
  simp only [readLine, hlast, hbody, String.ofList_toList]

theorem readLine_alternative (a : String) (b : Block) (bs : List Block) :
    readLine (a.toList ++ [',']) (b :: bs) = ⟨a :: b.alternatives, b.declarations⟩ :: bs := by
  simp only [readLine, List.getLast?_concat, List.dropLast_concat, String.ofList_toList]

theorem readLine_lastAlternative (a : String) (b : Block) (bs : List Block) :
    readLine (a.toList ++ [' ', '\x7b']) (b :: bs) = ⟨[a], b.declarations⟩ :: bs := by
  have hsplit : a.toList ++ [' ', '\x7b'] = a.toList ++ [' '] ++ ['\x7b'] := by simp
  rw [hsplit]
  simp only [readLine, List.getLast?_concat, List.dropLast_concat, String.ofList_toList]

theorem foldr_readLine_declarations (ds : List String) (bs : List Block) :
    (ds.map declarationLine).foldr readLine (⟨[], []⟩ :: bs) = ⟨[], ds⟩ :: bs := by
  induction ds with
  | nil => rfl
  | cons d ds ih => rw [List.map_cons, List.foldr_cons, ih, readLine_declaration]

theorem foldr_readLine_alternatives {as : List String} (hne : as ≠ []) (ds : List String)
    (bs : List Block) :
    (alternativeLines as).foldr readLine (⟨[], ds⟩ :: bs) = ⟨as, ds⟩ :: bs := by
  induction as with
  | nil => exact absurd rfl hne
  | cons a as ih =>
    cases as with
    | nil => exact readLine_lastAlternative a _ bs
    | cons a' as =>
      rw [alternativeLines_cons_cons, List.foldr_cons, ih (List.cons_ne_nil a' as),
        readLine_alternative]

/-- The lines of a block are read to the block. -/
theorem foldr_readLine_lines {b : Block} (hne : b.alternatives ≠ []) (bs : List Block) :
    b.lines.foldr readLine bs = b :: bs := by
  have hclosing : [['\x7d']].foldr readLine bs = ⟨[], []⟩ :: bs := rfl
  rw [lines, List.foldr_append, List.foldr_append, hclosing, foldr_readLine_declarations,
    foldr_readLine_alternatives hne]

/-! ## Blocks whose parts stand on one line -/

/-- A block that can be read: it has an alternative, and its texts stand on one line. -/
structure IsReadable (b : Block) : Prop where
  alternatives_ne : b.alternatives ≠ []
  alternatives : ∀ a ∈ b.alternatives, Text.IsSingleLine a
  declarations : ∀ d ∈ b.declarations, Text.IsSingleLine d

theorem not_mem_alternativeLines {as : List String} (h : ∀ a ∈ as, Text.IsSingleLine a) :
    ∀ l ∈ alternativeLines as, '\n' ∉ l := by
  induction as with
  | nil => exact List.forall_mem_nil _
  | cons a as ih =>
    rw [List.forall_mem_cons] at h
    have ha : '\n' ∉ a.toList := h.1
    cases as with
    | nil => simp [alternativeLines, ha]
    | cons a' as =>
      rw [alternativeLines_cons_cons]
      refine List.forall_mem_cons.2 ⟨?_, ih h.2⟩
      simp [ha]

theorem IsReadable.not_mem_lines {b : Block} (h : b.IsReadable) : ∀ l ∈ b.lines, '\n' ∉ l := by
  intro l hl
  rw [lines, List.mem_append, List.mem_append] at hl
  rcases hl with (hl | hl) | hl
  · exact not_mem_alternativeLines h.alternatives l hl
  · obtain ⟨d, hd, rfl⟩ := List.mem_map.1 hl
    have hsingle : '\n' ∉ d.toList := h.declarations d hd
    simp [declarationLine, hsingle]
  · rw [List.mem_singleton] at hl
    subst hl
    decide

/-- The blocks of a row are read from the text of the row. -/
theorem read_join {bs : List Block} (h : ∀ b ∈ bs, b.IsReadable) :
    read (String.join (bs.map text)) = bs := by
  have htext : (String.join (bs.map text)).toList = unlines (bs.flatMap lines) := by
    rw [String.toList_join, List.flatMap_map, unlines, List.flatMap_assoc]
    apply List.flatMap_congr
    intro b hb
    exact toList_text (h b hb).alternatives_ne
  have hlines : ∀ l ∈ bs.flatMap lines, '\n' ∉ l := by
    intro l hl
    obtain ⟨b, hb, hmem⟩ := List.mem_flatMap.1 hl
    exact (h b hb).not_mem_lines l hmem
  rw [read, htext, splitOn_unlines hlines, List.foldr_append]
  -- what follows the last line end is no line
  show (bs.flatMap lines).foldr readLine [] = bs
  clear htext hlines
  induction bs with
  | nil => rfl
  | cons b bs ih =>
    rw [List.forall_mem_cons] at h
    rw [List.flatMap_cons, List.foldr_append, ih h.2, foldr_readLine_lines h.1.alternatives_ne]

end Block

/-! ## Stylesheets -/

/-- A rule with an alternative at least, whose names and values stand on one line. Its alternatives
may be built from selectors and descriptors, and its declarations from values, in any way. -/
structure Rule.IsReadable (r : Rule) : Prop where
  alternatives_ne : r.alternatives ≠ []
  alternatives : ∀ a ∈ r.alternatives, (Entity.sequence a).IsSingleLine
  declarations : ∀ d ∈ r.declarations, (Entity.declaration d).IsSingleLine

theorem Rule.IsReadable.exists_block {r : Rule} (h : r.IsReadable) :
    ∃ b, r.block = .ok b ∧ b.IsReadable := by
  obtain ⟨as, has, hsingle⟩ := exists_mapM_eq_ok (P := Text.IsSingleLine)
    (f := fun a => (Entity.sequence a).text) fun a ha => (h.alternatives a ha).exists_text
  obtain ⟨ds, hds, hsingle'⟩ := exists_mapM_eq_ok (P := Text.IsSingleLine) (f := Declaration.text)
    fun d hd => by
      have htext := (h.declarations d hd).exists_text
      rwa [Entity.text] at htext
  refine ⟨⟨as, ds⟩, ?_, ?_, hsingle, hsingle'⟩
  · rw [Rule.block, has, hds]
    rfl
  · have hlength := (mapM_eq_ok_iff.1 has).length_eq
    intro hnil
    change as = [] at hnil
    rw [hnil] at hlength
    exact h.alternatives_ne (List.eq_nil_of_length_eq_zero hlength)

/-- A stylesheet of such rules has a text, from which the blocks of the rules are read. -/
theorem exists_stylesheetText {rules : List Rule} (h : ∀ r ∈ rules, r.IsReadable) :
    ∃ text, stylesheetText (rules.map .rule) = .ok text ∧
      rules.mapM Rule.block = .ok (Block.read text) := by
  obtain ⟨bs, hbs, hreadable⟩ := exists_mapM_eq_ok (P := Block.IsReadable) (f := Rule.block)
    fun r hr => (h r hr).exists_block
  refine ⟨String.join (bs.map Block.text), ?_, ?_⟩
  · rw [stylesheetText_rules, hbs]
    rfl
  · rw [Block.read_join hreadable, hbs]

/-- Rules with the same stylesheet have the same blocks, rule by rule. -/
theorem blocks_eq_of_stylesheetText_eq {rules rules' : List Rule} (h : ∀ r ∈ rules, r.IsReadable)
    (h' : ∀ r ∈ rules', r.IsReadable)
    (heq : stylesheetText (rules.map .rule) = stylesheetText (rules'.map .rule)) :
    List.Forall₂ (fun r r' => ∃ b, r.block = .ok b ∧ r'.block = .ok b) rules rules' := by
  obtain ⟨text, htext, hblocks⟩ := exists_stylesheetText h
  obtain ⟨text', htext', hblocks'⟩ := exists_stylesheetText h'
  rw [htext, htext', Except.ok.injEq] at heq
  subst heq
  exact forall₂_of_mapM_eq_ok hblocks hblocks'

/-- A stylesheet of one rule, for a target with given classes and with one value. -/
def classRule (classes : List String) (value : String) : Rule :=
  ⟨[[.compound (classes.map fun c => .descriptor (.ofClass c))]], [.single "fill" [.ident value]]⟩

theorem isReadable_classRule {classes : List String} {value : String}
    (hclasses : ∀ c ∈ classes, Text.IsSingleLine c) (hvalue : Text.IsSingleLine value) :
    (classRule classes value).IsReadable := by
  refine ⟨List.cons_ne_nil _ _, ?_, ?_⟩
  · intro a ha
    obtain rfl := List.mem_singleton.1 ha
    refine .sequence (List.forall_mem_singleton.2 (.compound ?_))
    intro e he
    obtain ⟨c, hc, rfl⟩ := List.mem_map.1 he
    exact .descriptor (hclasses c hc)
  · intro d hd
    obtain rfl := List.mem_singleton.1 hd
    have hfill : Text.IsSingleLine "fill" := by decide
    refine .declaration hfill ?_
    rw [Declaration.terms_single]
    exact List.forall_mem_singleton.2 (.ident hvalue)

/-- The class `a.b, {` and the classes `a` and `b, {` are written alike, in one block. -/
theorem blocks_eq_of_stylesheetText_eq_classes :
    (∀ r ∈ [classRule ["a.b, \x7b"] "\x7d;"], r.IsReadable) ∧
      (∀ r ∈ [classRule ["a", "b, \x7b"] "\x7d;"], r.IsReadable) ∧
      stylesheetText ([classRule ["a.b, \x7b"] "\x7d;"].map .rule) =
        stylesheetText ([classRule ["a", "b, \x7b"] "\x7d;"].map .rule) ∧
      List.Forall₂ (fun r r' => ∃ b, r.block = .ok b ∧ r'.block = .ok b)
        [classRule ["a.b, \x7b"] "\x7d;"] [classRule ["a", "b, \x7b"] "\x7d;"] := by
  have hfirst : ∀ r ∈ [classRule ["a.b, \x7b"] "\x7d;"], r.IsReadable :=
    List.forall_mem_singleton.2 (isReadable_classRule (by decide) (by decide))
  have hsecond : ∀ r ∈ [classRule ["a", "b, \x7b"] "\x7d;"], r.IsReadable :=
    List.forall_mem_singleton.2 (isReadable_classRule (by decide) (by decide))
  have htext : stylesheetText ([classRule ["a.b, \x7b"] "\x7d;"].map .rule) =
      stylesheetText ([classRule ["a", "b, \x7b"] "\x7d;"].map .rule) := rfl
  exact ⟨hfirst, hsecond, htext, blocks_eq_of_stylesheetText_eq hfirst hsecond htext⟩

end VectorStyle
