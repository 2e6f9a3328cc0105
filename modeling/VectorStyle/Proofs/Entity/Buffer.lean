import VectorStyle.Entity.Writer
import VectorStyle.Proofs.Entity.Parts

/-!
# The buffer does not matter

All parts of a stylesheet are written into one buffer, but what is appended for a part is the text
that the part has alone. So the text of a list is made from the texts of its members.

Main statements: `Entity.write_eq` and `writeStylesheet_eq`.
-/

set_option autoImplicit false

namespace VectorStyle

/-! ## Lists with separators -/

/-- What is appended for members with given texts: separators stand between them, and one more in
front if other members have been written. -/
def joinedFrom (separator : String) : Bool → List String → String
  | true, ts => separator.intercalate ts
  | false, ts => String.join (ts.map (separator ++ ·))

theorem intercalate_cons (separator t : String) (ts : List String) :
    separator.intercalate (t :: ts) = t ++ joinedFrom separator false ts := by
  induction ts generalizing t with
  | nil =>
    rw [String.intercalate_singleton, joinedFrom, List.map_nil, String.join_nil,
      String.append_empty]
  | cons u ts ih =>
    rw [String.intercalate_cons_cons, ih, joinedFrom, joinedFrom, List.map_cons, String.join_cons]
    simp only [String.append_assoc]

theorem empty_intercalate (ts : List String) : "".intercalate ts = String.join ts := by
  cases ts with
  | nil => rfl
  | cons t ts =>
    have hmap : ts.map ("" ++ ·) = ts := by
      simp only [String.empty_append, List.map_id_fun']
      rfl
    rw [intercalate_cons, joinedFrom, hmap, String.join_cons]

theorem joinedFrom_nil (separator : String) (first : Bool) :
    joinedFrom separator first [] = "" := by
  cases first <;> rfl

theorem separated_append_joinedFrom (separator buffer t : String) (first : Bool)
    (ts : List String) :
    separated separator first buffer ++ t ++ joinedFrom separator false ts =
      buffer ++ joinedFrom separator first (t :: ts) := by
  cases first with
  | true => rw [separated, if_pos rfl, joinedFrom, intercalate_cons, String.append_assoc]
  | false =>
    rw [separated, joinedFrom, joinedFrom, List.map_cons, String.join_cons]
    simp only [Bool.false_eq_true, if_false, String.append_assoc]

/-! ## Loops of the writer as one loop -/

theorem writeJoined_append (separator : String) (first : Bool) (buffer : String)
    (es fs : List Entity) :
    writeJoined separator first buffer (es ++ fs) =
      (writeJoined separator first buffer es >>= fun written =>
        writeJoined separator (first && es.isEmpty) written fs) := by
  induction es generalizing first buffer with
  | nil => rw [List.nil_append, writeJoined, ok_bind, List.isEmpty_nil, Bool.and_true]
  | cons e es ih =>
    rw [List.cons_append, writeJoined, writeJoined, List.isEmpty_cons, Bool.and_false, bind_assoc]
    congr 1
    funext written
    exact ih false written

theorem writeTerms_eq (first : Bool) (buffer : String) (gs : List (List Entity)) :
    writeTerms first buffer gs = writeJoined " " first buffer gs.flatten := by
  induction gs generalizing first buffer with
  | nil => rw [writeTerms, List.flatten_nil, writeJoined]
  | cons g gs ih =>
    rw [List.flatten_cons, writeJoined_append, writeTerms]
    congr 1
    funext written
    exact ih (first && g.isEmpty) written

theorem writeAlternatives_eq (first : Bool) (buffer : String) (gs : List (List Entity)) :
    writeAlternatives first buffer gs = writeJoined ",\n" first buffer (gs.map .sequence) := by
  induction gs generalizing first buffer with
  | nil => rw [writeAlternatives, List.map_nil, writeJoined]
  | cons g gs ih =>
    rw [writeAlternatives, List.map_cons, writeJoined, Entity.write]
    congr 1
    funext written
    exact ih false written

theorem Declaration.write_eq (d : Declaration) (buffer : String) :
    d.write buffer = writeJoined " " true (buffer ++ (d.property ++ ": ")) d.terms := by
  obtain ⟨property, groups⟩ := d
  rw [Declaration.write, writeTerms_eq]
  rfl

/-! ## Members that do not depend on the buffer -/

/-- What is appended for an entity is the text that the entity has alone. -/
def Entity.Appends (e : Entity) : Prop := ∀ buffer, e.write buffer = e.text.map (buffer ++ ·)

theorem writeJoined_eq {es : List Entity} (h : ∀ e ∈ es, e.Appends) (separator : String)
    (first : Bool) (buffer : String) :
    writeJoined separator first buffer es =
      (texts es).map fun ts => buffer ++ joinedFrom separator first ts := by
  induction es generalizing first buffer with
  | nil =>
    rw [writeJoined, texts, Except.map, joinedFrom_nil, String.append_empty]
  | cons e es ih =>
    rw [List.forall_mem_cons] at h
    rw [writeJoined, texts, h.1]
    cases e.text with
    | error f => rfl
    | ok t =>
      rw [Except.map, ok_bind, ih h.2]
      cases texts es with
      | error f => rfl
      | ok ts => exact congrArg Except.ok (separated_append_joinedFrom separator buffer t first ts)

theorem writeLines_eq {es : List Entity} (h : ∀ e ∈ es, e.Appends) (buffer : String) :
    writeLines buffer es =
      (texts es).map fun ts => buffer ++ String.join (ts.map declarationLine) := by
  induction es generalizing buffer with
  | nil => rw [writeLines, texts, Except.map, List.map_nil, String.join_nil, String.append_empty]
  | cons e es ih =>
    rw [List.forall_mem_cons] at h
    rw [writeLines, texts, h.1]
    cases e.text with
    | error f => rfl
    | ok t =>
      rw [Except.map, ok_bind, ih h.2]
      cases texts es with
      | error f => rfl
      | ok ts =>
        refine congrArg Except.ok ?_
        simp only [List.map_cons, String.join_cons, declarationLine, String.append_assoc]

/-! ## Entities -/

/-- What has been written does not change what is appended. -/
theorem Entity.write_eq (e : Entity) : e.Appends := by
  induction e using Entity.induction with
  | of_parts e ih =>
    intro buffer
    cases e with
    | compound ps =>
      have hparts : ∀ p ∈ ps, p.Appends := ih
      rw [Entity.write, writeJoined_eq hparts, Entity.text]
      cases texts ps with
      | error f => rfl
      | ok ts => exact congrArg (fun t => Except.ok (buffer ++ t)) (empty_intercalate ts)
    | sequence items =>
      have hparts : ∀ p ∈ items, p.Appends := ih
      rw [Entity.write, writeJoined_eq hparts, Entity.text]
      cases texts items <;> rfl
    | function n args =>
      have hparts : ∀ p ∈ args, p.Appends := ih
      rw [Entity.write, writeJoined_eq hparts, Entity.text]
      cases texts args with
      | error f => rfl
      | ok ts =>
        refine congrArg Except.ok ?_
        simp only [joinedFrom, String.append_assoc]
    | declaration d =>
      have hparts : ∀ p ∈ d.terms, p.Appends := ih
      rw [Entity.write, Declaration.write_eq, writeJoined_eq hparts, Entity.text,
        Declaration.text_eq]
      cases texts d.terms with
      | error f => rfl
      | ok ts =>
        refine congrArg Except.ok ?_
        simp only [joinedFrom, declarationText, String.append_assoc]
    | block alternatives ps =>
      have halternatives : ∀ p ∈ alternatives.map sequence, p.Appends := fun p hp =>
        ih p (List.mem_append_left _ hp)
      have hparts : ∀ p ∈ ps, p.Appends := fun p hp => ih p (List.mem_append_right _ hp)
      rw [Entity.write, writeAlternatives_eq, writeJoined_eq halternatives, texts_map_sequence,
        Entity.text]
      cases groupTexts alternatives with
      | error f => rfl
      | ok ss =>
        simp only [Except.map, ok_bind]
        rw [writeLines_eq hparts]
        cases texts ps with
        | error f => rfl
        | ok ts =>
          refine congrArg Except.ok ?_
          simp only [joinedFrom, ruleBlock, String.append_assoc]
    | _ => rw [Entity.write, Entity.text]; rfl

theorem writeStylesheet_eq (buffer : String) (es : List Entity) :
    writeStylesheet buffer es = (stylesheetText es).map (buffer ++ ·) := by
  rw [stylesheetText, writeStylesheet]
  induction es generalizing buffer with
  | nil => exact congrArg Except.ok String.append_empty.symm
  | cons e es ih =>
    rw [List.foldlM_cons, e.write_eq, texts]
    cases e.text with
    | error f => rfl
    | ok t =>
      refine (ih (buffer ++ t)).trans ?_
      cases texts es with
      | error f => rfl
      | ok ts =>
        refine congrArg Except.ok ?_
        show buffer ++ t ++ String.join ts = buffer ++ String.join (t :: ts)
        rw [String.join_cons, String.append_assoc]

end VectorStyle
