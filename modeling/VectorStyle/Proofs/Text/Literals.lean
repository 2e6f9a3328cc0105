import VectorStyle.Proofs.Text.Integers
import VectorStyle.Proofs.Text.Runs
import VectorStyle.Proofs.Text.Scripts

/-!
# The grammar of integer literals

A literal without padding is an optional sign and groups of digits with single underscores between
them. No group is empty, so there is no underscore at either end and there are no two in a row. The
groups denote the number of their digits in one row, of which there are at most `maxDigits`.

Main statements: `digits?_eq_some_iff`, the reader of a row keeps the digits of its groups;
and `read?_eq_some_iff`, the reader accepts the literals.
-/

set_option autoImplicit false

namespace VectorStyle.Text.Integer

open Digit (isDigit number)

/-! ## Groups of digits -/

/-- At least one group, and at least one digit in each. -/
structure IsGrouping (groups : List (List Char)) : Prop where
  ne_nil : groups ≠ []
  ne_nil_of_mem : ∀ g ∈ groups, g ≠ []
  isDigit_of_mem : ∀ g ∈ groups, ∀ c ∈ g, isDigit c = true

/-- Groups with single underscores between them. -/
def joined (groups : List (List Char)) : List Char := ['_'].intercalate groups

theorem joined_singleton (g : List Char) : joined [g] = g := List.intercalate_singleton

theorem joined_cons_cons (g h : List Char) (groups : List (List Char)) :
    joined (g :: h :: groups) = g ++ '_' :: joined (h :: groups) := by
  rw [joined, List.intercalate_cons_cons, List.append_assoc]
  rfl

theorem isGrouping_singleton {g : List Char} (hne : g ≠ []) (hg : ∀ c ∈ g, isDigit c = true) :
    IsGrouping [g] where
  ne_nil := List.cons_ne_nil _ _
  ne_nil_of_mem := List.forall_mem_singleton.2 hne
  isDigit_of_mem := List.forall_mem_singleton.2 hg

namespace IsGrouping

variable {g : List Char} {groups : List (List Char)}

theorem cons (hne : g ≠ []) (hg : ∀ c ∈ g, isDigit c = true) (h : IsGrouping groups) :
    IsGrouping (g :: groups) where
  ne_nil := List.cons_ne_nil _ _
  ne_nil_of_mem := List.forall_mem_cons.2 ⟨hne, h.ne_nil_of_mem⟩
  isDigit_of_mem := List.forall_mem_cons.2 ⟨hg, h.isDigit_of_mem⟩

theorem tail {g' : List Char} (h : IsGrouping (g :: g' :: groups)) : IsGrouping (g' :: groups) where
  ne_nil := List.cons_ne_nil _ _
  ne_nil_of_mem := (List.forall_mem_cons.1 h.ne_nil_of_mem).2
  isDigit_of_mem := (List.forall_mem_cons.1 h.isDigit_of_mem).2

/-- A digit in front goes into the first group. -/
theorem cons_digit {c : Char} (hc : isDigit c = true) (h : IsGrouping (g :: groups)) :
    IsGrouping ((c :: g) :: groups) where
  ne_nil := List.cons_ne_nil _ _
  ne_nil_of_mem := by
    rw [List.forall_mem_cons]
    exact ⟨List.cons_ne_nil c g, (List.forall_mem_cons.1 h.ne_nil_of_mem).2⟩
  isDigit_of_mem := by
    have hdigits := List.forall_mem_cons.1 h.isDigit_of_mem
    rw [List.forall_mem_cons, List.forall_mem_cons]
    exact ⟨⟨hc, hdigits.1⟩, hdigits.2⟩

end IsGrouping

theorem joined_cons_digit (c : Char) (g : List Char) (groups : List (List Char)) :
    joined ((c :: g) :: groups) = c :: joined (g :: groups) := by
  cases groups with
  | nil => rw [joined_singleton, joined_singleton]
  | cons h groups => rw [joined_cons_cons, joined_cons_cons, List.cons_append]

theorem digits?_cons_cons {c d : Char} (hc : isDigit c = true) (hd : isDigit d = true)
    (more : List Char) : digits? (c :: d :: more) = (digits? (d :: more)).map (c :: ·) := by
  have hne : d ≠ '_' := by
    rintro rfl
    exact absurd hd (by decide)
  rw [digits?, if_pos hc]
  · simp
  · intro tail heq
    exact hne (List.cons.inj heq).1

/-- The digits of the first group come before those of the others. -/
theorem digits?_append {g : List Char} (hne : g ≠ []) (hg : ∀ c ∈ g, isDigit c = true)
    (more : List Char) : digits? (g ++ '_' :: more) = (digits? more).map (g ++ ·) := by
  induction g with
  | nil => exact absurd rfl hne
  | cons c g ih =>
    have hc := hg c List.mem_cons_self
    cases g with
    | nil => rw [List.singleton_append, digits?, if_pos hc]; rfl
    | cons d g =>
      have hd := hg d (by simp)
      have hrest := ih (by simp) fun e he => hg e (List.mem_cons_of_mem _ he)
      rw [List.cons_append] at hrest
      rw [List.cons_append, List.cons_append, digits?_cons_cons hc hd, hrest, Option.map_map]
      rfl

theorem digits?_joined {groups : List (List Char)} (h : IsGrouping groups) :
    digits? (joined groups) = some groups.flatten := by
  induction groups with
  | nil => exact absurd rfl h.ne_nil
  | cons g groups ih =>
    have hne := h.ne_nil_of_mem g List.mem_cons_self
    have hg := h.isDigit_of_mem g List.mem_cons_self
    cases groups with
    | nil => rw [joined_singleton, digits?_of_isDigit g hne hg, List.flatten_singleton]
    | cons g' groups =>
      rw [joined_cons_cons, digits?_append hne hg, ih h.tail, Option.map_some]
      rfl

/-- A row of digits is read as groups: an underscore ends a group and every digit is put in front of
one. -/
theorem exists_grouping_of_digits? {cs ds : List Char} (h : digits? cs = some ds) :
    ∃ groups, IsGrouping groups ∧ cs = joined groups ∧ ds = groups.flatten := by
  fun_induction digits? cs generalizing ds with
  | case1 => cases h
  | case2 c hc =>
    -- the last digit is a group of its own for now
    cases h
    exact ⟨[[c]], isGrouping_singleton (by simp) (List.forall_mem_singleton.2 hc),
      (joined_singleton [c]).symm, rfl⟩
  | case3 c hc more ih =>
    -- an underscore follows, so that the digit ends a group
    obtain ⟨es, hes, rfl⟩ := Option.map_eq_some_iff.1 h
    obtain ⟨groups, hgroups, rfl, rfl⟩ := ih hes
    refine ⟨[c] :: groups, hgroups.cons (by simp) (List.forall_mem_singleton.2 hc), ?_, rfl⟩
    cases groups with
    | nil => exact absurd rfl hgroups.ne_nil
    | cons g groups => rw [joined_cons_cons, List.singleton_append]
  | case4 c hc more _ _ ih =>
    -- a digit follows, so that there is a group to put this one in
    obtain ⟨es, hes, rfl⟩ := Option.map_eq_some_iff.1 h
    obtain ⟨groups, hgroups, rfl, rfl⟩ := ih hes
    cases groups with
    | nil => exact absurd rfl hgroups.ne_nil
    | cons g groups =>
      exact ⟨(c :: g) :: groups, hgroups.cons_digit hc, (joined_cons_digit c g groups).symm, rfl⟩
  | case5 => cases h

theorem digits?_eq_some_iff {cs ds : List Char} :
    digits? cs = some ds ↔
      ∃ groups, IsGrouping groups ∧ cs = joined groups ∧ ds = groups.flatten := by
  constructor
  · exact exists_grouping_of_digits?
  · rintro ⟨groups, hgroups, rfl, rfl⟩
    exact digits?_joined hgroups

/-! ## Literals -/

/-- What the characters of a literal denote. -/
inductive Denotes : List Char → Int → Prop
  | mk {signed : List Char} {negative : Bool} {groups : List (List Char)}
      (hs : IsSign signed negative) (h : IsGrouping groups)
      (few : groups.flatten.length ≤ maxDigits) :
      Denotes (signed ++ joined groups)
        (if negative then -(number groups.flatten : Int) else number groups.flatten)

/-- What begins with a group begins with a digit. -/
theorem isDigit_of_mem_head?_joined {groups : List (List Char)} (h : IsGrouping groups) :
    ∀ c ∈ (joined groups).head?, isDigit c = true := by
  cases groups with
  | nil => exact absurd rfl h.ne_nil
  | cons g groups =>
    cases g with
    | nil => exact absurd rfl (h.ne_nil_of_mem [] List.mem_cons_self)
    | cons c g =>
      rintro d hd
      rw [joined_cons_digit, List.head?_cons, Option.mem_some_iff] at hd
      subst hd
      exact h.isDigit_of_mem _ List.mem_cons_self _ List.mem_cons_self

theorem read?_eq_of_sign {s : String} {negative : Bool} {body ds : List Char}
    (hsign : sign (Chars.stripBy isPadding s.toList) = (negative, body))
    (hdigits : digits? body = some ds) (few : ds.length ≤ maxDigits) :
    read? s = some (if negative then -(number ds : Int) else number ds) := by
  simp only [read?, hsign, hdigits, Option.bind_some, if_pos few]

/-- The reader accepts the literals, with padding around them, and gives what they denote. -/
theorem read?_eq_some_iff {s : String} {i : Int} :
    read? s = some i ↔ Denotes (Chars.stripBy isPadding s.toList) i := by
  constructor
  · intro h
    unfold read? at h
    generalize Chars.stripBy isPadding s.toList = cs at h
    cases hsign : sign cs with
    | mk negative body =>
      simp only [hsign] at h
      obtain ⟨ds, hdigits, hds⟩ := Option.bind_eq_some_iff.1 h
      obtain ⟨groups, hgroups, rfl, rfl⟩ := digits?_eq_some_iff.1 hdigits
      obtain ⟨signed, hsigned, rfl⟩ := exists_isSign hsign
      split at hds
      · next few =>
        cases hds
        exact .mk hsigned hgroups few
      · cases hds
  · generalize hcs : Chars.stripBy isPadding s.toList = cs
    rintro ⟨hsigned, hgroups, few⟩
    refine read?_eq_of_sign ?_ (digits?_joined hgroups) few
    rw [hcs]
    apply sign_append hsigned
    exact fun c hc => ne_sign_of_isDigit (isDigit_of_mem_head?_joined hgroups c hc)

/-- There is no padding left around a text without blanks around it. -/
theorem stripBy_isPadding_strip (cs : List Char) :
    Chars.stripBy isPadding (Chars.strip cs) = Chars.strip cs := by
  have hpadding {c : Char} (h : isBlank c = false) : isPadding c = false := by
    rw [isPadding, h, Bool.false_and]
  have hedges : Chars.stripBy isPadding ([] ++ (Chars.strip cs ++ [])) = Chars.strip cs :=
    stripBy_append_eq (List.forall_mem_nil _) (List.forall_mem_nil _)
      (fun c hc => hpadding (Chars.head?_strip cs c hc))
      (fun c hc => hpadding (Chars.getLast?_strip cs c hc))
  rwa [List.nil_append, List.append_nil] at hedges

theorem read?_strip_eq_some_iff {s : String} {i : Int} :
    read? (strip s) = some i ↔ Denotes (strip s).toList i := by
  rw [read?_eq_some_iff, strip, String.toList_ofList, stripBy_isPadding_strip]

end VectorStyle.Text.Integer
