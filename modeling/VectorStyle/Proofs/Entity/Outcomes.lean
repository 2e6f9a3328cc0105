import VectorStyle.Proofs.Entity.Buffer

/-!
# What serialization ends in

An entity has a text exactly if nothing nested in it is foreign. The text is then assembled from the
texts that the parts have alone, although all parts are written into one buffer. Otherwise the error
is the foreign entity on the first path, in reading order.

Main statements: `Entity.text_eq_error_iff`, which foreign entity is the error;
`Entity.text_eq_ok_iff`, which text it is otherwise; and `text_outcomes`.
-/

set_option autoImplicit false

namespace VectorStyle

/-! ## Paths -/

namespace Entity

/-- The part of a part at the end of a path of positions. -/
def part? (e : Entity) : List Nat → Option Entity
  | [] => some e
  | i :: path => e.parts[i]? >>= (part? · path)

/-- A foreign entity is found on a path, and on no path before. -/
def IsFirstForeign (e : Entity) (f : Foreign) : Prop :=
  ∃ path, e.part? path = some (.foreign f) ∧
    ∀ path' g, e.part? path' = some (.foreign g) → path' = path ∨ List.Lex (· < ·) path path'

theorem part?_cons_eq_some_iff {e e' : Entity} {i : Nat} {path : List Nat} :
    e.part? (i :: path) = some e' ↔ ∃ p, e.parts[i]? = some p ∧ p.part? path = some e' := by
  rw [part?, Option.bind_eq_bind, Option.bind_eq_some_iff]

theorem IsFirstForeign.unique {e : Entity} {f g : Foreign} (hf : e.IsFirstForeign f)
    (hg : e.IsFirstForeign g) : f = g := by
  obtain ⟨path, hpath, hfirst⟩ := hf
  obtain ⟨path', hpath', hfirst'⟩ := hg
  have heq : path' = path := by
    rcases hfirst path' g hpath' with heq | hlt
    · exact heq
    · rcases hfirst' path f hpath with heq | hlt'
      · exact heq.symm
      · exact absurd hlt' (List.lt_asymm hlt)
  rw [heq, hpath] at hpath'
  exact foreign.inj (Option.some.inj hpath')

/-! ## Errors -/

theorem ne_foreign_of_getElem?_parts {e p : Entity} {i : Nat} (h : e.parts[i]? = some p)
    (f : Foreign) : e ≠ foreign f := by
  rintro rfl
  cases h

theorem exists_text_eq_error {e : Entity} {path : List Nat} {f : Foreign}
    (h : e.part? path = some (.foreign f)) : ∃ g, e.text = .error g := by
  induction path generalizing e with
  | nil =>
    obtain rfl := Option.some.inj h
    exact ⟨f, by rw [text]⟩
  | cons i path ih =>
    obtain ⟨p, hp, hrest⟩ := part?_cons_eq_some_iff.1 h
    obtain ⟨g, hg⟩ := ih hrest
    obtain ⟨_, _, g', _, herror⟩ := exists_mapM_eq_error (List.mem_of_getElem? hp) hg
    refine ⟨g', ?_⟩
    rw [text_eq (ne_foreign_of_getElem?_parts hp), texts_eq_mapM, herror]
    rfl

theorem isFirstForeign_of_text_eq_error {e : Entity} :
    ∀ f, e.text = .error f → e.IsFirstForeign f := by
  induction e using Entity.induction with
  | of_parts e ih =>
    intro f herror
    by_cases hforeign : ∃ g, e = foreign g
    case pos =>
      obtain ⟨g, rfl⟩ := hforeign
      rw [text, Except.error.injEq] at herror
      subst herror
      refine ⟨[], rfl, ?_⟩
      intro path g' hpath
      cases path with
      | nil => exact .inl rfl
      | cons i path => exact .inr .nil
    case neg =>
      have hne : ∀ g, e ≠ foreign g := fun g hg => hforeign ⟨g, hg⟩
      rw [text_eq hne, map_eq_error_iff, texts_eq_mapM] at herror
      obtain ⟨i, p, hp, hfail, hbefore⟩ := exists_first_of_mapM_eq_error herror
      obtain ⟨path, hpath, hfirst⟩ := ih p (List.mem_of_getElem? hp) f hfail
      refine ⟨i :: path, part?_cons_eq_some_iff.2 ⟨p, hp, hpath⟩, ?_⟩
      intro path' g hpath'
      cases path' with
      | nil => exact absurd (Option.some.inj hpath') (hne g)
      | cons j path' =>
        obtain ⟨q, hq, hrest⟩ := part?_cons_eq_some_iff.1 hpath'
        -- the parts before the one that fails have texts, so nothing in them is foreign
        rcases Nat.lt_trichotomy j i with hlt | rfl | hlt
        · obtain ⟨t, ht⟩ := hbefore j q hlt hq
          obtain ⟨g', hg'⟩ := exists_text_eq_error hrest
          rw [ht] at hg'
          cases hg'
        · rw [hp, Option.some.injEq] at hq
          subst hq
          rcases hfirst path' g hrest with rfl | hlt
          · exact .inl rfl
          · exact .inr (.cons hlt)
        · exact .inr (.rel hlt)

/-- The error is the first foreign entity in reading order. -/
theorem text_eq_error_iff {e : Entity} {f : Foreign} : e.text = .error f ↔ e.IsFirstForeign f := by
  constructor
  · exact isFirstForeign_of_text_eq_error f
  · intro hfirst
    obtain ⟨path, hpath, -⟩ := id hfirst
    obtain ⟨g, hg⟩ := exists_text_eq_error hpath
    rw [hfirst.unique (isFirstForeign_of_text_eq_error g hg), hg]

theorem exists_text_eq_error_iff {e : Entity} :
    (∃ f, e.text = .error f) ↔ ∃ path f, e.part? path = some (.foreign f) := by
  constructor
  · rintro ⟨f, hf⟩
    obtain ⟨path, hpath, -⟩ := text_eq_error_iff.1 hf
    exact ⟨path, f, hpath⟩
  · rintro ⟨path, f, hpath⟩
    exact exists_text_eq_error hpath

/-! ## Texts -/

theorem exists_text_eq_ok_iff {e : Entity} :
    (∃ t, e.text = .ok t) ↔ ∀ path f, e.part? path ≠ some (.foreign f) := by
  constructor
  · rintro ⟨t, ht⟩ path f hpath
    obtain ⟨g, hg⟩ := exists_text_eq_error hpath
    rw [ht] at hg
    cases hg
  · intro hnone
    cases ht : e.text with
    | ok t => exact ⟨t, rfl⟩
    | error f =>
      obtain ⟨path, hpath, -⟩ := text_eq_error_iff.1 ht
      exact absurd hpath (hnone path f)

/-- A text is assembled from the texts that the parts have alone. -/
theorem text_eq_ok_iff {e : Entity} {t : String} :
    e.text = .ok t ↔
      (∀ f, e ≠ foreign f) ∧
        ∃ ts, List.Forall₂ (fun p t => p.text = .ok t) e.parts ts ∧ e.assembled ts = t := by
  by_cases hne : ∀ f, e ≠ foreign f
  case pos =>
    rw [text_eq hne, map_eq_ok_iff, texts_eq_mapM, and_iff_right hne]
    simp only [mapM_eq_ok_iff]
  case neg =>
    obtain ⟨f, rfl⟩ : ∃ f, e = foreign f := by simpa using hne
    rw [text]
    constructor
    · intro h
      cases h
    · intro h
      exact absurd rfl (h.1 f)

end Entity

/-! ## Stylesheets -/

theorem stylesheetText_eq (es : List Entity) : stylesheetText es = (Entity.compound es).text := by
  rw [stylesheetText, Entity.text]

theorem stylesheetText_eq_ok_iff {es : List Entity} {t : String} :
    stylesheetText es = .ok t ↔
      ∃ ts, List.Forall₂ (fun e t => e.text = .ok t) es ts ∧ String.join ts = t := by
  have hne : ∀ f, Entity.compound es ≠ .foreign f := by
    intro f h
    cases h
  rw [stylesheetText_eq, Entity.text_eq_ok_iff, and_iff_right hne]
  rfl

/-- Serialization fails exactly if something foreign is nested in the entity, and then with the
first such thing. Otherwise there is a text, made from the texts that the parts have alone. The same
holds of the parts of a stylesheet, and the buffer into which all is written changes nothing. -/
theorem text_outcomes (e : Entity) (es : List Entity) (buffer : String) :
    ((∃ f, e.text = .error f) ↔ ∃ path f, e.part? path = some (.foreign f)) ∧
      (∀ f, e.text = .error f ↔ e.IsFirstForeign f) ∧
      ((∃ t, e.text = .ok t) ↔ ∀ path f, e.part? path ≠ some (.foreign f)) ∧
      (∀ t, e.text = .ok t ↔
        (∀ f, e ≠ .foreign f) ∧
          ∃ ts, List.Forall₂ (fun p t => p.text = .ok t) e.parts ts ∧ e.assembled ts = t) ∧
      (∀ f, stylesheetText es = .error f ↔ (Entity.compound es).IsFirstForeign f) ∧
      (∀ t, stylesheetText es = .ok t ↔
        ∃ ts, List.Forall₂ (fun e t => e.text = .ok t) es ts ∧ String.join ts = t) ∧
      e.write buffer = e.text.map (buffer ++ ·) ∧
      writeStylesheet buffer es = (stylesheetText es).map (buffer ++ ·) := by
  refine ⟨Entity.exists_text_eq_error_iff, fun f => Entity.text_eq_error_iff,
    Entity.exists_text_eq_ok_iff, fun t => Entity.text_eq_ok_iff, ?_,
    fun t => stylesheetText_eq_ok_iff, e.write_eq buffer, writeStylesheet_eq buffer es⟩
  intro f
  rw [stylesheetText_eq, Entity.text_eq_error_iff]

-- the alternatives of a rule are written before its block
example :
    (Entity.block [[.comma], [.foreign (.literal .none)]] [.foreign (.literal (.bool true))]).text =
      .error (.literal .none) := rfl

end VectorStyle
