import VectorStyle.Config
import VectorStyle.Proofs.Text.Literals

/-!
# Which environments give a configuration

The resolution of the environment is refused unless it is a literal of a positive integer, and only
then the level is looked at. A variable that is not set or blank is not refused. Every configuration
comes from an environment that holds its texts, whatever blanks stand around them and whatever the
case of the level's letters.

Main statements: `exists_dpi_of_not_refusesDpi`, the check that is left when the resolution is not
refused; `ofEnvironment_of_texts`, an environment for each configuration; and
`ofEnvironment_outcomes`.
-/

set_option autoImplicit false

namespace VectorStyle

open Text (isBlank)
open Text.Integer (Denotes maxDigits)

namespace Config

/-! ## What the environment asks for -/

/-- The value of a variable without the blanks around it, empty where the variable is not set. -/
def stripped (env : Environment) (name : String) : String := Text.strip ((env name).getD "")

/-- There is a resolution, and it is no integer literal or denotes no positive integer. -/
def RefusesDpi (env : Environment) : Prop :=
  stripped env "SVGCSS_DPI" ≠ "" ∧
    ((¬ ∃ i, Denotes (stripped env "SVGCSS_DPI").toList i) ∨
      ∃ i, Denotes (stripped env "SVGCSS_DPI").toList i ∧ i ≤ 0)

/-- There is a level, and in upper case it is the name of none. -/
def RefusesLevel (env : Environment) : Prop :=
  stripped env "SVGCSS_LOG_LEVEL" ≠ "" ∧
    ∀ l : LogLevel, Text.upper (stripped env "SVGCSS_LOG_LEVEL") ≠ l.name

/-- The resolution that the environment asks for, if it asks for one, and otherwise the default. -/
structure AsksForDpi (env : Environment) (dpi : Int) : Prop where
  of_blank : stripped env "SVGCSS_DPI" = "" → dpi = 96
  of_given : stripped env "SVGCSS_DPI" ≠ "" → Denotes (stripped env "SVGCSS_DPI").toList dpi

/-- The level that the environment asks for, if it asks for one, and otherwise the default. -/
structure AsksForLevel (env : Environment) (level : LogLevel) : Prop where
  of_blank : stripped env "SVGCSS_LOG_LEVEL" = "" → level = .warning
  of_given : stripped env "SVGCSS_LOG_LEVEL" ≠ "" →
    Text.upper (stripped env "SVGCSS_LOG_LEVEL") = level.name

variable {env : Environment}

theorem given?_of_eq_empty {name : String} (h : stripped env name = "") :
    given? env name = none := by
  rw [stripped] at h
  rw [given?, if_pos h]

theorem given?_of_ne_empty {name : String} (h : stripped env name ≠ "") :
    given? env name = some (stripped env name) := by
  rw [stripped] at h ⊢
  rw [given?, if_neg h]

theorem ofEnvironment_of_not_literal (h : stripped env "SVGCSS_DPI" ≠ "")
    (hread : Text.Integer.read? (stripped env "SVGCSS_DPI") = none) :
    ofEnvironment env = .error (.resolutionNotANumber (stripped env "SVGCSS_DPI")) := by
  simp only [ofEnvironment, given?_of_ne_empty h, hread]

theorem ofEnvironment_of_literal (h : stripped env "SVGCSS_DPI" ≠ "") {n : Int}
    (hread : Text.Integer.read? (stripped env "SVGCSS_DPI") = some n) :
    ofEnvironment env = make (some (.ofInt n)) (given? env "SVGCSS_LOG_LEVEL") := by
  simp only [ofEnvironment, given?_of_ne_empty h, hread]

theorem check_of_not_pos {n : Int} (h : ¬ 0 < n) (level : String) :
    check (.ofInt n) level = .error (.resolutionNotPositive (.ofInt n)) :=
  dif_neg h

theorem check_eq_error {n : Int} (hn : 0 < n) {level : String} (h : LogLevel.ofName? level = none) :
    check (.ofInt n) level = .error (.unknownLevel level) := by
  unfold check
  simp only [Setting.ofInt, Setting.asInt?, dif_pos hn, h]

theorem ofEnvironment_of_refusesDpi (h : RefusesDpi env) :
    ∃ x, ofEnvironment env = .error x ∧ x.key = .dpi := by
  obtain ⟨hset, hrefused⟩ := h
  rcases hrefused with hnone | ⟨i, hi, hnotPos⟩
  · have hread : Text.Integer.read? (stripped env "SVGCSS_DPI") = none := by
      rw [Option.eq_none_iff_forall_ne_some]
      intro i hi
      exact hnone ⟨i, Text.Integer.read?_strip_eq_some_iff.1 hi⟩
    exact ⟨_, ofEnvironment_of_not_literal hset hread, rfl⟩
  · rw [ofEnvironment_of_literal hset (Text.Integer.read?_strip_eq_some_iff.2 hi)]
    exact ⟨_, check_of_not_pos (Int.not_lt.2 hnotPos) _, rfl⟩

/-- A resolution that is not refused leaves the check of the level. -/
theorem exists_dpi_of_not_refusesDpi (h : ¬ RefusesDpi env) :
    ∃ n, AsksForDpi env n ∧ 0 < n ∧ ofEnvironment env =
      check (.ofInt n) ((given? env "SVGCSS_LOG_LEVEL").getD LogLevel.warning.name) := by
  by_cases hset : stripped env "SVGCSS_DPI" = ""
  · refine ⟨96, ⟨fun _ => rfl, fun hne => absurd hset hne⟩, by decide, ?_⟩
    rw [ofEnvironment, given?_of_eq_empty hset]
    rfl
  · rw [RefusesDpi, not_and, not_or, not_not] at h
    obtain ⟨⟨n, hn⟩, hpos⟩ := h hset
    refine ⟨n, ⟨fun hblank => absurd hblank hset, fun _ => hn⟩, ?_, ?_⟩
    · by_contra hnotPos
      exact hpos ⟨n, hn, Int.not_lt.1 hnotPos⟩
    · rw [ofEnvironment_of_literal hset (Text.Integer.read?_strip_eq_some_iff.2 hn)]
      rfl

/-- A level that is not refused is that of a name. -/
theorem exists_level_of_not_refusesLevel (h : ¬ RefusesLevel env) :
    ∃ l, AsksForLevel env l ∧
      LogLevel.ofName? ((given? env "SVGCSS_LOG_LEVEL").getD LogLevel.warning.name) = some l := by
  by_cases hset : stripped env "SVGCSS_LOG_LEVEL" = ""
  · refine ⟨.warning, ⟨fun _ => rfl, fun hne => absurd hset hne⟩, ?_⟩
    rw [given?_of_eq_empty hset, Option.getD_none]
    exact (LogLevel.ofName?_eq_some_iff _ _).2 (by decide +kernel)
  · rw [RefusesLevel, not_and, not_forall] at h
    obtain ⟨l, hl⟩ := h hset
    have hname := not_not.1 hl
    refine ⟨l, ⟨fun hblank => absurd hblank hset, fun _ => hname⟩, ?_⟩
    rwa [given?_of_ne_empty hset, Option.getD_some, LogLevel.ofName?_eq_some_iff]

theorem ofEnvironment_of_refusesLevel (hdpi : ¬ RefusesDpi env) (h : RefusesLevel env) :
    ∃ x, ofEnvironment env = .error x ∧ x.key = .logLevel := by
  obtain ⟨n, -, hpos, hcheck⟩ := exists_dpi_of_not_refusesDpi hdpi
  have hname : LogLevel.ofName? (stripped env "SVGCSS_LOG_LEVEL") = none := by
    rw [Option.eq_none_iff_forall_ne_some]
    intro l hl
    exact h.2 l ((LogLevel.ofName?_eq_some_iff _ l).1 hl)
  rw [hcheck, given?_of_ne_empty h.1, Option.getD_some]
  exact ⟨_, check_eq_error hpos hname, rfl⟩

theorem exists_ofEnvironment_eq_ok (hdpi : ¬ RefusesDpi env) (hlevel : ¬ RefusesLevel env) :
    ∃ c, ofEnvironment env = .ok c ∧ AsksForDpi env c.dpi ∧ AsksForLevel env c.level := by
  obtain ⟨n, hasked, hpos, hcheck⟩ := exists_dpi_of_not_refusesDpi hdpi
  obtain ⟨l, hasked', hname⟩ := exists_level_of_not_refusesLevel hlevel
  refine ⟨⟨n, l, hpos⟩, ?_, hasked, hasked'⟩
  rw [hcheck]
  exact (check_eq_ok_iff _ _ _).2 ⟨rfl, hname⟩

theorem exists_dpi_error_iff :
    (∃ x, ofEnvironment env = .error x ∧ x.key = .dpi) ↔ RefusesDpi env := by
  constructor
  · rintro ⟨x, hx, hkey⟩
    by_contra hdpi
    by_cases hlevel : RefusesLevel env
    · obtain ⟨y, hy, hkey'⟩ := ofEnvironment_of_refusesLevel hdpi hlevel
      cases hx.symm.trans hy
      cases hkey.symm.trans hkey'
    · obtain ⟨c, hc, -⟩ := exists_ofEnvironment_eq_ok hdpi hlevel
      cases hx.symm.trans hc
  · exact ofEnvironment_of_refusesDpi

theorem exists_level_error_iff :
    (∃ x, ofEnvironment env = .error x ∧ x.key = .logLevel) ↔
      ¬ RefusesDpi env ∧ RefusesLevel env := by
  constructor
  · rintro ⟨x, hx, hkey⟩
    have hdpi : ¬ RefusesDpi env := by
      intro hdpi
      obtain ⟨y, hy, hkey'⟩ := ofEnvironment_of_refusesDpi hdpi
      cases hx.symm.trans hy
      cases hkey.symm.trans hkey'
    refine ⟨hdpi, ?_⟩
    by_contra hlevel
    obtain ⟨c, hc, -⟩ := exists_ofEnvironment_eq_ok hdpi hlevel
    cases hx.symm.trans hc
  · rintro ⟨hdpi, hlevel⟩
    exact ofEnvironment_of_refusesLevel hdpi hlevel

/-! ## The texts of a configuration -/

/-- A text with any number of blanks at either end. -/
def IsPadded (core text : String) : Prop :=
  ∃ before after : List Char, (∀ c ∈ before, isBlank c = true) ∧ (∀ c ∈ after, isBlank c = true) ∧
    text = String.ofList (before ++ (core.toList ++ after))

theorem strip_of_isPadded {core text : String} (hcore : ∀ c ∈ core.toList, isBlank c = false)
    (h : IsPadded core text) : Text.strip text = core := by
  obtain ⟨before, after, hbefore, hafter, rfl⟩ := h
  rw [Text.strip, String.toList_ofList, Text.Chars.strip,
    stripBy_append_eq hbefore hafter (fun c hc => hcore c (List.mem_of_mem_head? hc))
      (fun c hc => hcore c (List.mem_of_mem_getLast? hc)), String.ofList_toList]

theorem given?_of_isPadded {name core text : String} (hcore : ∀ c ∈ core.toList, isBlank c = false)
    (hne : core ≠ "") (henv : env name = some text) (h : IsPadded core text) :
    given? env name = some core := by
  have hstripped : stripped env name = core := by
    rw [stripped, henv, Option.getD_some, strip_of_isPadded hcore h]
  rw [given?_of_ne_empty (by rwa [hstripped]), hstripped]

theorem isBlank_of_mem_toString (n : Nat) : ∀ c ∈ (toString n).toList, isBlank c = false := by
  intro c hc
  rw [Nat.toString_eq_ofList_toDigits, String.toList_ofList] at hc
  exact Text.isBlank_of_ascii (Text.Digit.isDigit_of_mem_toDigits n c hc)

/-- The name of a level is in upper-case letters. -/
theorem isUpper_of_mem_name (l : LogLevel) : ∀ c ∈ l.name.toList, c.isUpper = true := by
  rw [← List.all_eq_true]
  cases l <;> rfl

section Texts

variable {l : LogLevel} {name : String} (hname : name.toList.map Char.toUpper = l.name.toList)

include hname

/-- A level's name in whatever letter case consists of letters of ASCII. -/
theorem toNat_of_mem_cased : ∀ c ∈ name.toList, 65 ≤ c.toNat ∧ c.toNat ≤ 122 := by
  intro c hc
  apply Text.toNat_of_isUpper_toUpper
  apply isUpper_of_mem_name l
  rw [← hname]
  exact List.mem_map_of_mem hc

theorem isBlank_of_mem_cased : ∀ c ∈ name.toList, isBlank c = false := by
  intro c hc
  have hrange := toNat_of_mem_cased hname c hc
  exact Text.isBlank_of_toNat (by omega)

theorem upper_of_cased : Text.upper name = l.name := by
  have hascii : ∀ c ∈ name.toList, c.toNat < 128 := fun c hc =>
    Nat.lt_of_le_of_lt (toNat_of_mem_cased hname c hc).2 (by decide)
  rw [Text.upper_of_ascii name hascii, hname, String.ofList_toList]

theorem ne_empty_of_cased : name ≠ "" := by
  rintro rfl
  cases l <;> exact absurd hname (by decide)

end Texts

theorem ofEnvironment_of_texts (c : Config) {dpi name level : String}
    (hfits : c.dpi < (Nat.pow 10 maxDigits : Nat))
    (hdpi : IsPadded (toString c.dpi) dpi) (hlevel : IsPadded name level)
    (hname : name.toList.map Char.toUpper = c.level.name.toList)
    (hdpiSet : env "SVGCSS_DPI" = some dpi) (hlevelSet : env "SVGCSS_LOG_LEVEL" = some level) :
    ofEnvironment env = .ok c := by
  obtain ⟨n, hn⟩ := Int.eq_ofNat_of_zero_le (Int.le_of_lt c.dpi_pos)
  have htext : toString c.dpi = toString n := by rw [hn]; rfl
  -- the greatest number of digits is the one after another number
  obtain ⟨k, hk⟩ : ∃ k, maxDigits = k + 1 := ⟨4299, rfl⟩
  have hread : Text.Integer.read? (toString n) = some c.dpi := by
    rw [hk, hn, Int.ofNat_lt] at hfits
    rw [hn]
    exact Text.Integer.read?_toString hfits (by omega)
  have hgiven : given? env "SVGCSS_DPI" = some (toString n) := by
    rw [htext] at hdpi
    refine given?_of_isPadded (isBlank_of_mem_toString n) ?_ hdpiSet hdpi
    -- the empty text is no literal
    intro hempty
    rw [hempty] at hread
    cases hread
  have hgivenLevel : given? env "SVGCSS_LOG_LEVEL" = some name :=
    given?_of_isPadded (isBlank_of_mem_cased hname) (ne_empty_of_cased hname) hlevelSet hlevel
  simp only [ofEnvironment, hgiven, hgivenLevel, hread]
  exact (check_eq_ok_iff _ _ _).2 ⟨rfl, (LogLevel.ofName?_eq_some_iff _ _).2 (upper_of_cased hname)⟩

/-- The environment is refused for its resolution or else for its level, or it gives the
configuration that it asks for. Every configuration whose resolution has no more digits than a
literal may have comes from any environment that holds its texts. -/
theorem ofEnvironment_outcomes (env : Environment) :
    ((∃ x, ofEnvironment env = .error x ∧ x.key = .dpi) ↔ RefusesDpi env) ∧
    ((∃ x, ofEnvironment env = .error x ∧ x.key = .logLevel) ↔
      ¬ RefusesDpi env ∧ RefusesLevel env) ∧
    (¬ RefusesDpi env → ¬ RefusesLevel env →
      ∃ c, ofEnvironment env = .ok c ∧ AsksForDpi env c.dpi ∧ AsksForLevel env c.level ∧
        0 < c.dpi ∧ Text.upper c.level.name = c.level.name) ∧
    (∀ (c : Config) (dpi name level : String), c.dpi < (Nat.pow 10 maxDigits : Nat) →
      IsPadded (toString c.dpi) dpi → IsPadded name level →
      name.toList.map Char.toUpper = c.level.name.toList →
      env "SVGCSS_DPI" = some dpi → env "SVGCSS_LOG_LEVEL" = some level →
      ofEnvironment env = .ok c) := by
  refine ⟨exists_dpi_error_iff, exists_level_error_iff, ?_, ?_⟩
  · intro hdpi hlevel
    obtain ⟨c, hc, hasked, hasked'⟩ := exists_ofEnvironment_eq_ok hdpi hlevel
    refine ⟨c, hc, hasked, hasked', c.dpi_pos, ?_⟩
    cases c.level <;> decide +kernel
  · intro c dpi name level hfits hdpi hlevel hname hdpiSet hlevelSet
    exact ofEnvironment_of_texts c hfits hdpi hlevel hname hdpiSet hlevelSet

/-- An environment with blanks around its resolution and its level in mixed case. -/
def paddedEnvironment : Environment
  | "SVGCSS_DPI" => some "\t96 "
  | "SVGCSS_LOG_LEVEL" => some "Info"
  | _ => none

theorem ofEnvironment_outcomes_padded :
    (default.withLevel .info).dpi < (Nat.pow 10 maxDigits : Nat) ∧
      IsPadded (toString (default.withLevel .info).dpi) "\t96 " ∧ IsPadded "Info" "Info" ∧
      ¬ RefusesDpi paddedEnvironment ∧ ¬ RefusesLevel paddedEnvironment ∧
      ofEnvironment paddedEnvironment = .ok (default.withLevel .info) ∧
      AsksForDpi paddedEnvironment 96 ∧ AsksForLevel paddedEnvironment .info := by
  obtain ⟨hrefusesDpi, hrefusesLevel, hasked, htexts⟩ := ofEnvironment_outcomes paddedEnvironment
  have hfits (m : Nat) (hm : 2 ≤ m) : 96 < Nat.pow 10 m :=
    Nat.lt_of_lt_of_le (by decide : 96 < Nat.pow 10 2) (Nat.pow_le_pow_right (by decide) hm)
  have hdpiFits : (default.withLevel .info).dpi < (Nat.pow 10 maxDigits : Nat) :=
    Int.ofNat_lt.2 (hfits maxDigits (by decide))
  have hdpi : IsPadded (toString (default.withLevel .info).dpi) "\t96 " :=
    ⟨['\t'], [' '], List.forall_mem_singleton.2 (by decide),
      List.forall_mem_singleton.2 (by decide), by decide +kernel⟩
  have hlevel : IsPadded "Info" "Info" := ⟨[], [], by simp, by simp, by decide +kernel⟩
  have hok : ofEnvironment paddedEnvironment = .ok (default.withLevel .info) :=
    htexts _ "\t96 " "Info" "Info" hdpiFits hdpi hlevel (by decide +kernel) rfl rfl
  have hnotDpi : ¬ RefusesDpi paddedEnvironment := by
    rw [← hrefusesDpi, hok]
    simp
  have hnotLevel : ¬ RefusesLevel paddedEnvironment := by
    intro h
    obtain ⟨x, hx, -⟩ := hrefusesLevel.2 ⟨hnotDpi, h⟩
    cases hok.symm.trans hx
  obtain ⟨c, hc, haskedDpi, haskedLevel, -⟩ := hasked hnotDpi hnotLevel
  cases hok.symm.trans hc
  exact ⟨hdpiFits, hdpi, hlevel, hnotDpi, hnotLevel, hok, haskedDpi, haskedLevel⟩

end Config

end VectorStyle
