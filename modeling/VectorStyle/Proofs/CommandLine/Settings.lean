import VectorStyle.Proofs.CommandLine.Calls
import VectorStyle.Proofs.CommandLine.Tasks
import VectorStyle.Proofs.Length.Reading

/-!
# Where the settings of a run come from

What the words of a call ask for comes before what the environment asks for, and that before the
default. The resolution in effect is the one that lengths are converted at, and the level in effect
is set whether or not the texts of the call are lengths.

Main statements: `ofEnvironment_eq_ok`, the settings that the environment asks for; and
`run_resolve_in_effect`, the whole run of `resolve`.
-/

set_option autoImplicit false

namespace VectorStyle.CommandLine

/-- The resolution in effect: the one asked for, or else that of the environment, or else 96. -/
def effectiveDpi (asked : Option Int) (env : Environment) : Int :=
  (asked <|> (Config.given? env "SVGCSS_DPI").bind Text.Integer.read?).getD 96

/-- The level in effect: the one asked for, or else that of the environment, or else `WARNING`. -/
def effectiveLevel (asked : Option LogLevel) (env : Environment) : LogLevel :=
  (asked <|> (Config.given? env "SVGCSS_LOG_LEVEL").bind LogLevel.ofName?).getD .warning

theorem effectiveDpi_some (n : Int) (env : Environment) : effectiveDpi (some n) env = n := rfl

theorem effectiveLevel_some (l : LogLevel) (env : Environment) : effectiveLevel (some l) env = l :=
  rfl

/-- The settings of an accepted environment are those in effect where nothing else is asked for. -/
theorem ofEnvironment_eq_ok {env : Environment} {config : Config}
    (h : Config.ofEnvironment env = .ok config) :
    config.dpi = effectiveDpi none env ∧ config.level = effectiveLevel none env := by
  have hlevel {dpi : Option Setting}
      (hmake : Config.make dpi (Config.given? env "SVGCSS_LOG_LEVEL") = .ok config) :
      config.level = effectiveLevel none env := by
    have hname := ((Config.check_eq_ok_iff _ _ _).1 hmake).2
    rw [effectiveLevel]
    cases hgiven : Config.given? env "SVGCSS_LOG_LEVEL" with
    | none =>
      have hdefault : LogLevel.ofName? Config.default.level.name = some .warning :=
        (LogLevel.ofName?_eq_some_iff _ _).2 (by decide +kernel)
      rw [hgiven, Option.getD_none, hdefault] at hname
      exact (Option.some.inj hname).symm
    | some name =>
      rw [hgiven, Option.getD_some] at hname
      simp [hname]
  -- the resolution is made from a variable or by default, and then the level is checked
  rw [Config.ofEnvironment] at h
  rw [effectiveDpi]
  cases hgiven : Config.given? env "SVGCSS_DPI" with
  | none =>
    simp only [hgiven] at h
    have hdpi := ((Config.check_eq_ok_iff _ _ _).1 h).1
    exact ⟨(Option.some.inj hdpi).symm, hlevel h⟩
  | some value =>
    simp only [hgiven] at h
    cases hread : Text.Integer.read? value with
    | none => simp [hread] at h
    | some n =>
      simp only [hread] at h
      have hdpi := ((Config.check_eq_ok_iff _ _ _).1 h).1
      refine ⟨?_, hlevel h⟩
      simpa [hread] using (Option.some.inj hdpi).symm

/-- What is asked for comes first. -/
theorem getD_dpi {env : Environment} {config : Config} (h : Config.ofEnvironment env = .ok config)
    (asked : Option Int) : asked.getD config.dpi = effectiveDpi asked env := by
  cases asked with
  | none => exact (ofEnvironment_eq_ok h).1
  | some n => exact (effectiveDpi_some n env).symm

theorem getD_level {env : Environment} {config : Config}
    (h : Config.ofEnvironment env = .ok config) (asked : Option LogLevel) :
    asked.getD config.level = effectiveLevel asked env := by
  cases asked with
  | none => exact (ofEnvironment_eq_ok h).2
  | some l => exact (effectiveLevel_some l env).symm

/-! ## The run of `resolve` -/

/-- The line for a text: the length that it denotes, and this in user units. -/
def IsLine (dpi : Int) (t line : String) : Prop :=
  ∃ l r, Length.read t = .ok l ∧ l.toUserUnits dpi = .ok r ∧
    line = l.text ++ " -> " ++ r.text ++ "\n"

theorem isLine_of_conversionLine {dpi : Int} {t line : String} {l : Length}
    (hread : Length.read t = .ok l) (hline : conversionLine dpi l = .ok line) :
    IsLine dpi t line := by
  obtain ⟨r, hr, rfl⟩ := map_eq_ok_iff.1 hline
  exact ⟨l, r, hread, hr, rfl⟩

/-- A text has one line. -/
theorem IsLine.unique {dpi : Int} {t line line' : String} (h : IsLine dpi t line)
    (h' : IsLine dpi t line') : line = line' := by
  obtain ⟨l, r, hl, hr, rfl⟩ := h
  obtain ⟨l', r', hl', hr', rfl⟩ := h'
  obtain rfl := Except.ok.inj (hl.symm.trans hl')
  obtain rfl := Except.ok.inj (hr.symm.trans hr')
  rfl

theorem forall₂_isLine {dpi : Int} {texts printed : List String} {lengths : List Length}
    (hread : List.Forall₂ (fun t l => Length.read t = .ok l) texts lengths)
    (hlines : List.Forall₂ (fun l line => conversionLine dpi l = .ok line) lengths printed) :
    List.Forall₂ (IsLine dpi) texts printed := by
  induction hread generalizing printed with
  | nil =>
    cases hlines
    exact .nil
  | cons ht _ ih =>
    cases hlines with
    | cons hline hlines => exact .cons (isLine_of_conversionLine ht hline) (ih hlines)

/-- Either all texts are lengths, or one is not. -/
theorem exists_lengths_or (texts : List String) :
    (∃ lengths, List.Forall₂ (fun t l => Length.read t = .ok l) texts lengths) ∨
      ∃ t ∈ texts, ∃ e, Length.read t = .error e := by
  by_cases h : ∃ t ∈ texts, ∃ e, Length.read t = .error e
  · exact .inr h
  · left
    apply exists_forall₂_ok
    intro t ht
    cases hread : Length.read t with
    | ok l => exact ⟨l, rfl⟩
    | error e => exact absurd ⟨t, ht, e, hread⟩ h

section Run

variable {before words texts : List String} {level : Option LogLevel} {dpi : Option Int}
variable (hbefore : LevelWords before level) (hwords : ResolveWords words dpi texts)
variable {env : Environment} {config : Config} (hconfig : Config.ofEnvironment env = .ok config)

include hbefore hwords hconfig

/-- The task of a call whose texts are lengths, with the settings in effect. -/
theorem run_of_lengths (hne : texts ≠ []) {lengths : List Length}
    (hread : List.Forall₂ (fun t l => Length.read t = .ok l) texts lengths) :
    run (before ++ "resolve" :: words) env =
      (Task.convert (effectiveDpi dpi env) lengths).outcome (effectiveLevel level env) := by
  have hrun := run_resolveWords hconfig hbefore hwords hne hread
  rw [getD_dpi hconfig, getD_level hconfig, Command.name] at hrun
  exact hrun

/-- A text that is no length leaves only the level. -/
theorem run_refused (hbad : ∃ t ∈ texts, ∃ e, Length.read t = .error e) :
    ∃ stderr, run (before ++ "resolve" :: words) env =
      ⟨2, "", stderr, some (effectiveLevel level env), none⟩ := by
  obtain ⟨e, hrun⟩ := run_resolveWords_refused hconfig hbefore hwords hbad
  rw [getD_level hconfig, Command.name, Stop.outcome] at hrun
  exact ⟨_, hrun⟩

theorem level_run_resolve (hne : texts ≠ []) :
    (run (before ++ "resolve" :: words) env).level = some (effectiveLevel level env) := by
  rcases exists_lengths_or texts with ⟨lengths, hread⟩ | hbad
  · rw [run_of_lengths hbefore hwords hconfig hne hread, Task.level_outcome]
  · obtain ⟨stderr, hrun⟩ := run_refused hbefore hwords hconfig hbad
    rw [hrun]

/-- Below the range of the format every text has its line. -/
theorem run_of_lt_wholeOverflow (hne : texts ≠ [])
    (hdpi : effectiveDpi dpi env < (Binary64.wholeOverflow : Int))
    (hread : ∀ t ∈ texts, ∃ l, Length.read t = .ok l) :
    ∃ lines, List.Forall₂ (IsLine (effectiveDpi dpi env)) texts lines ∧
      run (before ++ "resolve" :: words) env =
        ⟨0, String.join lines, "", some (effectiveLevel level env), none⟩ := by
  obtain ⟨lengths, hread⟩ := exists_forall₂_ok hread
  have hpos : 0 < effectiveDpi dpi env := by
    rw [← getD_dpi hconfig]
    cases dpi with
    | none => exact config.dpi_pos
    | some n => exact hwords.dpi_pos n rfl
  have hfits : ¬ (Task.convert (effectiveDpi dpi env) lengths).Overflows := by
    rintro ⟨hlarge, -⟩
    have hlarge' : (Binary64.wholeOverflow : Int) ≤ (effectiveDpi dpi env).natAbs :=
      Int.ofNat_le.2 hlarge
    rw [Int.natAbs_of_nonneg (Int.le_of_lt hpos)] at hlarge'
    exact absurd hdpi (Int.not_lt.2 hlarge')
  obtain ⟨lines, hlines, houtcome⟩ := Task.exists_outcome hfits (effectiveLevel level env)
  exact ⟨lines, forall₂_isLine hread hlines,
    (run_of_lengths hbefore hwords hconfig hne hread).trans houtcome⟩

/-- Of the settings only the resolution in effect counts for what is printed. -/
theorem stdout_run_resolve {env' : Environment} {config' : Config}
    (hconfig' : Config.ofEnvironment env' = .ok config')
    (hdpi : effectiveDpi dpi env' = effectiveDpi dpi env) (hne : texts ≠ []) :
    (run (before ++ "resolve" :: words) env').stdout =
      (run (before ++ "resolve" :: words) env).stdout := by
  rcases exists_lengths_or texts with ⟨lengths, hread⟩ | hbad
  · rw [run_of_lengths hbefore hwords hconfig hne hread,
      run_of_lengths hbefore hwords hconfig' hne hread, hdpi]
    apply Task.stdout_outcome
  · obtain ⟨stderr, hrun⟩ := run_refused hbefore hwords hconfig hbad
    obtain ⟨stderr', hrun'⟩ := run_refused hbefore hwords hconfig' hbad
    rw [hrun, hrun']

end Run

/-- What `resolve` prints and which level it sets, in an environment that is accepted. -/
theorem run_resolve_in_effect {before words texts : List String} {level : Option LogLevel}
    {dpi : Option Int} {env : Environment} {config : Config}
    (hconfig : Config.ofEnvironment env = .ok config) (hbefore : LevelWords before level)
    (hwords : ResolveWords words dpi texts) (hne : texts ≠ []) :
    (run (before ++ "resolve" :: words) env).level = some (effectiveLevel level env) ∧
      (effectiveDpi dpi env < (Binary64.wholeOverflow : Int) →
        (∀ t ∈ texts, ∃ l, Length.read t = .ok l) →
        ∃ lines, List.Forall₂ (IsLine (effectiveDpi dpi env)) texts lines ∧
          run (before ++ "resolve" :: words) env =
            ⟨0, String.join lines, "", some (effectiveLevel level env), none⟩) ∧
      ((∃ t ∈ texts, ∃ e, Length.read t = .error e) →
        ∃ stderr, run (before ++ "resolve" :: words) env =
          ⟨2, "", stderr, some (effectiveLevel level env), none⟩) ∧
      ∀ env' config', Config.ofEnvironment env' = .ok config' →
        (dpi.isSome → (run (before ++ "resolve" :: words) env').stdout =
          (run (before ++ "resolve" :: words) env).stdout) ∧
        (level.isSome → (run (before ++ "resolve" :: words) env').level =
          (run (before ++ "resolve" :: words) env).level) := by
  refine ⟨level_run_resolve hbefore hwords hconfig hne,
    run_of_lt_wholeOverflow hbefore hwords hconfig hne, run_refused hbefore hwords hconfig, ?_⟩
  intro env' config' hconfig'
  constructor
  · intro hsome
    obtain ⟨n, rfl⟩ := Option.isSome_iff_exists.1 hsome
    apply stdout_run_resolve hbefore hwords hconfig hconfig' _ hne
    rw [effectiveDpi_some, effectiveDpi_some]
  · intro hsome
    obtain ⟨l, rfl⟩ := Option.isSome_iff_exists.1 hsome
    rw [level_run_resolve hbefore hwords hconfig hne,
      level_run_resolve hbefore hwords hconfig' hne, effectiveLevel_some, effectiveLevel_some]

/-! ## A run where the option counts -/

/-- An environment with a resolution and without a level. -/
def fineVariables : Environment := fun name => if name = "SVGCSS_DPI" then some "300" else none

theorem ofEnvironment_fineVariables :
    Config.ofEnvironment fineVariables = .ok { dpi := 300 } := by
  have hdpi : Config.given? fineVariables "SVGCSS_DPI" = some "300" := by decide
  have hlevel : Config.given? fineVariables "SVGCSS_LOG_LEVEL" = none := by decide
  have hread : Text.Integer.read? "300" = some 300 := by decide
  have hdefault : LogLevel.ofName? Config.default.level.name = some .warning :=
    (LogLevel.ofName?_eq_some_iff _ _).2 (by decide +kernel)
  rw [Config.ofEnvironment, hdpi, hlevel]
  simp only [hread]
  exact (Config.check_eq_ok_iff _ _ _).2 ⟨rfl, hdefault⟩

theorem isLine_inch : IsLine 72 "1in" "1in -> 72\n" := by
  have hone : 1 ≤ Nat.pow 2 53 := by decide
  have hread : Length.read "1in" = .ok (Length.ofRead (Binary64.ofInt 1) .inch) :=
    Length.read_whole hone .inch
  apply isLine_of_conversionLine hread
  apply eq_ok_of_toOption_eq_some
  decide +kernel

theorem isLine_minus_em : IsLine 72 "-1em" "-1em -> -1em\n" := by
  have hdigit : ∀ c ∈ ['1'], c.isDigit = true := List.forall_mem_singleton.2 (by decide)
  have hread := Length.read_pointed true (List.cons_ne_nil _ _) hdigit (List.forall_mem_nil _) .em
  apply isLine_of_conversionLine hread
  apply eq_ok_of_toOption_eq_some
  decide +kernel

/-- A run at 72 dots per inch where the environment has 300. -/
theorem run_resolve_in_effect_option :
    Config.ofEnvironment fineVariables = .ok { dpi := 300 } ∧
      LevelWords ["--log-level", "info"] (some .info) ∧
      ResolveWords ["--dpi=72", "1in", "--", "-1em"] (some 72) ["1in", "-1em"] ∧
      run ["--log-level", "info", "resolve", "--dpi=72", "1in", "--", "-1em"] fineVariables =
        ⟨0, "1in -> 72\n-1em -> -1em\n", "", some .info, none⟩ := by
  have hupper : "info".toUpper = LogLevel.info.name := by
    rw [← String.toList_inj, String.toUpper, String.toList_map]
    decide
  have hlevel : LevelWords ["--log-level", "info"] (some .info) := .level .apart hupper
  have hdpi : OptionWords "--dpi" "72" ["--dpi=72"] := .attached
  have hwords : ResolveWords ["--dpi=72", "1in", "--", "-1em"] (some 72) ["1in", "-1em"] :=
    .dpi hdpi (by decide) (by decide) (.text (by decide) (.dashes _))
  have hread : ∀ t ∈ ["1in", "-1em"], ∃ l, Length.read t = .ok l := by
    obtain ⟨l, -, hinch, -⟩ := isLine_inch
    obtain ⟨m, -, hem, -⟩ := isLine_minus_em
    exact List.forall_mem_cons.2 ⟨⟨l, hinch⟩, List.forall_mem_singleton.2 ⟨m, hem⟩⟩
  obtain ⟨-, hlines, -, -⟩ :=
    run_resolve_in_effect ofEnvironment_fineVariables hlevel hwords (List.cons_ne_nil _ _)
  obtain ⟨lines, hlines, hrun⟩ := hlines (by decide +kernel) hread
  obtain rfl : lines = ["1in -> 72\n", "-1em -> -1em\n"] := by
    cases hlines with
    | cons hinch hrest =>
      cases hrest with
      | cons hem hnil =>
        cases hnil
        rw [hinch.unique isLine_inch, hem.unique isLine_minus_em]
  exact ⟨ofEnvironment_fineVariables, hlevel, hwords, hrun⟩

end VectorStyle.CommandLine
