import VectorStyle.CommandLine.Run
import VectorStyle.Proofs.Results
import VectorStyle.Proofs.Text.Runs

/-!
# From the words to the task

The words of a call of `resolve` are an option for the log level, the name of the command, and then
the texts of lengths in any order with an option for the resolution. `LevelWords` and `ResolveWords`
are the ways to write such a call, together with what is said by them. Everything after `--` is a
text.

Main statements: `scan_optionWords`, an option is found however it is written; `readCall_levelWords`
and `scan_resolveWords`, the words are read as what they say; and `run_resolveWords` and
`run_resolveWords_refused`, the run where all texts are lengths and where one is not.
-/

set_option autoImplicit false

namespace VectorStyle.CommandLine

/-! ## Ways to write a call -/

/-- An option with its value: as two words, or as one with an equals sign. -/
inductive OptionWords (name value : String) : List String → Prop
  | apart : OptionWords name value [name, value]
  | attached : OptionWords name value [name ++ "=" ++ value]

/-- The words before the name of a command, and the level that they ask for. -/
inductive LevelWords : List String → Option LogLevel → Prop
  | nothing : LevelWords [] none
  | level {value : String} {words : List String} {l : LogLevel}
      (hwords : OptionWords "--log-level" value words) (hvalue : value.toUpper = l.name) :
      LevelWords words (some l)

/-- The words after `resolve`, the resolution that they ask for, and the texts among them. -/
inductive ResolveWords : List String → Option Int → List String → Prop
  | nothing : ResolveWords [] none []
  | dashes (texts : List String) : ResolveWords ("--" :: texts) none texts
  | text {word : String} {words texts : List String} {dpi : Option Int}
      (hword : isOption word = false) (h : ResolveWords words dpi texts) :
      ResolveWords (word :: words) dpi (word :: texts)
  | dpi {value : String} {before words texts : List String} {n : Int}
      (hbefore : OptionWords "--dpi" value before) (hvalue : Text.Integer.read? value = some n)
      (hn : 1 ≤ n) (h : ResolveWords words none texts) :
      ResolveWords (before ++ words) (some n) texts

/-- Words that are no options are texts. -/
theorem ResolveWords.of_texts {texts : List String} (h : ∀ t ∈ texts, isOption t = false) :
    ResolveWords texts none texts := by
  induction texts with
  | nil => exact .nothing
  | cons t texts ih =>
    rw [List.forall_mem_cons] at h
    exact .text h.1 (ih h.2)

/-- The resolution that is asked for is positive. -/
theorem ResolveWords.dpi_pos {words texts : List String} {dpi : Option Int}
    (h : ResolveWords words dpi texts) : ∀ n ∈ dpi, 0 < n := by
  induction h with
  | nothing => simp
  | dashes texts => simp
  | text _ _ ih => exact ih
  | dpi _ _ hn _ _ =>
    intro m hm
    obtain rfl := Option.some.inj hm
    exact hn

/-! ## Options -/

/-- A name that can be given with a value attached: two dashes and more, without an equals sign. -/
structure IsLongName (name : String) : Prop where
  isOption : isOption name = true
  ne_dashes : name ≠ "--"
  not_mem : '=' ∉ name.toList

theorem IsLongName.ne_equals {name : String} (h : IsLongName name) :
    ∀ c ∈ name.toList, (c != '=') = true := by
  intro c hc
  have hne : c ≠ '=' := by
    rintro rfl
    exact h.not_mem hc
  simpa using hne

theorem splitOption_name {name : String} (h : IsLongName name) :
    splitOption name = (name, none) := by
  have hrest : ∀ c ∈ ([] : List Char).head?, (c != '=') = false := by simp
  have htake := takeWhile_append_eq h.ne_equals hrest
  have hdrop := dropWhile_append_eq h.ne_equals hrest
  rw [List.append_nil] at htake hdrop
  rw [splitOption]
  simp only [htake, hdrop, String.ofList_toList]

theorem splitOption_attached {name : String} (h : IsLongName name) (value : String) :
    splitOption (name ++ "=" ++ value) = (name, some value) := by
  have hchars : (name ++ "=" ++ value).toList = name.toList ++ '=' :: value.toList := by simp
  have hrest : ∀ c ∈ ('=' :: value.toList).head?, (c != '=') = false := by simp
  rw [splitOption, hchars]
  simp only [takeWhile_append_eq h.ne_equals hrest, dropWhile_append_eq h.ne_equals hrest,
    String.ofList_toList]

theorem isOption_attached {name : String} (h : IsLongName name) (value : String) :
    isOption (name ++ "=" ++ value) = true ∧ name ++ "=" ++ value ≠ "--" := by
  have hchars : (name ++ "=" ++ value).toList = name.toList ++ '=' :: value.toList := by simp
  constructor
  · have hname := h.isOption
    rw [isOption, hchars]
    rw [isOption] at hname
    split at hname
    case h_1 heq =>
      rw [heq]
      rfl
    case h_2 => cases hname
  · intro heq
    have hmem : '=' ∈ (name ++ "=" ++ value).toList := by simp
    rw [heq] at hmem
    exact absurd hmem (by decide)

/-- An option is found however it is written. -/
theorem scan_optionWords {specs : List OptionSpec} {name value : String} {before : List String}
    (hspec : specs.find? (·.name == name) = some ⟨name, true⟩) (hname : IsLongName name)
    (h : OptionWords name value before) (mixed : Bool) (words : List String) :
    scan specs mixed (before ++ words) =
      (scan specs mixed words).map (Given.addOption name value) := by
  cases h with
  | apart =>
    rw [List.cons_append, scan, if_neg hname.ne_dashes, if_pos hname.isOption,
      splitOption_name hname]
    simp only [hspec]
    rfl
  | attached =>
    obtain ⟨hoption, hne⟩ := isOption_attached hname value
    rw [List.cons_append, scan, if_neg hne, if_pos hoption, splitOption_attached hname]
    simp only [hspec]
    rfl

/-- A word that is no option is an argument, and the options may go on after it. -/
theorem scan_argument {specs : List OptionSpec} {word : String} (hword : isOption word = false)
    (words : List String) :
    scan specs true (word :: words) = (scan specs true words).map (Given.addArgument word) := by
  have hne : word ≠ "--" := by
    rintro rfl
    exact absurd hword (by decide)
  rw [scan, if_neg hne, if_neg (by simp [hword]), if_pos rfl]

/-! ## The call -/

theorem readLevel_eq {value : String} {l : LogLevel} (h : value.toUpper = l.name) :
    readLevel value = .ok l := by
  have hfind : LogLevel.all.find? (fun m => m.name == value.toUpper) = some l := by
    rw [h]
    cases l <;> decide
  rw [readLevel, hfind]

/-- The words before the name of a command ask for a level, or for nothing. -/
theorem readOverview_levelWords {before : List String} {level : Option LogLevel}
    (h : LevelWords before level) (c : Command) (words : List String) :
    readOverview (before ++ c.name :: words) = .ok (level, c.name :: words) := by
  have hname : scan Page.overview.options false (c.name :: words) =
      .ok { arguments := c.name :: words } := by
    cases c <;> rfl
  cases h with
  | nothing =>
    rw [List.nil_append, readOverview, given, hname]
    rfl
  | @level value _ l hwords hvalue =>
    have hlong : IsLongName "--log-level" := ⟨by decide, by decide, by decide⟩
    have hgiven : given .overview false (before ++ c.name :: words) =
        .ok { options := [("--log-level", value)], arguments := c.name :: words } := by
      rw [given, scan_optionWords rfl hlong hwords, hname]
      rfl
    have hlevel : (some value).mapM readLevel = .ok (some l) := by
      rw [Option.mapM_some, readLevel_eq hvalue]
      rfl
    rw [readOverview, hgiven, ok_bind]
    exact congrArg (· >>= _) hlevel

theorem readCall_levelWords {before : List String} {level : Option LogLevel}
    (h : LevelWords before level) (c : Command) (words : List String) :
    readCall (before ++ c.name :: words) = .ok ⟨c, words, level⟩ := by
  have hempty : (before ++ c.name :: words).isEmpty = false := by simp
  simp only [readCall, hempty, readOverview_levelWords h, ok_bind, Command.ofName?_name]
  rfl

/-- A call is configured by the environment, and by itself where it asks for a level. -/
theorem exists_run_eq_finish {before : List String} {level : Option LogLevel} {env : Environment}
    {config : Config} (hconfig : Config.ofEnvironment env = .ok config)
    (hbefore : LevelWords before level) (c : Command) (words : List String) :
    ∃ config' : Config, config'.dpi = config.dpi ∧ config'.level = level.getD config.level ∧
      run (before ++ c.name :: words) env = finish config' ⟨c, words, level⟩ := by
  have hrun {config' : Config} (h : configure env ⟨c, words, level⟩ = .ok config') :
      run (before ++ c.name :: words) env = finish config' ⟨c, words, level⟩ := by
    simp only [run, readCall_levelWords hbefore, h, ok_bind]
    rfl
  cases level with
  | none => exact ⟨config, rfl, rfl, hrun (by rw [configure, hconfig])⟩
  | some l => exact ⟨config.withLevel l, rfl, rfl, hrun (by rw [configure, hconfig])⟩

/-! ## The task -/

/-- The options of a call of `resolve` that ask for a resolution, or for nothing. -/
inductive DpiOptions : List (String × String) → Option Int → Prop
  | nothing : DpiOptions [] none
  | dpi {value : String} {n : Int} (hvalue : Text.Integer.read? value = some n) (hn : 1 ≤ n) :
      DpiOptions [("--dpi", value)] (some n)

theorem scan_resolveWords {words texts : List String} {dpi : Option Int}
    (h : ResolveWords words dpi texts) :
    ∃ options, scan (Page.command .resolve).options true words =
      .ok { options := options, arguments := texts } ∧ DpiOptions options dpi := by
  have hlong : IsLongName "--dpi" := ⟨by decide, by decide, by decide⟩
  induction h with
  | nothing => exact ⟨[], rfl, .nothing⟩
  | dashes texts => exact ⟨[], scan_after_dashes _ true texts, .nothing⟩
  | text hword _ ih =>
    obtain ⟨options, hscan, hoptions⟩ := ih
    refine ⟨options, ?_, hoptions⟩
    rw [scan_argument hword, hscan]
    rfl
  | @dpi value _ _ _ _ hbefore hvalue hn _ ih =>
    obtain ⟨options, hscan, hoptions⟩ := ih
    -- no other option for the resolution follows
    cases hoptions
    refine ⟨[("--dpi", value)], ?_, .dpi hvalue hn⟩
    rw [scan_optionWords rfl hlong hbefore, hscan]
    rfl

/-- The resolution that the options ask for, or else the configured one. -/
theorem dpiOf_dpiOptions {options : List (String × String)} {dpi : Option Int}
    (h : DpiOptions options dpi) (config : Config) (texts : List String) :
    dpiOf .resolve config { options := options, arguments := texts } =
      .ok (dpi.getD config.dpi) := by
  cases h with
  | nothing => rfl
  | @dpi value n hvalue hn =>
    have hread : readDpi value = .ok n := by
      rw [readDpi, hvalue]
      exact if_pos hn
    have hlast : Given.value? { options := [("--dpi", value)], arguments := texts } "--dpi" =
        some value := rfl
    rw [dpiOf, hlast]
    simp only [hread]
    rfl

/-- The task of a call of `resolve` is to convert its texts. -/
theorem readTask_resolveWords {words texts : List String} {dpi : Option Int}
    (h : ResolveWords words dpi texts) (hne : texts ≠ []) (config : Config)
    (level : Option LogLevel) :
    readTask config ⟨.resolve, words, level⟩ =
      (texts.mapM readLength).map (Task.convert (dpi.getD config.dpi)) := by
  obtain ⟨options, hscan, hoptions⟩ := scan_resolveWords h
  have hgiven : given (.command .resolve) true words =
      .ok { options := options, arguments := texts } := by
    rw [given, hscan]
    cases hoptions <;> rfl
  have hempty : texts.isEmpty = false := List.isEmpty_eq_false_iff.2 hne
  simp only [readTask, hgiven, ok_bind, dpiOf_dpiOptions hoptions, hempty, Bool.false_eq_true,
    if_false]
  rfl

/-- Texts that are lengths are read. -/
theorem mapM_readLength {texts : List String} {lengths : List Length}
    (h : List.Forall₂ (fun t l => Length.read t = .ok l) texts lengths) :
    texts.mapM readLength = .ok lengths := by
  refine mapM_eq_ok_iff.2 (h.imp ?_)
  intro t l hread
  rw [readLength, hread]
  rfl

/-! ## The run -/

/-- A call of `resolve` whose texts are lengths converts these. -/
theorem run_resolveWords {before words texts : List String} {level : Option LogLevel}
    {dpi : Option Int} {lengths : List Length} {env : Environment} {config : Config}
    (hconfig : Config.ofEnvironment env = .ok config) (hbefore : LevelWords before level)
    (hwords : ResolveWords words dpi texts) (hne : texts ≠ [])
    (hread : List.Forall₂ (fun t l => Length.read t = .ok l) texts lengths) :
    run (before ++ Command.resolve.name :: words) env =
      (Task.convert (dpi.getD config.dpi) lengths).outcome (level.getD config.level) := by
  obtain ⟨config', hdpi, hlevel, hrun⟩ := exists_run_eq_finish hconfig hbefore .resolve words
  have htask : readTask config' ⟨.resolve, words, level⟩ =
      .ok (.convert (dpi.getD config.dpi) lengths) := by
    rw [readTask_resolveWords hwords hne, mapM_readLength hread, hdpi]
    rfl
  simp only [hrun, finish, htask, hlevel]

/-- A call of `resolve` with a text that is no length is refused. -/
theorem run_resolveWords_refused {before words texts : List String} {level : Option LogLevel}
    {dpi : Option Int} {env : Environment} {config : Config}
    (hconfig : Config.ofEnvironment env = .ok config) (hbefore : LevelWords before level)
    (hwords : ResolveWords words dpi texts) (hbad : ∃ t ∈ texts, ∃ e, Length.read t = .error e) :
    ∃ e, run (before ++ Command.resolve.name :: words) env =
      (Stop.refused (.command .resolve) e).outcome (some (level.getD config.level)) := by
  obtain ⟨config', -, hlevel, hrun⟩ := exists_run_eq_finish hconfig hbefore .resolve words
  obtain ⟨t, ht, e, hread⟩ := hbad
  have hlength : readLength t =
      .error (.refused (.command .resolve) (.value "LENGTHS..." (.length e))) := by
    rw [readLength, hread]
    rfl
  -- the first such text need not be this one
  obtain ⟨u, -, stop, hstop, hfirst⟩ := exists_mapM_eq_error ht hlength
  obtain ⟨e', -, rfl⟩ := mapError_eq_error_iff.1 hstop
  have htask : readTask config' ⟨.resolve, words, level⟩ =
      .error (.refused (.command .resolve) (.value "LENGTHS..." (.length e'))) := by
    rw [readTask_resolveWords hwords (List.ne_nil_of_mem ht), hfirst]
    rfl
  refine ⟨.value "LENGTHS..." (.length e'), ?_⟩
  simp only [hrun, finish, htask, hlevel]

end VectorStyle.CommandLine
