import VectorStyle.Entity.Inspect
import VectorStyle.Text.Blank
import VectorStyle.Text.Integer
import VectorStyle.Text.Upper

/-!
# Configuration

A configuration holds the resolution for lengths, a positive number of dots per inch, and the level
of the log. It is made from given settings or read from two environment variables, where a variable
that is not set or blank leaves the default. The resolution is checked before the level.

Main statements: `check_eq_ok_iff` and `ofEnvironment_of_blank`.
-/

set_option autoImplicit false

namespace VectorStyle

/-! ## Log levels -/

/-- How much is logged. -/
inductive LogLevel where
  | debug
  | info
  | warning
  | error
  | critical
deriving DecidableEq, Repr

namespace LogLevel

/-- All levels, from the most talkative one on. -/
def all : List LogLevel := [debug, info, warning, error, critical]

/-- The name of a level. -/
def name : LogLevel → String
  | debug => "DEBUG"
  | info => "INFO"
  | warning => "WARNING"
  | error => "ERROR"
  | critical => "CRITICAL"

/-- The level of a name in any letter case. -/
def ofName? (s : String) : Option LogLevel :=
  let upper := Text.upper s
  all.find? (·.name == upper)

theorem ofName?_eq_some_iff (s : String) (l : LogLevel) :
    ofName? s = some l ↔ Text.upper s = l.name := by
  constructor
  · intro h
    exact (by simpa using List.find?_some h : l.name = Text.upper s).symm
  · intro h
    rw [ofName?, h]
    cases l <;> decide

end LogLevel

/-! ## Settings -/

/-- A value given for a setting, of whatever kind. -/
inductive Setting where
  | literal (l : Literal)
  | list (items : List Setting)
  | table (entries : List (String × Setting))

namespace Setting

mutual

/-- A setting in messages. -/
def shown : Setting → String
  | literal l => l.shown
  | list items => bracketed (shownItems items)
  | table entries => "\x7b" ++ ", ".intercalate (shownEntries entries) ++ "\x7d"

/-- The items of a list in messages. -/
def shownItems : List Setting → List String
  | [] => []
  | s :: ss => s.shown :: shownItems ss

/-- The entries of a table in messages. -/
def shownEntries : List (String × Setting) → List String
  | [] => []
  | (key, s) :: es => (Text.quoted key ++ ": " ++ s.shown) :: shownEntries es

end

/-- The integer that a setting is. -/
def asInt? : Setting → Option Int
  | literal (.int i) => some i
  | _ => none

/-- The setting that is an integer. -/
def ofInt (i : Int) : Setting := literal (.int i)

end Setting

/-- Why there is no configuration. -/
inductive ConfigError where
  | resolutionNotPositive (given : Setting)
  | resolutionNotANumber (given : String)
  | unknownLevel (given : String)

/-- The setting at fault. -/
inductive ConfigKey where
  | dpi
  | logLevel
deriving DecidableEq, Repr

/-- The name of a setting. -/
def ConfigKey.name : ConfigKey → String
  | dpi => "dpi"
  | logLevel => "log_level"

namespace ConfigError

/-- The setting that an error is about. -/
def key : ConfigError → ConfigKey
  | resolutionNotPositive _ | resolutionNotANumber _ => .dpi
  | unknownLevel _ => .logLevel

/-- The text of an error. -/
def message : ConfigError → String
  | resolutionNotPositive given => "DPI must be a positive integer, got " ++ given.shown
  | resolutionNotANumber given => "SVGCSS_DPI must be an integer, got " ++ Text.quoted given
  | unknownLevel given => "Unknown log level: " ++ Text.quoted given

end ConfigError

/-- A resolution and a log level. -/
structure Config where
  dpi : Int := 96
  level : LogLevel := .warning
  dpi_pos : 0 < dpi := by decide

/-- The values of environment variables, where they are set. -/
abbrev Environment : Type := String → Option String

namespace Config

/-- The configuration without any settings. -/
def default : Config := { }

/-- The configuration of a resolution and the name of a level. -/
def check (dpi : Setting) (level : String) : Except ConfigError Config :=
  match dpi.asInt? with
  | none => .error (.resolutionNotPositive dpi)
  | some n =>
    if h : 0 < n then
      match LogLevel.ofName? level with
      | none => .error (.unknownLevel level)
      | some l => .ok ⟨n, l, h⟩
    else .error (.resolutionNotPositive dpi)

/-- The configuration of the settings that are given, with defaults for the others. -/
def make (dpi : Option Setting) (level : Option String) : Except ConfigError Config :=
  check (dpi.getD (.ofInt default.dpi)) (level.getD default.level.name)

/-- The value of a variable without blanks around it, if anything is left. -/
def given? (env : Environment) (name : String) : Option String :=
  let value := Text.strip ((env name).getD "")
  if value = "" then none else some value

/-- The configuration that the environment asks for. -/
def ofEnvironment (env : Environment) : Except ConfigError Config :=
  let level := given? env "SVGCSS_LOG_LEVEL"
  match given? env "SVGCSS_DPI" with
  | none => make none level
  | some value =>
    match Text.Integer.read? value with
    | none => .error (.resolutionNotANumber value)
    | some n => make (some (.ofInt n)) level

/-- The configuration with another level. -/
def withLevel (c : Config) (level : LogLevel) : Config := { c with level }

theorem check_eq_ok_iff (dpi : Setting) (level : String) (c : Config) :
    check dpi level = .ok c ↔ dpi.asInt? = some c.dpi ∧ LogLevel.ofName? level = some c.level := by
  obtain ⟨n, l, hn⟩ := c
  unfold check
  constructor
  · intro h
    split at h
    · cases h
    · next m hm =>
      split at h
      · split at h
        · cases h
        · next k hk =>
          cases h
          exact ⟨hm, hk⟩
      · cases h
  · rintro ⟨h, hl⟩
    simp only at h hl
    simp only [h, hn, ↓reduceDIte, hl]

/-- Variables that are not set or blank leave the default. -/
theorem ofEnvironment_of_blank (env : Environment) (hd : given? env "SVGCSS_DPI" = none)
    (hl : given? env "SVGCSS_LOG_LEVEL" = none) : ofEnvironment env = .ok default := by
  rw [ofEnvironment, hd, hl]
  refine (check_eq_ok_iff _ _ _).2 ?_
  exact ⟨rfl, (LogLevel.ofName?_eq_some_iff _ _).2 (by decide +kernel)⟩

end Config

end VectorStyle
