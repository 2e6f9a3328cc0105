import VectorStyle.CommandLine.UsageError
import VectorStyle.Length.Conversion
import VectorStyle.Length.Printer

/-!
# Running the program

A run reads the options of the program, finds the command, takes the configuration from the
environment, and only then reads what the command is given. It ends early with a page of help, with
the version, or with a refusal. `run` is the whole program as a function of its words and its
environment.

The command `resolve` converts lengths one after the other and the command `units` lists the units.
Both print until a conversion fails.

The order of these steps and the exit codes of a run that ends early follow the documented behaviour
of `click`, version 8.5. A call without words shows the overview and ends with 2, as it does since
version 8.2; with earlier versions the same page ends with 0.

Main statements: `printUntilFailure_eq`, what is printed are the lines before the first failure, and
`exit_of_stop`, a run that ends early ends with 0 or 2.
-/

set_option autoImplicit false

namespace VectorStyle.CommandLine

/-- What a run leaves behind: its exit code, what it has printed, the log level if it got as far as
setting it, and the failure that has ended it, if any. -/
structure Outcome where
  exit : Nat
  stdout : String := ""
  stderr : String := ""
  level : Option LogLevel := none
  failure : Option Length.ConversionError := none

/-- How a run ends early. -/
inductive Stop where
  | help (p : Page)
  | version
  | nothingAsked
  | refused (p : Page) (e : UsageError)

/-- What the user sees of a run that ends early. -/
def Stop.outcome (level : Option LogLevel) : Stop → Outcome
  | help p => ⟨0, p.text, "", level, none⟩
  | version => ⟨0, "svgcss, version 0.1.0\n", "", level, none⟩
  | nothingAsked => ⟨2, "", Page.overview.text, level, none⟩
  | refused p e => ⟨2, "", e.report p, level, none⟩

/-- A run that ends early ends with 0 or 2, prints no result with 2, and does not fail. -/
theorem exit_of_stop (level : Option LogLevel) (s : Stop) :
    ((s.outcome level).exit = 0 ∨ (s.outcome level).exit = 2 ∧ (s.outcome level).stdout = "") ∧
      (s.outcome level).failure = none := by
  cases s <;> simp [Stop.outcome]

/-! ## Reading the words -/

/-- The words given at a page. A page or the version that is asked for comes before anything that is
wrong with the values; the first such option counts. -/
def given (p : Page) (mixed : Bool) (words : List String) : Except Stop Given :=
  match scan p.options mixed words with
  | .error e => .error (.refused p (.option e))
  | .ok g =>
    match g.options.find? fun o => o.1 == "--help" || o.1 == "--version" with
    | some o => .error (if o.1 = "--help" then .help p else .version)
    | none => .ok g

/-- The level that an option names, in any letter case of the ASCII letters. -/
def readLevel (value : String) : Except Stop LogLevel :=
  match LogLevel.all.find? fun l => l.name == value.toUpper with
  | some l => .ok l
  | none => .error (.refused .overview (.value "--log-level" (.unknownLevel value)))

/-- The words of a call after the options of the program, and the level that these ask for. -/
def readOverview (words : List String) : Except Stop (Option LogLevel × List String) := do
  let g ← given .overview false words
  return (← (g.value? "--log-level").mapM readLevel, g.arguments)

/-- A call: a command, the words after it, and the level that was asked for. -/
structure Call where
  command : Command
  words : List String
  level : Option LogLevel
deriving DecidableEq, Repr

/-- The call that the words of the program make. A word that is no command but has the form of an
option is read as an option once more. -/
def readCall (words : List String) : Except Stop Call :=
  if words.isEmpty then .error .nothingAsked
  else do
    let (level, rest) ← readOverview words
    match rest with
    | [] => throw (.refused .overview .commandMissing)
    | word :: more =>
      match Command.ofName? word with
      | some c => return ⟨c, more, level⟩
      | none =>
        if isOption word then
          let _ ← readOverview rest
        throw (.refused .overview (.unknownCommand word))

/-- The configuration of a call. -/
def configure (env : Environment) (c : Call) : Except Stop Config :=
  match Config.ofEnvironment env with
  | .error e => .error (.refused .overview (.configuration e))
  | .ok config => .ok (match c.level with
    | some l => config.withLevel l
    | none => config)

/-- The resolution that a text denotes, a whole number from one on. -/
def readDpi (value : String) : Except ValueError Int :=
  match Text.Integer.read? value with
  | none => .error (.notAResolution value)
  | some n => if 1 ≤ n then .ok n else .error (.resolutionOutOfRange n)

/-- The resolution given by option, or else the configured one. -/
def dpiOf (c : Command) (config : Config) (g : Given) : Except Stop Int :=
  match g.value? "--dpi" with
  | none => .ok config.dpi
  | some value => (readDpi value).mapError fun e => .refused (.command c) (.value "--dpi" e)

/-- The length that an argument denotes. -/
def readLength (word : String) : Except Stop Length :=
  (Length.read word).mapError fun e =>
    .refused (.command .resolve) (.value "LENGTHS..." (.length e))

/-! ## The work of the commands -/

/-- What is to be done: lengths to convert, or the units to list, at a resolution. -/
inductive Task where
  | convert (dpi : Int) (lengths : List Length)
  | listUnits (dpi : Int)

/-- The task of a call. -/
def readTask (config : Config) (c : Call) : Except Stop Task := do
  let g ← given (.command c.command) true c.words
  let dpi ← dpiOf c.command config g
  match c.command with
  | .resolve =>
    if g.arguments.isEmpty then throw (.refused (.command .resolve) .lengthsMissing)
    return .convert dpi (← g.arguments.mapM readLength)
  | .units =>
    unless g.arguments.isEmpty do
      throw (.refused (.command .units) (.extraArguments g.arguments))
    return .listUnits dpi

/-- The line for a length: as it is written, and in user units. -/
def conversionLine (dpi : Int) (l : Length) : Except Length.ConversionError String :=
  (l.toUserUnits dpi).map fun r => l.text ++ " -> " ++ r.text ++ "\n"

/-- What a unit is. -/
def describe : LengthUnit → String
  | .user => "user unit"
  | .pixel => "pixel (one user unit)"
  | .em => "font size relative"
  | .percent => "viewport relative"
  | .pica => "pica, 1/6 inch"
  | .millimeter => "millimeter"
  | .centimeter => "centimeter"
  | .point => "point, 1/72 inch"
  | .inch => "inch"

/-- A text with spaces after it up to a width. -/
def padTo (width : Nat) (s : String) : String :=
  s ++ String.ofList (List.replicate (width - s.toList.length) ' ')

/-- The size of one of a unit in user units. -/
def unitSize (dpi : Int) (u : LengthUnit) : Except Length.ConversionError String :=
  if u.isRelative then .ok "caller resolved"
  else (Length.toUserUnits dpi ⟨Binary64.ofInt 1, u⟩).map Length.text

/-- The line for a unit: suffix, description and size. -/
def unitLine (dpi : Int) (u : LengthUnit) : Except Length.ConversionError String :=
  (unitSize dpi u).map fun size =>
    "  " ++ padTo 7 (if u.suffix = "" then "(none)" else u.suffix) ++ " " ++
      padTo 24 (describe u) ++ " " ++ size ++ "\n"

/-- The lines of a task, up to the first failure. -/
def Task.lines : Task → List (Except Length.ConversionError String)
  | convert dpi lengths => lengths.map (conversionLine dpi)
  | listUnits dpi =>
    .ok ("DPI: " ++ toString dpi ++ "\n") :: LengthUnit.all.map (unitLine dpi)

/-- What is printed of lines, some of which may have failed, and the first failure. -/
def printUntilFailure {ε : Type} : List (Except ε String) → String × Option ε
  | [] => ("", none)
  | .error e :: _ => ("", some e)
  | .ok line :: lines =>
    let (printed, failure) := printUntilFailure lines
    (line ++ printed, failure)

/-- The outcome of a task. -/
def Task.outcome (level : LogLevel) (t : Task) : Outcome :=
  let (printed, failure) := printUntilFailure t.lines
  ⟨if failure.isSome then 1 else 0, printed, "", some level, failure⟩

/-- The outcome of a call that has been configured. -/
def finish (config : Config) (c : Call) : Outcome :=
  match readTask config c with
  | .error stop => stop.outcome (some config.level)
  | .ok task => task.outcome config.level

/-- The outcome of the program, given its words and its environment. -/
def run (words : List String) (env : Environment) : Outcome :=
  match (do
    let call ← readCall words
    return (call, ← configure env call) : Except Stop (Call × Config)) with
  | .error stop => stop.outcome none
  | .ok (call, config) => finish config call

/-- What is printed are the lines before the first failure. -/
theorem printUntilFailure_eq {ε : Type} (before : List String) (lines : List (Except ε String)) :
    printUntilFailure (before.map Except.ok ++ lines) =
      (String.join before ++ (printUntilFailure lines).1, (printUntilFailure lines).2) := by
  induction before with
  | nil => simp
  | cons line before ih =>
    simp only [List.map_cons, List.cons_append, printUntilFailure, ih]
    simp [String.join_cons, String.append_assoc]

end VectorStyle.CommandLine
