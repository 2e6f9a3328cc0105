import VectorStyle.CommandLine.Page
import VectorStyle.Length.Reader
import VectorStyle.Text.ControlSequence
import VectorStyle.Text.LineEnd

/-!
# What can be wrong with a command line

A call is refused for its options, for the value of an option or argument, for words that are
missing or too many, or because the environment does not make a configuration. `UsageError.report`
is what the user sees: the usage of the page at which the call was refused, and the reason. A reason
may repeat words of the call as they stand, so the report is made plain: control sequences are left
out, and each line ends with a line feed alone.

What is wrong with a length or with the environment is worded by the program. The rest, the layout
and the suggestions included, is worded as by `click`, version 8.5, which the program leaves it to.
-/

set_option autoImplicit false

namespace VectorStyle.CommandLine

/-- What is wrong with the value of an option or argument. -/
inductive ValueError where
  | notAResolution (value : String)
  | resolutionOutOfRange (value : Int)
  | unknownLevel (value : String)
  | length (e : Length.ReadError)

/-- Why a call is refused. -/
inductive UsageError where
  | option (e : OptionError)
  | value (parameter : String) (e : ValueError)
  | lengthsMissing
  | extraArguments (words : List String)
  | commandMissing
  | unknownCommand (word : String)
  | configuration (e : ConfigError)

open Text (quoted)

/-- What to write instead of an unknown word, if there are similar ones. -/
def suggestion : List String → String
  | [] => ""
  | [name] => " Did you mean " ++ quoted name ++ "?"
  | names => " (Did you mean one of: " ++ ", ".intercalate (names.map quoted) ++ "?)"

/-- The reason for an error in the options. -/
def OptionError.message : OptionError → String
  | unknown name similar => "No such option " ++ quoted name ++ "." ++ suggestion similar
  | valueMissing name => "Option " ++ quoted name ++ " requires an argument."
  | valueUnexpected name => "Option " ++ quoted name ++ " does not take a value."

/-- The reason for an error in a value. -/
def ValueError.message : ValueError → String
  | notAResolution value => quoted value ++ " is not a valid integer range."
  | resolutionOutOfRange value => toString value ++ " is not in the range x>=1."
  | unknownLevel value =>
    quoted value ++ " is not one of 'debug', 'info', 'warning', 'error', 'critical'."
  | length e => e.message

namespace UsageError

/-- The reason for refusing a call. -/
def message : UsageError → String
  | option e => e.message
  | value parameter e => "Invalid value for '" ++ parameter ++ "': " ++ e.message
  | lengthsMissing => "Missing argument 'LENGTHS...'."
  | extraArguments words =>
    "Got unexpected extra argument" ++ (if words.length = 1 then "" else "s") ++ " (" ++
      " ".intercalate words ++ ")"
  | commandMissing => "Missing command."
  | unknownCommand word =>
    "No such command " ++ quoted word ++ "." ++
      suggestion ((Command.all.map Command.name).filter (Text.Similarity.isSimilar · word))
  | configuration e => e.message

/-- Whether the report begins with the usage of the page. Options with a missing or unexpected value
are reported without it. -/
def showsUsage : UsageError → Bool
  | option (.valueMissing _) | option (.valueUnexpected _) => false
  | _ => true

/-- The report before it is made plain. -/
def rawReport (p : Page) (e : UsageError) : String :=
  (if e.showsUsage then p.usage ++ p.hint ++ "\n" else "") ++ "Error: " ++ e.message ++ "\n"

/-- What the user sees. -/
def report (p : Page) (e : UsageError) : String :=
  Text.withLineFeeds (Text.withoutControlSequences (e.rawReport p))

end UsageError

end VectorStyle.CommandLine
