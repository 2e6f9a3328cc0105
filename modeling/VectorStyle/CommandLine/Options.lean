import VectorStyle.Text.Similarity

/-!
# Options and arguments

Command line words are options, values of options and arguments. An option begins with a dash and
has more than the dash. It is found by its full name, and its value, if it takes one, is attached
with `=` or is the next word, whatever that is. The word `--` ends the options.

Where options and arguments may be mixed, options are recognised everywhere before `--`; otherwise
the first argument ends them.

These rules are not the program's own. They are the documented ones of `click`, version 8.5, the
option parser that the program is built on and that is not modelled beyond them.

Main statement: `scan_after_dashes`, nothing after `--` is an option.
-/

set_option autoImplicit false

namespace VectorStyle.CommandLine

/-- An option: its name with the dashes, and whether it takes a value. -/
structure OptionSpec where
  name : String
  takesValue : Bool
deriving DecidableEq, Repr

/-- Why options cannot be read. -/
inductive OptionError where
  | unknown (name : String) (similar : List String)
  | valueMissing (name : String)
  | valueUnexpected (name : String)
deriving DecidableEq, Repr

/-- What a command line gives: options in order, each with its value, and the arguments. The value
of an option that takes none is empty. -/
structure Given where
  options : List (String × String) := []
  arguments : List String := []
deriving DecidableEq, Repr

namespace Given

/-- One more option in front. -/
def addOption (name value : String) (g : Given) : Given :=
  { g with options := (name, value) :: g.options }

/-- One more argument in front. -/
def addArgument (word : String) (g : Given) : Given := { g with arguments := word :: g.arguments }

/-- The value of an option, of the last one if it is given several times. -/
def value? (g : Given) (name : String) : Option String := g.options.reverse.lookup name

end Given

/-- Whether a word is an option. -/
def isOption (word : String) : Bool :=
  match word.toList with
  | '-' :: _ :: _ => true
  | _ => false

/-- The name of an option word and the value attached to it. -/
def splitOption (word : String) : String × Option String :=
  let cs := word.toList
  let name := String.ofList (cs.takeWhile (· != '='))
  match cs.dropWhile (· != '=') with
  | [] => (name, none)
  | _ :: value => (name, some (String.ofList value))

/-- The name under which an unknown option is reported: a word with a single dash is read letter by
letter, so its first letter is unknown. -/
def unknownOption (specs : List OptionSpec) (word name : String) : OptionError :=
  match word.toList with
  | '-' :: '-' :: _ =>
    .unknown name ((specs.map OptionSpec.name).filter (Text.Similarity.isSimilar · name))
  | cs => .unknown (String.ofList (cs.take 2)) []

/-- The options and arguments of a command line. -/
def scan (specs : List OptionSpec) (mixed : Bool) : List String → Except OptionError Given
  | [] => .ok { }
  | word :: rest =>
    if word = "--" then .ok { arguments := rest }
    else if isOption word then
      let (name, attached) := splitOption word
      match specs.find? (·.name == name), attached with
      | none, _ => .error (unknownOption specs word name)
      | some spec, some value =>
        if spec.takesValue then (scan specs mixed rest).map (Given.addOption name value)
        else .error (.valueUnexpected name)
      | some spec, none =>
        if spec.takesValue then
          match rest with
          | [] => .error (.valueMissing name)
          | value :: more => (scan specs mixed more).map (Given.addOption name value)
        else (scan specs mixed rest).map (Given.addOption name "")
    else if mixed then (scan specs mixed rest).map (Given.addArgument word)
    else .ok { arguments := word :: rest }

theorem scan_after_dashes (specs : List OptionSpec) (mixed : Bool) (words : List String) :
    scan specs mixed ("--" :: words) = .ok { arguments := words } := by
  rw [scan]
  rfl

end VectorStyle.CommandLine
