import VectorStyle.CommandLine.Options
import VectorStyle.Config

/-!
# The pages of the command line help

The program and each of its commands has a page: how it is called, what it does, and the options it
takes. The options of a page are the ones that are recognised where the page applies.

The words of a page are the program's; its layout is that of `click`, version 8.5, on a terminal of
eighty columns.
-/

set_option autoImplicit false

namespace VectorStyle.CommandLine

/-- The commands of the program. -/
inductive Command where
  | resolve
  | units
deriving DecidableEq, Repr

namespace Command

/-- All commands, in the order of the overview. -/
def all : List Command := [resolve, units]

/-- The word that calls a command. -/
def name : Command → String
  | resolve => "resolve"
  | units => "units"

/-- The command that a word calls. -/
def ofName? (word : String) : Option Command := all.find? (·.name == word)

theorem ofName?_name (c : Command) : ofName? c.name = some c := by cases c <;> decide

end Command

/-- A page: that of the program or that of a command. -/
inductive Page where
  | overview
  | command (c : Command)
deriving DecidableEq, Repr

namespace Page

/-- The words that lead to a page. -/
def path : Page → String
  | overview => "svgcss"
  | command c => "svgcss " ++ c.name

/-- What a call is made of, after the words that lead to the page. -/
def form : Page → String
  | overview => "[OPTIONS] COMMAND [ARGS]..."
  | command .resolve => "[OPTIONS] LENGTHS..."
  | command .units => "[OPTIONS]"

/-- The options that a page offers, by name. -/
def options : Page → List OptionSpec
  | overview => [⟨"--help", false⟩, ⟨"--log-level", true⟩, ⟨"--version", false⟩]
  | command _ => [⟨"--dpi", true⟩, ⟨"--help", false⟩]

/-- The line that shows how a call is made. -/
def usage (p : Page) : String := "Usage: " ++ p.path ++ " " ++ p.form ++ "\n"

/-- Where to find help. -/
def hint (p : Page) : String := "Try '" ++ p.path ++ " --help' for help.\n"

/-- The options of the commands as their pages show them. -/
def commandOptions : String :=
  "Options:\n" ++
  "  --dpi INTEGER RANGE  Dots per inch.  [x>=1]\n" ++
  "  --help               Show this message and exit.\n"

/-- What a page says after the usage line. -/
def body : Page → String
  | overview =>
    "  svgcss - CSS units and selectors for SVG documents.\n" ++
    "\n" ++
    "Options:\n" ++
    "  --version                       Show the version and exit.\n" ++
    "  --log-level [debug|info|warning|error|critical]\n" ++
    "                                  Logging level (defaults to $SVGCSS_LOG_LEVEL\n" ++
    "                                  or WARNING).\n" ++
    "  --help                          Show this message and exit.\n" ++
    "\n" ++
    "Commands:\n" ++
    "  resolve  Convert LENGTHS (e.g.\n" ++
    "  units    List supported units and the user-unit size of one of each.\n"
  | command .resolve =>
    "  Convert LENGTHS (e.g. 12pt 2.5in 10mm) to user units.\n" ++
    "\n" ++
    "  Relative lengths (em, %) are printed unchanged.\n" ++
    "\n" ++
    commandOptions
  | command .units =>
    "  List supported units and the user-unit size of one of each.\n" ++
    "\n" ++
    commandOptions

/-- The whole page. -/
def text (p : Page) : String := p.usage ++ "\n" ++ p.body

end Page

end VectorStyle.CommandLine
