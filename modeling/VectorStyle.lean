import VectorStyle.Except
import VectorStyle.Nearest
import VectorStyle.Binary64.Basic
import VectorStyle.Binary64.Arithmetic
import VectorStyle.Decimal.Places
import VectorStyle.Decimal.Shortest
import VectorStyle.Text.Digit
import VectorStyle.Text.Printable
import VectorStyle.Text.Upper
import VectorStyle.Text.Blank
import VectorStyle.Text.Integer
import VectorStyle.Text.Quoted
import VectorStyle.Length.Basic
import VectorStyle.Length.Printer
import VectorStyle.Length.Conversion
import VectorStyle.Length.Reader
import VectorStyle.Color
import VectorStyle.Element
import VectorStyle.Entity.Basic
import VectorStyle.Entity.Inspect
import VectorStyle.Entity.Printer
import VectorStyle.Entity.Writer
import VectorStyle.Entity.Equality
import VectorStyle.Context
import VectorStyle.Selector.Description
import VectorStyle.Selector.Matching
import VectorStyle.Selector.Outcome
import VectorStyle.Tree.Basic
import VectorStyle.Tree.Walk
import VectorStyle.Style.Hits
import VectorStyle.Style.Resolution
import VectorStyle.Config
import VectorStyle.Text.Similarity
import VectorStyle.Text.ControlSequence
import VectorStyle.Text.LineEnd
import VectorStyle.CommandLine.Options
import VectorStyle.CommandLine.Page
import VectorStyle.CommandLine.UsageError
import VectorStyle.CommandLine.Run
import VectorStyle.Main
import VectorStyle.Proofs.Selector.Run
import VectorStyle.Proofs.Selector.Derivation
import VectorStyle.Proofs.Selector.Placement
import VectorStyle.Proofs.Selector.Descendants
import VectorStyle.Proofs.Tree.Positions
import VectorStyle.Proofs.Style.ChildChains
import VectorStyle.Proofs.Style.Declared
import VectorStyle.Proofs.Style.LastWins
import VectorStyle.Proofs.Tree.DocumentOrder
import VectorStyle.Proofs.Selector.Levels
import VectorStyle.Proofs.Style.Containment
import VectorStyle.Proofs.Tree.View
import VectorStyle.Proofs.Style.Locality
import VectorStyle.Proofs.Binary64.Rounding
import VectorStyle.Proofs.Binary64.Hundredth
import VectorStyle.Proofs.Decimal.Digits
import VectorStyle.Proofs.Decimal.Stability
import VectorStyle.Proofs.Length.Reading
import VectorStyle.Proofs.Length.RoundTrip
import VectorStyle.Proofs.Length.Percentages
import VectorStyle.Proofs.CommandLine.Resolve
import VectorStyle.Proofs.Entity.SingleLine
import VectorStyle.Proofs.Entity.Blocks
import VectorStyle.Proofs.Selector.Writing
import VectorStyle.Proofs.Binary64.Range
import VectorStyle.Proofs.CommandLine.Tasks
import VectorStyle.Proofs.CommandLine.Calls
import VectorStyle.Proofs.CommandLine.Ends
import VectorStyle.Proofs.CommandLine.Settings
import VectorStyle.Proofs.Selector.Composition
import VectorStyle.Proofs.Style.Adjacency
import VectorStyle.Proofs.Style.Totality
import VectorStyle.Proofs.Decimal.Canonical
import VectorStyle.Proofs.Decimal.Rounded
import VectorStyle.Proofs.Selector.Rewriting
import VectorStyle.Proofs.Style.Rewriting
import VectorStyle.Proofs.Length.UserUnits
import VectorStyle.Proofs.Config
import VectorStyle.Proofs.Text.Literals
import VectorStyle.Proofs.Binary64.Nearest
import VectorStyle.Proofs.Binary64.Decimals
import VectorStyle.Proofs.Length.Numerals
import VectorStyle.Proofs.Length.Grammar
import VectorStyle.Proofs.Text.Words
import VectorStyle.Proofs.Element
import VectorStyle.Proofs.Style.Lengths
import VectorStyle.Proofs.Entity.Outcomes
import VectorStyle.Proofs.Length.Order
import VectorStyle.Proofs.Length.Equality
import VectorStyle.Proofs.Entity.Equality
