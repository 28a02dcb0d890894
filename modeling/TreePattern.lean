import TreePattern.Pattern.Equality
import TreePattern.Pattern.OptionsJson
import TreePattern.Pattern.Printer
import TreePattern.Proofs.Errors.Blame
import TreePattern.Proofs.Errors.FirstMisfit
import TreePattern.Proofs.Errors.Leaves
import TreePattern.Proofs.Errors.Patterns
import TreePattern.Proofs.Grammar.Adjacency
import TreePattern.Proofs.Grammar.Basic
import TreePattern.Proofs.Grammar.Denoted
import TreePattern.Proofs.Grammar.Leaves
import TreePattern.Proofs.Grammar.Lookahead
import TreePattern.Proofs.Grammar.Reading
import TreePattern.Proofs.Grammar.Synchrony
import TreePattern.Proofs.Grammar.Widening
import TreePattern.Proofs.Matching.Meaning
import TreePattern.Proofs.Matching.Monotone
import TreePattern.Proofs.Matching.Operand
import TreePattern.Proofs.Matching.Search
import TreePattern.Proofs.Nesting.Counter
import TreePattern.Proofs.Nesting.Exact
import TreePattern.Proofs.Pattern.Congruence
import TreePattern.Proofs.Pattern.Equality
import TreePattern.Proofs.Pattern.Induction
import TreePattern.Proofs.Pattern.Nesting
import TreePattern.Proofs.Pattern.Parts
import TreePattern.Proofs.Printing.Apart
import TreePattern.Proofs.Printing.Canonical
import TreePattern.Proofs.Printing.Fusion
import TreePattern.Proofs.Printing.Image
import TreePattern.Proofs.Printing.Layout
import TreePattern.Proofs.Printing.Leaves
import TreePattern.Proofs.Printing.Quantifiers
import TreePattern.Proofs.Printing.Restating
import TreePattern.Proofs.Printing.RoundTrip
import TreePattern.Proofs.Printing.Scanning
import TreePattern.Proofs.Printing.Size
import TreePattern.Proofs.Printing.Standing
import TreePattern.Proofs.Regex.Literal
import TreePattern.Proofs.Regex.Quoted
import TreePattern.Proofs.Regex.Reading
import TreePattern.Proofs.Regex.Semantics
import TreePattern.Proofs.Text.Escapes
import TreePattern.Proofs.Text.Numeral
import TreePattern.Proofs.Text.Quoted
import TreePattern.Proofs.Text.Slashes
import TreePattern.Proofs.Token.Delimited
import TreePattern.Proofs.Token.Integer
import TreePattern.Proofs.Token.Language
import TreePattern.Proofs.Token.Leading
import TreePattern.Proofs.Token.Lexeme
import TreePattern.Proofs.Token.Longest
import TreePattern.Proofs.Token.Run
import TreePattern.Proofs.Token.Setter
import TreePattern.Proofs.Token.Spacing
import TreePattern.Proofs.Token.Standing
import TreePattern.Proofs.Token.Start
import TreePattern.Proofs.Token.Symbol
import TreePattern.Proofs.Token.Tiling
import TreePattern.Proofs.Tree.Attributes
import TreePattern.Proofs.Tree.BuilderName
import TreePattern.Proofs.Tree.Coverage
import TreePattern.Proofs.Tree.Induction
import TreePattern.Proofs.Tree.Insertion
import TreePattern.Proofs.Tree.Registration
import TreePattern.Proofs.Tree.RoundTrip
import TreePattern.Proofs.Tree.SelfMatch
import TreePattern.Proofs.Tree.Spelling
import TreePattern.Proofs.Tree.Walk
import TreePattern.Proofs.Tree.WordBoundary
import TreePattern.Proofs.Unicode.Lowercase
import TreePattern.Query
import TreePattern.Tree.Builder
