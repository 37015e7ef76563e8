import TreeRules.Batch
import TreeRules.Bindings
import TreeRules.CommandLine.Arguments
import TreeRules.CommandLine.Options
import TreeRules.CommandLine.Run
import TreeRules.Datum
import TreeRules.Decimal
import TreeRules.Expr.Basic
import TreeRules.Expr.Builder
import TreeRules.Expr.Lexeme
import TreeRules.Expr.Reader
import TreeRules.Expr.Render
import TreeRules.Files
import TreeRules.Main
import TreeRules.Matching
import TreeRules.Prompt
import TreeRules.Proofs.Bindings
import TreeRules.Proofs.CommandLine.Setup
import TreeRules.Proofs.Expr.Concatenation
import TreeRules.Proofs.Expr.Cuts
import TreeRules.Proofs.Expr.Excerpts
import TreeRules.Proofs.Expr.Feeding
import TreeRules.Proofs.Expr.FirstTree
import TreeRules.Proofs.Expr.Grammar
import TreeRules.Proofs.Expr.Incomplete
import TreeRules.Proofs.Expr.Leaves
import TreeRules.Proofs.Expr.Lexing
import TreeRules.Proofs.Expr.Names
import TreeRules.Proofs.Expr.Positions
import TreeRules.Proofs.Expr.Readers
import TreeRules.Proofs.Expr.Refusal
import TreeRules.Proofs.Expr.RoundTrip
import TreeRules.Proofs.Expr.Spelling
import TreeRules.Proofs.Matching.Assignment
import TreeRules.Proofs.Matching.LeftmostShortest
import TreeRules.Proofs.Matching.Pieces
import TreeRules.Proofs.Matching.Pruning
import TreeRules.Proofs.Matching.Reconstruction
import TreeRules.Proofs.Matching.Renaming
import TreeRules.Proofs.Matching.Search
import TreeRules.Proofs.Matching.Strict
import TreeRules.Proofs.Matching.StrictRefines
import TreeRules.Proofs.Replacement.Leaves
import TreeRules.Proofs.Replacement.NormalForm
import TreeRules.Proofs.Replacement.Outermost
import TreeRules.Proofs.Replacement.Renaming
import TreeRules.Proofs.Replacement.Shrinking
import TreeRules.Proofs.Rule.DarkText
import TreeRules.Proofs.Rule.FirstArrow
import TreeRules.Proofs.Rule.Header
import TreeRules.Proofs.Rule.OneLine
import TreeRules.Proofs.Rule.Parens
import TreeRules.Proofs.Rule.RoundTrip
import TreeRules.Proofs.Rule.TopLevel
import TreeRules.Proofs.Rule.Tracing
import TreeRules.Proofs.Session.Aside
import TreeRules.Proofs.Session.Chains
import TreeRules.Proofs.Session.Future
import TreeRules.Proofs.Session.Groups
import TreeRules.Proofs.Session.OneLine
import TreeRules.Proofs.Session.Outputs
import TreeRules.Proofs.Session.Runnable
import TreeRules.Proofs.Session.Sources
import TreeRules.Proofs.Session.Typed
import TreeRules.Proofs.Session.Unclosed
import TreeRules.Proofs.Template.Composition
import TreeRules.Proofs.Text.Dark
import TreeRules.Proofs.Text.OneLine
import TreeRules.Proofs.Text.Written
import TreeRules.Replacement.Basic
import TreeRules.Replacement.Fixpoint
import TreeRules.Rule.Basic
import TreeRules.Rule.Header
import TreeRules.Rule.Line
import TreeRules.Session.Basic
import TreeRules.Session.Command
import TreeRules.Slice
import TreeRules.Template
import TreeRules.Text.Blank
import TreeRules.Text.CodeRange
import TreeRules.Text.Integer
import TreeRules.Text.Lines
import TreeRules.Text.LowerCase
import TreeRules.Text.Printable
import TreeRules.Text.Quoted
import TreeRules.Text.WordChar
import TreeRules.Token
import TreeRules.Tour
import TreeRules.Trace
