import IdentityLint.Aliases
import IdentityLint.Analyzer
import IdentityLint.Check
import IdentityLint.Cli.Arguments
import IdentityLint.Cli.Command
import IdentityLint.Cli.ConfigLookup
import IdentityLint.Cli.Output
import IdentityLint.Config
import IdentityLint.Config.Encoding
import IdentityLint.Config.Toml
import IdentityLint.Conventions
import IdentityLint.Directive
import IdentityLint.Discovery
import IdentityLint.FileTree
import IdentityLint.Glob
import IdentityLint.HandlerScopes
import IdentityLint.Ignore.File
import IdentityLint.Ignore.Pattern
import IdentityLint.Json
import IdentityLint.Main
import IdentityLint.Parse
import IdentityLint.Path
import IdentityLint.Proofs.Comments
import IdentityLint.Proofs.FilePasses
import IdentityLint.Proofs.Findings
import IdentityLint.Proofs.Handlers
import IdentityLint.Proofs.IdentityLookup
import IdentityLint.Proofs.ImportBindings
import IdentityLint.Proofs.ImportPositions
import IdentityLint.Proofs.JsonReading
import IdentityLint.Proofs.PathOrder
import IdentityLint.Proofs.Places
import IdentityLint.Proofs.RawFactory
import IdentityLint.Proofs.Renaming
import IdentityLint.Proofs.ReportReading
import IdentityLint.Proofs.RuleIndependence
import IdentityLint.Proofs.ScopeChain
import IdentityLint.Proofs.Sites
import IdentityLint.Proofs.Spans
import IdentityLint.Proofs.StableSort
import IdentityLint.Proofs.Suppression
import IdentityLint.Proofs.Tightening
import IdentityLint.Proofs.Traversal
import IdentityLint.Proofs.View
import IdentityLint.Proofs.VisitationOrder
import IdentityLint.Report
import IdentityLint.Report.Encoding
import IdentityLint.Rule
import IdentityLint.Rule.IdentityLookup
import IdentityLint.Rule.RawFactory
import IdentityLint.Scope
import IdentityLint.Source
import IdentityLint.Suppression
import IdentityLint.Syntax.Balance
import IdentityLint.Syntax.Grammar.Basic
import IdentityLint.Syntax.Grammar.Element
import IdentityLint.Syntax.Grammar.Expression
import IdentityLint.Syntax.Grammar.Function
import IdentityLint.Syntax.Grammar.Module
import IdentityLint.Syntax.Grammar.Pattern
import IdentityLint.Syntax.Grammar.Statement
import IdentityLint.Syntax.Grammar.Type
import IdentityLint.Syntax.Node
import IdentityLint.Syntax.Program
import IdentityLint.Syntax.Token
import IdentityLint.Syntax.TreeCursor
import IdentityLint.Syntax.Trivia
import IdentityLint.Syntax.View
import IdentityLint.Syntax.Walk
import IdentityLint.Text
import IdentityLint.Text.Combining
import IdentityLint.Text.Printable
import IdentityLint.Text.Quoted
import IdentityLint.Toml.Document
import IdentityLint.Toml.Scalar
import IdentityLint.Toml.Table
import IdentityLint.Value
import IdentityLint.Violation
import IdentityLint.Proofs.AliasHistory
import IdentityLint.Proofs.DirectiveGrammar
import IdentityLint.Proofs.ScopeHistory
import IdentityLint.Proofs.MissingReason
import IdentityLint.Proofs.Readers
import IdentityLint.Proofs.TokenPlaces
import IdentityLint.Proofs.Layout
import IdentityLint.Proofs.TypeLayout
import IdentityLint.Proofs.ExpressionLayout
import IdentityLint.Proofs.StatementLayout
import IdentityLint.Proofs.ReportOrder
import IdentityLint.Proofs.Positions
import IdentityLint.Proofs.PathResolution
import IdentityLint.Proofs.RuleFilter
import IdentityLint.Proofs.ConfigSearch
import IdentityLint.Proofs.Exemption
import IdentityLint.Proofs.MemberChains
import IdentityLint.Proofs.ReportedPaths
import IdentityLint.Proofs.ConfiguredRoot
