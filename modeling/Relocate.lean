import Relocate.Catalog.Codec
import Relocate.Catalog.Entity
import Relocate.Catalog.FolderId
import Relocate.Catalog.Path
import Relocate.Catalog.Snapshot
import Relocate.Cli
import Relocate.Config
import Relocate.Error
import Relocate.FailureDirectory
import Relocate.Files.Host
import Relocate.Files.Model
import Relocate.Files.Name
import Relocate.Json.Double
import Relocate.Json.Reader
import Relocate.Json.Shape
import Relocate.Json.Value
import Relocate.Log
import Relocate.Main
import Relocate.Migrate.Apply
import Relocate.Migrate.Pipeline
import Relocate.Migrate.Prune
import Relocate.Migrate.Reconcile
import Relocate.Proofs.Catalog.Agreement
import Relocate.Proofs.Files.Hosts
import Relocate.Proofs.Files.Tree
import Relocate.Proofs.Json.Depth
import Relocate.Proofs.Json.Reading
import Relocate.Proofs.Json.Returned
import Relocate.Proofs.Json.Shapes
import Relocate.Proofs.Json.Values
import Relocate.Proofs.Migrate.Accounting
import Relocate.Proofs.Migrate.Attach
import Relocate.Proofs.Migrate.Contexts
import Relocate.Proofs.Migrate.Dangling
import Relocate.Proofs.Migrate.Duplicates
import Relocate.Proofs.Migrate.FixedPoint
import Relocate.Proofs.Migrate.FolderOrder
import Relocate.Proofs.Migrate.Following
import Relocate.Proofs.Migrate.Identity
import Relocate.Proofs.Migrate.Listings
import Relocate.Proofs.Migrate.Lockstep
import Relocate.Proofs.Migrate.Merge
import Relocate.Proofs.Migrate.Origins
import Relocate.Proofs.Migrate.Parents
import Relocate.Proofs.Migrate.Passes
import Relocate.Proofs.Migrate.Pruning
import Relocate.Proofs.Migrate.Refusals
import Relocate.Proofs.Migrate.SharedPaths
import Relocate.Proofs.Migrate.SourceRules
import Relocate.Proofs.Migrate.SpaceNames
import Relocate.Proofs.Migrate.Synthesis
import Relocate.Proofs.Migrate.Tree
import Relocate.Proofs.Run.FailedRuns
import Relocate.Proofs.Run.FailurePairs
import Relocate.Proofs.Sql.BareWords
import Relocate.Proofs.Sql.Breaks
import Relocate.Proofs.Sql.CommentScan
import Relocate.Proofs.Sql.CommentText
import Relocate.Proofs.Sql.Commuting
import Relocate.Proofs.Sql.FailureLines
import Relocate.Proofs.Sql.ImplicitNames
import Relocate.Proofs.Sql.Inserted
import Relocate.Proofs.Sql.Labels
import Relocate.Proofs.Sql.Lines
import Relocate.Proofs.Sql.Literals
import Relocate.Proofs.Sql.Lookahead
import Relocate.Proofs.Sql.Matching
import Relocate.Proofs.Sql.NextToken
import Relocate.Proofs.Sql.Offsets
import Relocate.Proofs.Sql.Projection
import Relocate.Proofs.Sql.QuoteStyles
import Relocate.Proofs.Sql.ReadBack
import Relocate.Proofs.Sql.References
import Relocate.Proofs.Sql.Reindent
import Relocate.Proofs.Sql.Reuse
import Relocate.Proofs.Sql.RoundTrip
import Relocate.Proofs.Sql.Sites
import Relocate.Proofs.Sql.Spelling
import Relocate.Proofs.Sql.Succession
import Relocate.Proofs.Sql.Visibility
import Relocate.Proofs.Sql.Visits
import Relocate.Proofs.Sql.Written
import Relocate.Proofs.Store.Data
import Relocate.Proofs.Store.Loading
import Relocate.Proofs.Store.Reloading
import Relocate.Proofs.Store.Saving
import Relocate.Proofs.Text.Prefixes
import Relocate.Proofs.Text.TrimmedLines
import Relocate.Proofs.Text.Trimming
import Relocate.Report
import Relocate.Run
import Relocate.Sql.Comments
import Relocate.Sql.Failure
import Relocate.Sql.Format
import Relocate.Sql.Ident
import Relocate.Sql.Keyword
import Relocate.Sql.Layout
import Relocate.Sql.Lexer
import Relocate.Sql.Names
import Relocate.Sql.Parse
import Relocate.Sql.Parser.Basic
import Relocate.Sql.Parser.DataType
import Relocate.Sql.Parser.Expression
import Relocate.Sql.Parser.Literal
import Relocate.Sql.Parser.Query
import Relocate.Sql.Parser.Statement
import Relocate.Sql.Parser.Table
import Relocate.Sql.Quoting
import Relocate.Sql.Render
import Relocate.Sql.Rewrite
import Relocate.Sql.Scope
import Relocate.Sql.Syntax
import Relocate.Sql.Token
import Relocate.Store
import Relocate.Text.Blank
import Relocate.Text.Encoding
import Relocate.Text.Fold
import Relocate.Text.Letter
