import ThrowCatch.CommandLine
import ThrowCatch.Coverage
import ThrowCatch.Discovery
import ThrowCatch.Disk.Basic
import ThrowCatch.Disk.Glob
import ThrowCatch.Disk.Path
import ThrowCatch.Disk.Resolve
import ThrowCatch.Engine
import ThrowCatch.Exclusion
import ThrowCatch.Fault
import ThrowCatch.Flow
import ThrowCatch.Index
import ThrowCatch.Json
import ThrowCatch.Language
import ThrowCatch.Logging
import ThrowCatch.Main
import ThrowCatch.Number.Double
import ThrowCatch.Number.Reading
import ThrowCatch.Number.Shortest
import ThrowCatch.Render.Cells
import ThrowCatch.Render.Format
import ThrowCatch.Render.Layout
import ThrowCatch.Render.Terminal
import ThrowCatch.Report
import ThrowCatch.Session
import ThrowCatch.Settings.Basic
import ThrowCatch.Settings.Environment
import ThrowCatch.Settings.Load
import ThrowCatch.Sites.Basic
import ThrowCatch.Sites.Collected
import ThrowCatch.Sites.Declared
import ThrowCatch.Sites.Supertype
import ThrowCatch.Source.Binding
import ThrowCatch.Source.Class
import ThrowCatch.Source.Cursor
import ThrowCatch.Source.Expression
import ThrowCatch.Source.Grammar
import ThrowCatch.Source.Lexeme
import ThrowCatch.Source.Markup
import ThrowCatch.Source.Module
import ThrowCatch.Source.Parser
import ThrowCatch.Source.Statement
import ThrowCatch.Source.Types
import ThrowCatch.Text.Blank
import ThrowCatch.Text.Casing
import ThrowCatch.Text.Digit
import ThrowCatch.Text.Lower
import ThrowCatch.Text.Printable
import ThrowCatch.Text.Quoted
import ThrowCatch.Text.Search
import ThrowCatch.Text.Utf8
import ThrowCatch.Toml.Document
import ThrowCatch.Toml.Scalar
import ThrowCatch.Tree.Node
import ThrowCatch.Tree.Occurrence
import ThrowCatch.Value
import ThrowCatch.Proofs.Ownership
import ThrowCatch.Proofs.CacheHistory
import ThrowCatch.Proofs.Classifying
import ThrowCatch.Proofs.SharedIndex
import ThrowCatch.Proofs.Scheduling
import ThrowCatch.Proofs.DiscoveryFilter
import ThrowCatch.Proofs.FlowLists
import ThrowCatch.Proofs.CoverageDetails
import ThrowCatch.Proofs.ReportGrowth
import ThrowCatch.Proofs.ReportOrder
import ThrowCatch.Proofs.FailedFiles
import ThrowCatch.Proofs.NamedErrors
import ThrowCatch.Proofs.SizeLimit
import ThrowCatch.Proofs.LoadFaults
import ThrowCatch.Proofs.Entries
import ThrowCatch.Proofs.TomlDocuments
import ThrowCatch.Proofs.SourcePriority
import ThrowCatch.Proofs.TraceMeaning
import ThrowCatch.Proofs.Archive
import ThrowCatch.Proofs.ShownPaths
import ThrowCatch.Proofs.ProjectRun
import ThrowCatch.Proofs.ExclusionDescent
import ThrowCatch.Proofs.SiteAccounts
import ThrowCatch.Proofs.ReportForm
import ThrowCatch.Proofs.RoundingOrder
import ThrowCatch.Proofs.Percentage
import ThrowCatch.Proofs.CoverageGate
import ThrowCatch.Proofs.Parentheses
import ThrowCatch.Proofs.Rebinding
import ThrowCatch.Proofs.SupertypeText
import ThrowCatch.Proofs.FallbackNames
import ThrowCatch.Proofs.NamelessSites
import ThrowCatch.Proofs.UnknownTargets
import ThrowCatch.Proofs.RiskyFiles
import ThrowCatch.Proofs.BareNames
