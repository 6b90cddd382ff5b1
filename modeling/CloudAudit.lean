import CloudAudit.Action
import CloudAudit.Catalog.Basic
import CloudAudit.Catalog.Compile
import CloudAudit.Catalog.Directory
import CloudAudit.Catalog.Document
import CloudAudit.Catalog.Error
import CloudAudit.Catalog.JsonText
import CloudAudit.Catalog.Reader
import CloudAudit.Catalog.YamlText
import CloudAudit.Check.Counts
import CloudAudit.Check.Result
import CloudAudit.Check.Run
import CloudAudit.Client.Fixtures
import CloudAudit.Client.Rest
import CloudAudit.CommandLine.Command
import CloudAudit.CommandLine.Option
import CloudAudit.Config.Basic
import CloudAudit.Config.Text
import CloudAudit.Discovery.Result
import CloudAudit.Discovery.Run
import CloudAudit.Discovery.Waves
import CloudAudit.Dispatch
import CloudAudit.Evaluate
import CloudAudit.Files.Location
import CloudAudit.Files.Tree
import CloudAudit.Filter
import CloudAudit.Json.Basic
import CloudAudit.Json.Literal
import CloudAudit.Json.Print
import CloudAudit.Json.Syntax
import CloudAudit.Main
import CloudAudit.Number.Binary64
import CloudAudit.Number.Shortest
import CloudAudit.Number.Text
import CloudAudit.Operator
import CloudAudit.Param
import CloudAudit.Path
import CloudAudit.Pattern.Basic
import CloudAudit.Pattern.Bracket
import CloudAudit.Pattern.Escape
import CloudAudit.Pattern.Parse
import CloudAudit.Plan
import CloudAudit.Program
import CloudAudit.Proofs.BindingJson
import CloudAudit.Proofs.CatalogAccepted
import CloudAudit.Proofs.CatalogBatch
import CloudAudit.Proofs.CatalogChecks
import CloudAudit.Proofs.CatalogDependents
import CloudAudit.Proofs.CatalogOrder
import CloudAudit.Proofs.CatalogPlan
import CloudAudit.Proofs.CatalogSafe
import CloudAudit.Proofs.CatalogUpstream
import CloudAudit.Proofs.CheckResources
import CloudAudit.Proofs.CheckRows
import CloudAudit.Proofs.DiscoveryAnswered
import CloudAudit.Proofs.DiscoveryCache
import CloudAudit.Proofs.DiscoveryJoin
import CloudAudit.Proofs.DiscoveryMembers
import CloudAudit.Proofs.DiscoveryOutcome
import CloudAudit.Proofs.DiscoveryParallel
import CloudAudit.Proofs.DiscoveryPartial
import CloudAudit.Proofs.DiscoveryProgress
import CloudAudit.Proofs.DiscoveryReads
import CloudAudit.Proofs.DiscoveryRuns
import CloudAudit.Proofs.DiscoveryTurns
import CloudAudit.Proofs.DiscoveryUpstream
import CloudAudit.Proofs.DocumentJson
import CloudAudit.Proofs.FirstPlaces
import CloudAudit.Proofs.PlanBuild
import CloudAudit.Proofs.PlanLevels
import CloudAudit.Proofs.PlanOrder
import CloudAudit.Proofs.PoolCancel
import CloudAudit.Proofs.PoolInvariant
import CloudAudit.Proofs.PoolReport
import CloudAudit.Proofs.PoolSchedule
import CloudAudit.Proofs.ProgramPath
import CloudAudit.Proofs.ProgramTurns
import CloudAudit.Proofs.ReportFiles
import CloudAudit.Proofs.ReportReading
import CloudAudit.Proofs.ReportTotals
import CloudAudit.Proofs.RunRefusal
import CloudAudit.Proofs.ScanFailures
import CloudAudit.Proofs.ScanMatrix
import CloudAudit.Proofs.ScopeReads
import CloudAudit.Proofs.UnitRoots
import CloudAudit.Report.Artifact
import CloudAudit.Report.Moment
import CloudAudit.Report.Stem
import CloudAudit.Report.Summary
import CloudAudit.Report.Unit
import CloudAudit.Resolve
import CloudAudit.Retry
import CloudAudit.Run
import CloudAudit.Scan.Matrix
import CloudAudit.Scan.Pool
import CloudAudit.Scan.Run
import CloudAudit.Scan.Unit
import CloudAudit.Scope
import CloudAudit.Template
import CloudAudit.Text.Affix
import CloudAudit.Text.Category
import CloudAudit.Text.Fold
import CloudAudit.Text.Letter
import CloudAudit.Text.Run
import CloudAudit.Text.Script
import CloudAudit.Toml.Basic
import CloudAudit.Toml.Document
import CloudAudit.Toml.Text
import CloudAudit.Url.Basic
import CloudAudit.Url.Host
import CloudAudit.Url.Parse
import CloudAudit.Url.Percent
import CloudAudit.Url.Punycode
import CloudAudit.Vendor
import CloudAudit.Yaml.Cursor
import CloudAudit.Yaml.Node
import CloudAudit.Yaml.Scalar
import CloudAudit.Yaml.Tag
import CloudAudit.Yaml.Token
import CloudAudit.Yaml.Value
import CloudAudit.Proofs.IntegerVerdicts
import CloudAudit.Proofs.PathDigits
import CloudAudit.Proofs.ParamResolves
import CloudAudit.Proofs.TemplateReading
import CloudAudit.Proofs.OperatorAlgebra
import CloudAudit.Proofs.DispatchAttempts
import CloudAudit.Proofs.PlanCycle
import CloudAudit.Proofs.LocationNames
import CloudAudit.Proofs.CatalogDirectory
import CloudAudit.Proofs.FilesBelow
import CloudAudit.Proofs.FilesRelisted
import CloudAudit.Proofs.FilesWritten
import CloudAudit.Proofs.IntegerText
import CloudAudit.Proofs.PercentText
import CloudAudit.Proofs.TemplateLiterals
import CloudAudit.Proofs.TextTrim
import CloudAudit.Proofs.UrlPaths
import CloudAudit.Proofs.RequestUrls
import CloudAudit.Proofs.ActionNames
import CloudAudit.Proofs.PathText
import CloudAudit.Proofs.DefaultProjection
import CloudAudit.Proofs.DiscoveryCrashes
import CloudAudit.Proofs.DependentSearch
import CloudAudit.Proofs.RetryDelays
import CloudAudit.Proofs.ScopeNesting
