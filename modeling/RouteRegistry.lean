import RouteRegistry.Disk.Change
import RouteRegistry.Disk.Difference
import RouteRegistry.Main
import RouteRegistry.Program
import RouteRegistry.Project.Pass
import RouteRegistry.Report
import RouteRegistry.Source.Literal
import RouteRegistry.Proofs.Table.Insertion
import RouteRegistry.Proofs.Growth.Account
import RouteRegistry.Proofs.Growth.Reference
import RouteRegistry.Proofs.Growth.Interruption
import RouteRegistry.Proofs.Pass.Outcome
import RouteRegistry.Proofs.Pass.Silence
import RouteRegistry.Proofs.Growth.Renaming
import RouteRegistry.Proofs.Pass.Renaming
import RouteRegistry.Proofs.Scope.Shadowing
import RouteRegistry.Proofs.Scope.Known
import RouteRegistry.Proofs.Catalog.Indexed
import RouteRegistry.Proofs.Catalog.Pushing
import RouteRegistry.Proofs.Marker.Arguments
import RouteRegistry.Proofs.SourceCatalog.Order
import RouteRegistry.Proofs.Path.Steps
import RouteRegistry.Proofs.Disk.Walk
import RouteRegistry.Proofs.Disk.Making
import RouteRegistry.Proofs.Disk.Writing
import RouteRegistry.Proofs.Disk.Ground
import RouteRegistry.Proofs.Project.Reading
import RouteRegistry.Proofs.Command.Settling
import RouteRegistry.Proofs.Command.Rerun
import RouteRegistry.Proofs.Command.History
import RouteRegistry.Proofs.Source.Quoting
import RouteRegistry.Proofs.RoutesClass.Readers
import RouteRegistry.Proofs.RoutesClass.Reading
import RouteRegistry.Proofs.Growth.WalkOrder
import RouteRegistry.Proofs.Pass.Bystander
import RouteRegistry.Proofs.Pass.FirstConfiguration
import RouteRegistry.Proofs.Pass.Repetition
import RouteRegistry.Proofs.Source.Nesting
import RouteRegistry.Proofs.SourceCatalog.Names
import RouteRegistry.Proofs.Pass.Severity
import RouteRegistry.Proofs.Path.Parent
import RouteRegistry.Proofs.Command.ExitStatus
import RouteRegistry.Proofs.RoutesClass.ClassText
import RouteRegistry.Proofs.RoutesClass.Naming
import RouteRegistry.Proofs.Scope.Answers
import RouteRegistry.Proofs.Source.Decoding
import RouteRegistry.Proofs.Json.Reading
import RouteRegistry.Proofs.Json.RoundTrip
import RouteRegistry.Proofs.Path.Order
import RouteRegistry.Proofs.Disk.Listing
import RouteRegistry.Proofs.Project.ScanOrder
import RouteRegistry.Proofs.Source.Verbatim
import RouteRegistry.Proofs.Source.Concatenation
import RouteRegistry.Proofs.Source.Containers
import RouteRegistry.Proofs.Source.Lines
import RouteRegistry.Proofs.Pass.Lines
import RouteRegistry.Proofs.SourceCatalog.Respelling
import RouteRegistry.Proofs.SourceCatalog.Shorthand
import RouteRegistry.Proofs.Growth.Completion
import RouteRegistry.Proofs.Source.TextBlocks
import RouteRegistry.Proofs.Source.Comments
import RouteRegistry.Proofs.Growth.Exchange
import RouteRegistry.Proofs.Report.Rows
import RouteRegistry.Proofs.Source.Imports
import RouteRegistry.Proofs.Project.Excludes
