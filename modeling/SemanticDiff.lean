import SemanticDiff.Main
import SemanticDiff.Proofs.Collection.SortedMap
import SemanticDiff.Proofs.Outline.Pairing
import SemanticDiff.Proofs.Catalog.Classifier
import SemanticDiff.Proofs.Catalog.Contexts
import SemanticDiff.Proofs.Catalog.Findings
import SemanticDiff.Proofs.Catalog.Fingerprint
import SemanticDiff.Proofs.Catalog.Reversal
import SemanticDiff.Proofs.Engine.Agreement
import SemanticDiff.Proofs.Engine.EmptyDiff
import SemanticDiff.Proofs.Engine.Decomposition
import SemanticDiff.Proofs.Engine.Tracking
import SemanticDiff.Proofs.Engine.Reversal
import SemanticDiff.Proofs.Source.Nesting
import SemanticDiff.Proofs.Feature.Region
import SemanticDiff.Proofs.Feature.Sum
import SemanticDiff.Proofs.Feature.Conservation
import SemanticDiff.Proofs.Engine.Locality
import SemanticDiff.Proofs.Engine.Reordering
import SemanticDiff.Proofs.Engine.NewFile
import SemanticDiff.Proofs.Engine.Validation
import SemanticDiff.Proofs.Event.Persistence
import SemanticDiff.Proofs.Source.Fragment
import SemanticDiff.Proofs.Feature.Setting
import SemanticDiff.Proofs.Feature.Layout
import SemanticDiff.Proofs.Feature.Handler
import SemanticDiff.Proofs.Outline.Paths
import SemanticDiff.Proofs.Outline.Mirror
import SemanticDiff.Proofs.Feature.Nested
import SemanticDiff.Proofs.Feature.Consistency
import SemanticDiff.Proofs.Event.Selection
import SemanticDiff.Proofs.Engine.Schedule
import SemanticDiff.Proofs.Engine.Disabling
import SemanticDiff.Proofs.Engine.Handling
import SemanticDiff.Proofs.Engine.Grouping
import SemanticDiff.Proofs.Outline.Retrieval
import SemanticDiff.Proofs.Catalog.Naming
import SemanticDiff.Proofs.Report.Agreement
import SemanticDiff.Proofs.Command.AppendedLog
import SemanticDiff.Proofs.Command.ReportedFiles
import SemanticDiff.Proofs.Feature.Counters
