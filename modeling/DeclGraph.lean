import DeclGraph.Frontend.Table
import DeclGraph.Main
import DeclGraph.Symbol.Outline
import DeclGraph.Proofs.DirectDependencies
import DeclGraph.Proofs.GraphRuns
import DeclGraph.Proofs.SavedGraph
import DeclGraph.Proofs.NamesLeadBack
import DeclGraph.Proofs.SafeSaving
import DeclGraph.Proofs.FailedOperations
import DeclGraph.Proofs.BuiltGraphs
import DeclGraph.Proofs.PlacedTexts
import DeclGraph.Proofs.CachedGraphs
import DeclGraph.Proofs.SavedTexts
import DeclGraph.Proofs.WritableGraphs
import DeclGraph.Proofs.DamagedCache
import DeclGraph.Proofs.TreePlaces
import DeclGraph.Proofs.Cancellation
import DeclGraph.Proofs.ParallelBuild
import DeclGraph.Proofs.ParallelRuns
import DeclGraph.Proofs.ParallelResults
import DeclGraph.Proofs.SequentialBuild
import DeclGraph.Proofs.LockstepStores
import DeclGraph.Proofs.WalkedVisits
import DeclGraph.Proofs.ManifestReading
import DeclGraph.Proofs.ManifestRuns
import DeclGraph.Proofs.ManifestSteps
import DeclGraph.Proofs.ManifestTable
import DeclGraph.Proofs.StandardArtifact
import DeclGraph.Proofs.ManifestBuilds
import DeclGraph.Proofs.ManifestContents
import DeclGraph.Proofs.MemberDependencies
import DeclGraph.Proofs.ManifestOrders
import DeclGraph.Proofs.GraphUnions
import DeclGraph.Proofs.DirectGraphs
import DeclGraph.Proofs.AnalysisQueues
import DeclGraph.Proofs.ServerSnapshots
import DeclGraph.Proofs.AbsolutePaths
import DeclGraph.Proofs.WorkingDirectory
import DeclGraph.Proofs.MovedServices
import DeclGraph.Proofs.ManifestPlaces
import DeclGraph.Proofs.ManifestReruns
import DeclGraph.Proofs.ManifestWalks
import DeclGraph.Proofs.ReorderedUnits
import DeclGraph.Proofs.ReorderedManifests
import DeclGraph.Proofs.InducedGraphs
import DeclGraph.Proofs.Violations
import DeclGraph.Proofs.FiniteWalks
import DeclGraph.Proofs.VerifiedPaths
import DeclGraph.Proofs.ReloadedRelations
import DeclGraph.Proofs.ManifestReferences
import DeclGraph.Proofs.TypeNames
import DeclGraph.Proofs.BuiltTypes
import DeclGraph.Proofs.ClosedGenerics
import DeclGraph.Proofs.LinkedParameters
import DeclGraph.Proofs.MethodConstraints
import DeclGraph.Proofs.FiledEntries
import DeclGraph.Proofs.OpenedManifests
import DeclGraph.Proofs.GraphSummaries
import DeclGraph.Proofs.JoinedPaths
import DeclGraph.Proofs.NamedFiles
import DeclGraph.Proofs.ReadSettings
import DeclGraph.Proofs.CachePlaces
import DeclGraph.Proofs.StableRelations
import DeclGraph.Proofs.ClosedTables
import DeclGraph.Proofs.CanonicalForms
import DeclGraph.Proofs.Containment
