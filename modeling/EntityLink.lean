import EntityLink.Analysis
import EntityLink.AnnotationText
import EntityLink.Attributes
import EntityLink.Cancellation
import EntityLink.CascadeAdvice
import EntityLink.Catalog
import EntityLink.Classification
import EntityLink.CommandLine.Arguments
import EntityLink.CommandLine.Failure
import EntityLink.CommandLine.FileTree
import EntityLink.CommandLine.Report
import EntityLink.CommandLine.Run
import EntityLink.Cycle
import EntityLink.Datum
import EntityLink.Distinct
import EntityLink.Entity
import EntityLink.Finding
import EntityLink.GeneratedEntity
import EntityLink.Generation
import EntityLink.Graph
import EntityLink.Graph.Loops
import EntityLink.Graph.Numbered
import EntityLink.Graph.Store
import EntityLink.Imports
import EntityLink.Java.Heap
import EntityLink.Java.Printer
import EntityLink.Java.Run
import EntityLink.Java.Tree
import EntityLink.Java.Walk
import EntityLink.Link
import EntityLink.Link.Declaration
import EntityLink.Link.Many
import EntityLink.Link.Single
import EntityLink.Link.Style
import EntityLink.Main
import EntityLink.Manifest
import EntityLink.MemberNames
import EntityLink.Noun
import EntityLink.Pairing
import EntityLink.RecursionCheck
import EntityLink.Relationship
import EntityLink.Relationship.Mapping
import EntityLink.Settings
import EntityLink.Settings.Environment
import EntityLink.Settings.File
import EntityLink.Synthesis
import EntityLink.Synthesis.Program
import EntityLink.Text.Blank
import EntityLink.Text.Dotted
import EntityLink.Text.LetterCase
import EntityLink.Text.Lines
import EntityLink.Text.Split
import EntityLink.Text.WordChar
import EntityLink.Toml
import EntityLink.TypeExpr
import EntityLink.Validators
import EntityLink.Proofs.ClosedWalk
import EntityLink.Proofs.LoopSearch
import EntityLink.Proofs.CallSites
import EntityLink.Proofs.LocalNames
import EntityLink.Proofs.HeapFrame
import EntityLink.Proofs.RunningCode
import EntityLink.Proofs.HeapLinks
import EntityLink.Proofs.EntryCalls
import EntityLink.Proofs.InverseCalls
import EntityLink.Proofs.SetterExecution
import EntityLink.Proofs.CollectionExecution
import EntityLink.Proofs.CollectionReplacement
import EntityLink.Proofs.CircularMarking
import EntityLink.Proofs.AnalysisStages
import EntityLink.Proofs.AdvisedRemoval
import EntityLink.Proofs.RemovalRoundTrip
import EntityLink.Proofs.InverseLookup
import EntityLink.Proofs.MemberNaming
import EntityLink.Proofs.MemberCalls
import EntityLink.Proofs.GeneratedMembers
import EntityLink.Proofs.RecursionSafety
import EntityLink.Proofs.CallResolution
import EntityLink.Proofs.SynchronizedPairs
import EntityLink.Proofs.AmbiguousInverses
import EntityLink.Proofs.GeneratedEntities
import EntityLink.Proofs.GuardedCycles
import EntityLink.Proofs.WellFormedRelationships
import EntityLink.Proofs.ScopedMembers
import EntityLink.Proofs.MethodSignatures
import EntityLink.Proofs.RenderedStatements
import EntityLink.Proofs.OutputFiles
import EntityLink.Proofs.JoinRoundTrip
import EntityLink.Proofs.IndependentSettings
import EntityLink.Proofs.GuardPlacement
import EntityLink.Proofs.TargetImports
import EntityLink.Proofs.OpenedCollections
import EntityLink.Proofs.ValidatorExecution
import EntityLink.Proofs.HazardPlaces
import EntityLink.Proofs.AttributeRoundTrip
import EntityLink.Proofs.ReplacedElements
import EntityLink.Proofs.AnnotationGrammar
import EntityLink.Proofs.TypeRoundTrip
import EntityLink.Proofs.CatalogLookup
import EntityLink.Proofs.LibraryImports
import EntityLink.Proofs.InheritedStrategy
import EntityLink.Proofs.MappingPrecedence
import EntityLink.Proofs.LayeredSettings
import EntityLink.Proofs.PluralRoundTrip
import EntityLink.Proofs.NumberedEntities
