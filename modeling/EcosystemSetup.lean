import EcosystemSetup.Assoc
import EcosystemSetup.Cluster.AccessError
import EcosystemSetup.Cluster.Call
import EcosystemSetup.Cluster.Collection
import EcosystemSetup.Cluster.Event
import EcosystemSetup.Cluster.Hub
import EcosystemSetup.Cluster.KindName
import EcosystemSetup.Cluster.Manifest
import EcosystemSetup.Cluster.Object
import EcosystemSetup.Cluster.Sandbox
import EcosystemSetup.Cluster.Selector
import EcosystemSetup.Cluster.Store
import EcosystemSetup.CommandLine.Arguments
import EcosystemSetup.CommandLine.Execute
import EcosystemSetup.CommandLine.Help
import EcosystemSetup.Config.Basic
import EcosystemSetup.Config.File
import EcosystemSetup.Config.Validation
import EcosystemSetup.Decimal.Double
import EcosystemSetup.Decimal.Reading
import EcosystemSetup.Decimal.Shortest
import EcosystemSetup.Document.Basic
import EcosystemSetup.Document.Decode
import EcosystemSetup.Document.JsonText
import EcosystemSetup.Document.YamlText
import EcosystemSetup.Dogu.Descriptor
import EcosystemSetup.Dogu.Name
import EcosystemSetup.Dogu.Request
import EcosystemSetup.Dogu.Version
import EcosystemSetup.Duration
import EcosystemSetup.Executor
import EcosystemSetup.Failure
import EcosystemSetup.FileTree
import EcosystemSetup.Json.Basic
import EcosystemSetup.Json.Printer
import EcosystemSetup.Main
import EcosystemSetup.Patch.Apply
import EcosystemSetup.Patch.Directive
import EcosystemSetup.Patch.Pointer
import EcosystemSetup.Phase
import EcosystemSetup.Plan.Basic
import EcosystemSetup.Plan.Order
import EcosystemSetup.Program.Basic
import EcosystemSetup.Program.Run
import EcosystemSetup.Program.Timestamp
import EcosystemSetup.Program.Waiting
import EcosystemSetup.Program.World
import EcosystemSetup.Proofs.AppliedDirectives
import EcosystemSetup.Proofs.Attempts
import EcosystemSetup.Proofs.BarrierPlacement
import EcosystemSetup.Proofs.Barriers
import EcosystemSetup.Proofs.ByteOrder
import EcosystemSetup.Proofs.CalmClusters
import EcosystemSetup.Proofs.CheckedSetups
import EcosystemSetup.Proofs.ClaimAttempts
import EcosystemSetup.Proofs.Conduct
import EcosystemSetup.Proofs.Courses
import EcosystemSetup.Proofs.Deadlines
import EcosystemSetup.Proofs.DecodedConfigurations
import EcosystemSetup.Proofs.DecodedDescriptors
import EcosystemSetup.Proofs.DefaultDogu
import EcosystemSetup.Proofs.DependencyCycles
import EcosystemSetup.Proofs.DescriptorTexts
import EcosystemSetup.Proofs.Discovery
import EcosystemSetup.Proofs.EncodedConfigurations
import EcosystemSetup.Proofs.EncodedRecords
import EcosystemSetup.Proofs.EventLogs
import EcosystemSetup.Proofs.ExpiredVersions
import EcosystemSetup.Proofs.FaultlessClusters
import EcosystemSetup.Proofs.FilePaths
import EcosystemSetup.Proofs.FiledDescriptors
import EcosystemSetup.Proofs.FiledRegistries
import EcosystemSetup.Proofs.ForeignEvents
import EcosystemSetup.Proofs.GuardedSearch
import EcosystemSetup.Proofs.HealthyRuns
import EcosystemSetup.Proofs.InstallOrder
import EcosystemSetup.Proofs.Interleaving
import EcosystemSetup.Proofs.JsonTexts
import EcosystemSetup.Proofs.Judgements
import EcosystemSetup.Proofs.KeyOrder
import EcosystemSetup.Proofs.LabelSelectors
import EcosystemSetup.Proofs.LatestDescriptors
import EcosystemSetup.Proofs.LatestVersions
import EcosystemSetup.Proofs.LeastOrder
import EcosystemSetup.Proofs.Lifecycle
import EcosystemSetup.Proofs.Lists
import EcosystemSetup.Proofs.Observations
import EcosystemSetup.Proofs.OptimisticLocking
import EcosystemSetup.Proofs.OrderlyDocuments
import EcosystemSetup.Proofs.PatchRecords
import EcosystemSetup.Proofs.PipelineLayout
import EcosystemSetup.Proofs.PointerTokens
import EcosystemSetup.Proofs.Prerequisites
import EcosystemSetup.Proofs.Readiness
import EcosystemSetup.Proofs.Reconnections
import EcosystemSetup.Proofs.RecordedState
import EcosystemSetup.Proofs.RegisteredKinds
import EcosystemSetup.Proofs.RepeatedReads
import EcosystemSetup.Proofs.RepeatedSteps
import EcosystemSetup.Proofs.RequestOrder
import EcosystemSetup.Proofs.RequestTexts
import EcosystemSetup.Proofs.Resolution
import EcosystemSetup.Proofs.Resumption
import EcosystemSetup.Proofs.Rounds
import EcosystemSetup.Proofs.RunEndings
import EcosystemSetup.Proofs.Scripts
import EcosystemSetup.Proofs.SelectionAttempts
import EcosystemSetup.Proofs.SetupRuns
import EcosystemSetup.Proofs.SharedSelection
import EcosystemSetup.Proofs.SharedStateMap
import EcosystemSetup.Proofs.SideBySide
import EcosystemSetup.Proofs.SingleClaim
import EcosystemSetup.Proofs.SoundDirectives
import EcosystemSetup.Proofs.StepCalls
import EcosystemSetup.Proofs.StepKinds
import EcosystemSetup.Proofs.StepRuns
import EcosystemSetup.Proofs.StoredObjects
import EcosystemSetup.Proofs.SuccessfulSteps
import EcosystemSetup.Proofs.Trimming
import EcosystemSetup.Proofs.ValidConfigurations
import EcosystemSetup.Proofs.Verdicts
import EcosystemSetup.Proofs.VersionSpellings
import EcosystemSetup.Proofs.VersionTexts
import EcosystemSetup.Proofs.WaitCourses
import EcosystemSetup.Proofs.WaitEndings
import EcosystemSetup.Proofs.WaitProgress
import EcosystemSetup.Proofs.WatchedVersions
import EcosystemSetup.Proofs.WritingSteps
import EcosystemSetup.ReadError
import EcosystemSetup.Registry.Basic
import EcosystemSetup.Registry.Directory
import EcosystemSetup.Registry.Listed
import EcosystemSetup.Server.Client
import EcosystemSetup.Server.Group
import EcosystemSetup.Server.Maturity
import EcosystemSetup.Server.Payload
import EcosystemSetup.Server.Request
import EcosystemSetup.Server.Response
import EcosystemSetup.Setup.Pipeline
import EcosystemSetup.Setup.Run
import EcosystemSetup.Setup.StateStore
import EcosystemSetup.Setup.Step
import EcosystemSetup.Text.Blank
import EcosystemSetup.Text.Concealed
import EcosystemSetup.Text.Numeral
import EcosystemSetup.Text.Quoted
import EcosystemSetup.Text.Split
import EcosystemSetup.Wait.Readiness
import EcosystemSetup.Wait.Settings
import EcosystemSetup.Wait.Target
import EcosystemSetup.Wait.Watcher
import EcosystemSetup.Yaml.Cursor
import EcosystemSetup.Yaml.Lexer
import EcosystemSetup.Yaml.Node
import EcosystemSetup.Yaml.Scalar
import EcosystemSetup.Yaml.Schema
import EcosystemSetup.Yaml.Token
