import ApexScan.Engine.Buckets
import ApexScan.Engine.CandleEngine
import ApexScan.Engine.ContextVersions
import ApexScan.Engine.ContinuityTaint
import ApexScan.Engine.LiveGrouping
import ApexScan.Engine.PreviousClose
import ApexScan.Engine.Session
import ApexScan.Engine.SessionStatistics
import ApexScan.Engine.StatisticsDate
import ApexScan.Engine.TickEngine
import ApexScan.Historical.Context
import ApexScan.Historical.Coordinator
import ApexScan.Historical.Planner
import ApexScan.Historical.Requirements
import ApexScan.Historical.Resampling
import ApexScan.Historical.Sharing
import ApexScan.Historical.Source
import ApexScan.Historical.Warmup
import ApexScan.Historical.WarmupSpec
import ApexScan.Ipc.Compaction
import ApexScan.Ipc.Consumer
import ApexScan.Ipc.Envelope
import ApexScan.Ipc.Reference
import ApexScan.Ipc.Wire
import ApexScan.Lib.Check
import ApexScan.Lib.Dict
import ApexScan.Lib.Groups
import ApexScan.Lib.History
import ApexScan.Lib.Machine
import ApexScan.Lib.Raising
import ApexScan.Lib.Records
import ApexScan.Lib.Rounding
import ApexScan.Lib.Window
import ApexScan.Schemas.MarketData
import ApexScan.Strategy.EmissionDedup
import ApexScan.Engine.RetainedOnce
import ApexScan.Ipc.ScriptRefinement
import ApexScan.Ipc.Polling
import ApexScan.Ipc.Publisher
import ApexScan.Historical.Reconstruction
import ApexScan.Strategy.Lifecycle
import ApexScan.Strategy.Manager
import ApexScan.Strategy.LifecycleSync
import ApexScan.Strategy.ErrorThreshold
import ApexScan.Lib.Purge
import ApexScan.Strategy.Isolation
import ApexScan.Lib.Packed
import ApexScan.Adapters.Dhan.Live
import ApexScan.Adapters.Dhan.Distribution
import ApexScan.Adapters.Dhan.Streams
import ApexScan.Engine.BucketTiling
import ApexScan.Services.IngestionSupervisor
import ApexScan.Adapters.Dhan.Subscriptions
import ApexScan.Adapters.Dhan.Bookkeeping
import ApexScan.Engine.StatisticsRun
import ApexScan.Strategy.StatisticsFreshness
import ApexScan.Services.SectorObservations
import ApexScan.Services.ContextOrder
import ApexScan.Lib.DecimalContext
import ApexScan.Lib.Ranking
import ApexScan.Services.CrossInstrumentScanner
import ApexScan.Services.ScannerSnapshots
import ApexScan.Strategy.PreviousSessionRelativeRange
import ApexScan.Lib.Sha256
import ApexScan.Lib.Directory
import ApexScan.MarketUniverse.Snapshot
import ApexScan.MarketUniverse.Store
import ApexScan.Lib.Interleaving
import ApexScan.MarketUniverse.Promotion
import ApexScan.MarketUniverse.ConcurrentPromotions
import ApexScan.Evidence.Models
import ApexScan.Lib.Sorting
import ApexScan.Evidence.Combine
import ApexScan.Evidence.TimeOrder
import ApexScan.Evidence.CombinedVerdict
import ApexScan.MarketHistory.Models
import ApexScan.MarketHistory.BarMap
import ApexScan.MarketHistory.SharedFiles
import ApexScan.Adapters.Dhan.Continuity
import ApexScan.Services.SessionOhlcEvidenceObserver
import ApexScan.Historical.CoalescedFetches
import ApexScan.Historical.PreviousSession
import ApexScan.Strategy.HistoricalTrigger
import ApexScan.Strategy.NarrowCpr
import ApexScan.Strategy.PublishedResults
import ApexScan.Strategy.PreviousSessionDate
import ApexScan.Engine.InstrumentIsolation
import ApexScan.Services.ScannerFeed
import ApexScan.Services.FeedGaps
import ApexScan.Lib.Latest
import ApexScan.MarketHistory.Coverage
import ApexScan.Engine.RepairsKept
import ApexScan.Historical.SufficientWindow
import ApexScan.Historical.DescribedSession
import ApexScan.MarketUniverse.Resolver
import ApexScan.MarketUniverse.Accounting
import ApexScan.Lib.Interaction
import ApexScan.Deploy.References
import ApexScan.Deploy.HealthCheck
import ApexScan.Deploy.Transport
import ApexScan.Deploy.Gate
import ApexScan.Deploy.TraceSafety
import ApexScan.Lib.Validity
import ApexScan.Sector.Membership
import ApexScan.Sector.Coherence
import ApexScan.Sector.CompetitionRanking
import ApexScan.Sector.MembershipFunction
import ApexScan.Sector.Metrics
import ApexScan.Sector.Participation
import ApexScan.Services.SectorShadowRuntime
import ApexScan.Services.EffectiveMembership
import ApexScan.Engine.Observed
import ApexScan.Services.SectorInputs
import ApexScan.Services.EvidenceWindows
import ApexScan.Services.EvidenceWindowStates
import ApexScan.Services.EvidenceDates
import ApexScan.StrategyReadiness.Engine
import ApexScan.Evidence.DerivedVerdict
import ApexScan.Historical.InterruptedWarmup
import ApexScan.Adapters.Dhan.SessionStatistics
import ApexScan.Adapters.Dhan.StockUniverse
import ApexScan.Lib.GregorianDate
import ApexScan.Adapters.Dhan.CalendarRows
import ApexScan.Adapters.Dhan.CalendarTables
import ApexScan.Adapters.Dhan.PacketFraming
import ApexScan.Services.ObservationRuns
import ApexScan.Services.CalendarComparison
import ApexScan.Deploy.BundleRoundTrip
import ApexScan.Deploy.Stage
import ApexScan.Services.SessionStatisticsRefresh
import ApexScan.Services.StagedRefreshes
import ApexScan.MarketHistory.Backfill
import ApexScan.Ipc.Recovery
import ApexScan.Historical.ReconciliationPasses
import ApexScan.Services.CalendarMonitor
import ApexScan.Adapters.Dhan.HistoricalLoad
import ApexScan.Adapters.Dhan.Auth
import ApexScan.Evidence.CollectRuns
import ApexScan.Evidence.CollectedVerdict
import ApexScan.Core.LifecycleRuns
