import ObsChain.Core.Trace
import ObsChain.Core.Overflow
import ObsChain.Core.Progress
import ObsChain.Core.Forest
import ObsChain.Core.BoundedMap
import ObsChain.Core.Eviction
import ObsChain.Core.KeyLog
import ObsChain.Core.Upsert
import ObsChain.Core.Text
import ObsChain.Core.Numeric
import ObsChain.Core.Binary64
import ObsChain.Core.Bytes
import ObsChain.Core.Table
import ObsChain.Core.Sql
import ObsChain.Core.OrderStatistics
import ObsChain.Core.Backoff
import ObsChain.Core.Retry
import ObsChain.Core.Checks
import ObsChain.Core.Broadcast
import ObsChain.Domain.Observation
import ObsChain.Domain.Ranges
import ObsChain.Domain.Replay
import ObsChain.Domain.Event
import ObsChain.Domain.Watch
import ObsChain.Domain.Metadata
import ObsChain.Domain.Baseline
import ObsChain.Domain.MetricForms
import ObsChain.Domain.Amount
import ObsChain.Domain.Rarity
import ObsChain.Domain.ValueText
import ObsChain.Domain.Provenance
import ObsChain.Domain.Incident
import ObsChain.Domain.IncidentBuilder
import ObsChain.Ingest.BitcoinRpc
import ObsChain.Ingest.BitcoinZmq
import ObsChain.Ingest.SequenceWire
import ObsChain.Ingest.SequenceTracker
import ObsChain.Ingest.MempoolWs
import ObsChain.Ingest.BitcoinCoordinator
import ObsChain.Ingest.ReorgSoundness
import ObsChain.Ingest.ReorgDescription
import ObsChain.Ingest.GapReconciliation
import ObsChain.Ingest.TipCoherence
import ObsChain.Ingest.UtxoCache
import ObsChain.Ingest.Enricher
import ObsChain.Ingest.CacheIndependence
import ObsChain.Ingest.UtxoQueue
import ObsChain.Ingest.SovereignPrivacy
import ObsChain.Ingest.RestClient
import ObsChain.Ingest.RestPoller
import ObsChain.Ingest.RpcAuth
import ObsChain.Ingest.WsSupervisor
import ObsChain.Ingest.ZmqSubscriber
import ObsChain.Ingest.ZmqDelivery
import ObsChain.Ingest.ZmqLosses
import ObsChain.Ingest.ZmqHealth
import ObsChain.Replay.Machine
import ObsChain.Replay.Admission
import ObsChain.Replay.Cancellation
import ObsChain.Replay.Coverage
import ObsChain.Replay.Recovery
import ObsChain.Replay.Resume
import ObsChain.Replay.Enrichment
import ObsChain.Replay.TxCache
import ObsChain.Replay.InputLayers
import ObsChain.Detect.Detectors
import ObsChain.Detect.DormantCoins
import ObsChain.Detect.DormantSeverity
import ObsChain.Detect.FanOutStats
import ObsChain.Detect.Engine
import ObsChain.Detect.ReplayDeterminism
import ObsChain.Replay.ProcessBlock
import ObsChain.Replay.Faults
import ObsChain.Detect.BlockIntervals
import ObsChain.Detect.ParentIntervals
import ObsChain.Pipeline.Dedup
import ObsChain.Pipeline.EventIdentity
import ObsChain.Pipeline.DedupWindow
import ObsChain.Pipeline.DedupState
import ObsChain.Pipeline.EventStore
import ObsChain.Pipeline.Convergence
import ObsChain.Pipeline.LiveProvenance
import ObsChain.Statistics.Distribution
import ObsChain.Statistics.Quantiles
import ObsChain.Statistics.Percentiles
import ObsChain.Storage.InMemory
import ObsChain.Storage.RankPopulation
import ObsChain.Storage.Retention
import ObsChain.Storage.MetricMirror
import ObsChain.Storage.NetworkIsolation
import ObsChain.Storage.CanonicalSamples
import ObsChain.Storage.ObservationIdentity
import ObsChain.Storage.LifecycleRecords
import ObsChain.Storage.RankBackends
import ObsChain.Storage.RarityRecords
import ObsChain.Storage.EventQuery
import ObsChain.Watch.Engine
import ObsChain.Watch.Pass
import ObsChain.Watch.Convergence
import ObsChain.Watch.Interference
import ObsChain.Watch.AlertIntegrity
import ObsChain.Watch.DirectMatching
import ObsChain.Watch.TargetIndex
import ObsChain.Watch.Removal
import ObsChain.Watch.Replacements
import ObsChain.Watch.Descent
import ObsChain.Watch.EvidenceStrength
import ObsChain.Watch.MergedFunds
import ObsChain.Watch.Moves
import ObsChain.Watch.DescentDepth
import ObsChain.Watch.Capacity
import ObsChain.Watch.TrackingBounds
import ObsChain.Watch.StatusMonotone
import ObsChain.Storage.IncidentDossier
import ObsChain.Storage.ReplayBackends
import ObsChain.Storage.EventRows
import ObsChain.Storage.EventPages
import ObsChain.Detect.MetricRoundTrip
import ObsChain.Ingest.FeedExactness
import ObsChain.Statistics.EndsAndTies
import ObsChain.Statistics.Directions
import ObsChain.Statistics.Impact
import ObsChain.Statistics.ImpactBounds
import ObsChain.Statistics.ImpactCoverage
import ObsChain.Statistics.Evaluation
import ObsChain.App.Redaction
import ObsChain.Pipeline.Worker
import ObsChain.Pipeline.ClientFeed
import ObsChain.Statistics.BaselineRuns
