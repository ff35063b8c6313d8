import Telemetry.Main
import Telemetry.Rehearsal
import Telemetry.Proofs.PublisherHistory
import Telemetry.Proofs.DeliveryAccount
import Telemetry.Proofs.PatternLanguage
import Telemetry.Proofs.PatternReading
import Telemetry.Proofs.WindowReference
import Telemetry.Proofs.PipelineHistory
import Telemetry.Proofs.WakeSignals
import Telemetry.Proofs.CatalogNarrowing
import Telemetry.Proofs.PlatformView
import Telemetry.Proofs.LossFreeRun
import Telemetry.Proofs.BuildIsolation
import Telemetry.Proofs.RateHistory
import Telemetry.Proofs.BatchOrder
import Telemetry.Proofs.AnalyzerLife
import Telemetry.Proofs.BackoffSchedule
import Telemetry.Proofs.RetryOutcome
import Telemetry.Proofs.DeliveryLayers
import Telemetry.Proofs.RetryBudget
import Telemetry.Proofs.SegmentMatching
import Telemetry.Proofs.WindowInvariant
import Telemetry.Proofs.PatternGrammar
import Telemetry.Proofs.NameResolution
import Telemetry.Proofs.KeySelection
import Telemetry.Proofs.SpelledSpans
import Telemetry.Proofs.TaskInterval
import Telemetry.Proofs.SeriesApart
import Telemetry.Proofs.LayeredSettings
import Telemetry.Proofs.SampleCounts
import Telemetry.Proofs.RegistryContents
import Telemetry.Proofs.TargetServings
import Telemetry.Proofs.MetricDocuments
import Telemetry.Proofs.LineFraming
import Telemetry.Proofs.SharedReadings
import Telemetry.Proofs.EmptyOverrides
import Telemetry.Proofs.ListedPatterns
import Telemetry.Proofs.CollectedValues
import Telemetry.Proofs.NamespaceKeys
import Telemetry.Proofs.TagOverrides
import Telemetry.Proofs.DoubleOrder
import Telemetry.Proofs.TemplateInstances
import Telemetry.Proofs.WaitRange
