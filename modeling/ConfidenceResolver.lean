import ConfidenceResolver.Materialization.SuspendResume
import ConfidenceResolver.Materialization.Writes
import ConfidenceResolver.Materialization.Discovery
import ConfidenceResolver.Materialization.Stable
import ConfidenceResolver.Proto.Telemetry
import ConfidenceResolver.Support.Counters
import ConfidenceResolver.Telemetry.Snapshot
import ConfidenceResolver.Telemetry.Increments
import ConfidenceResolver.Telemetry.Merge
import ConfidenceResolver.Telemetry.Collector
import ConfidenceResolver.Telemetry.Telescope
import ConfidenceResolver.Telemetry.Concurrent
import ConfidenceResolver.Logs.Aggregate
import ConfidenceResolver.Logs.Conservation
import ConfidenceResolver.Logs.BoundedSet
import ConfidenceResolver.Logs.ResolveInfo
import ConfidenceResolver.Logs.ResolveLogger
import ConfidenceResolver.Logs.TwoPaths
import ConfidenceResolver.Logs.AssignLogger
import ConfidenceResolver.Logs.EventLogger
import ConfidenceResolver.Resolver.FromProto
import ConfidenceResolver.Resolver.Outcome
import ConfidenceResolver.Apply.ApplyFlags
import ConfidenceResolver.Apply.Deferred
import ConfidenceResolver.Apply.DedupKey
import ConfidenceResolver.Apply.ApplyDedup
import ConfidenceResolver.Apply.DedupWindow
import ConfidenceResolver.FlagLog.Buffer
import ConfidenceResolver.FlagLog.Turns
import ConfidenceResolver.FlagLog.Sink
import ConfidenceResolver.FlagLog.SinkInvariant
import ConfidenceResolver.FlagLog.Drain
import ConfidenceResolver.FlagLog.Ceiling
import ConfidenceResolver.FlagLog.Delivery
import ConfidenceResolver.FlagLog.Disposition
import ConfidenceResolver.Hosts.KvStore
import ConfidenceResolver.Evaluation.Failures
import ConfidenceResolver.Evaluation.Recursion
import ConfidenceResolver.Evaluation.Independence
import ConfidenceResolver.Resolver.GetResolver
import ConfidenceResolver.Evaluation.ManagedContext
import ConfidenceResolver.Evaluation.Traps
import ConfidenceResolver.Hosts.InitTelemetry
import ConfidenceResolver.Hosts.Shutdown
import ConfidenceResolver.Hosts.TypedValues
import ConfidenceResolver.Hosts.StateRefresh
import ConfidenceResolver.Hosts.StoreDelivery
import ConfidenceResolver.Logs.ByteLimit
import ConfidenceResolver.Apply.BatchDedup
import ConfidenceResolver.Hosts.DeliveryCounters
import ConfidenceResolver.Hosts.GoDelivery
import ConfidenceResolver.Hosts.JsDelivery
import ConfidenceResolver.Hosts.PythonDelivery
import ConfidenceResolver.Hosts.JsStateUpdate
import ConfidenceResolver.Hosts.Recovery
import ConfidenceResolver.Hosts.PythonState
import ConfidenceResolver.Proto.LogFields
import ConfidenceResolver.Hosts.RecoveredLogs
import ConfidenceResolver.Hosts.PythonCustody
import ConfidenceResolver.Support.Codes
import ConfidenceResolver.Apply.KeyEncoding
import ConfidenceResolver.Evaluation.UnknownSecret
import ConfidenceResolver.Support.PackedBits
import ConfidenceResolver.Evaluation.BloomFilter
import ConfidenceResolver.Support.Floats
import ConfidenceResolver.Evaluation.SetRules
import ConfidenceResolver.Evaluation.NullValues
import ConfidenceResolver.Evaluation.RangeRules
import ConfidenceResolver.Support.Firsts
import ConfidenceResolver.FlagLog.QueueDedup
import ConfidenceResolver.FlagLog.SplitReach
import ConfidenceResolver.Apply.AllOrNothing
import ConfidenceResolver.Evaluation.FullRollout
import ConfidenceResolver.Evaluation.ThreeValued
import ConfidenceResolver.Materialization.Justified
import ConfidenceResolver.Resolver.SchemaNulls
import ConfidenceResolver.Hosts.DedupReports
import ConfidenceResolver.Support.Scientific
import ConfidenceResolver.Telemetry.Prometheus
import ConfidenceResolver.Support.TextFormat
import ConfidenceResolver.Telemetry.Exposition
import ConfidenceResolver.Logs.ContextSchema
import ConfidenceResolver.Support.Places
import ConfidenceResolver.Logs.SharedSet
import ConfidenceResolver.Hosts.IntervalScheduler
import ConfidenceResolver.Telemetry.MergedMetrics
import ConfidenceResolver.Hosts.FlagBundle
import ConfidenceResolver.Hosts.UnmarshalFaithful
import ConfidenceResolver.Hosts.WasmTransfers
import ConfidenceResolver.Hosts.PooledResolver
import ConfidenceResolver.Hosts.GuestRuns
import ConfidenceResolver.Hosts.StickyRuns
import ConfidenceResolver.Hosts.EventDelivery
import ConfidenceResolver.FlagLog.QueueRuns
import ConfidenceResolver.FlagLog.QueueTelemetry
import ConfidenceResolver.Hosts.EventsQueue
