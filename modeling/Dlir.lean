import Dlir.Collectives.Mesh
import Dlir.Collectives.InMemoryBarrier
import Dlir.Collectives.Schedules
import Dlir.Collectives.BarrierTimeout
import Dlir.Collectives.BarrierSafety
import Dlir.Collectives.BarrierProgress
import Dlir.Collectives.WireExact
import Dlir.Collectives.AggregationExact
import Dlir.Collectives.TimedReceive
import Dlir.Collectives.Isolation
import Dlir.Collectives.Laws
import Dlir.Collectives.SharedEndpoint
import Dlir.Runtime.Model.CacheAppend
import Dlir.Pipeline.Loading
import Dlir.Pipeline.Wrapping
import Dlir.Cli.Resources
import Dlir.Cli.Launchers
import Dlir.Cli.Genuine
import Dlir.Tensor.Plan
import Dlir.Tui.Confluence
import Dlir.Runtime.Model.Failures
import Dlir.Tui.Totals
import Dlir.Runtime.ByteSize
import Dlir.Cli.Cpuset
import Dlir.Collectives.Aggregation
import Dlir.Collectives.InMemoryBenchmark
import Dlir.Cli.Agreement
import Dlir.Pipeline.Composition
import Dlir.Runtime.Outcome
import Dlir.Pipeline.Traffic
import Dlir.Framework.Relay
import Dlir.Cli.CacheBytes
