import CboxTelemetry.Lib.Run
import CboxTelemetry.Lib.InPlace
import CboxTelemetry.Crash.Items
import CboxTelemetry.Crash.Calls
import CboxTelemetry.Crash.Decode
import CboxTelemetry.Crash.Compact
import CboxTelemetry.Crash.Incremental
import CboxTelemetry.Crash.ExactlyOnce
import CboxTelemetry.Crash.Torn
import CboxTelemetry.Crash.World
import CboxTelemetry.Crash.NoneLost
import CboxTelemetry.Lib.OpenAddressing
import CboxTelemetry.Profiler.Arena
import CboxTelemetry.Profiler.Buckets
import CboxTelemetry.Profiler.Frames
import CboxTelemetry.Profiler.StackTree
import CboxTelemetry.Profiler.Sampling
import CboxTelemetry.Profiler.Collect
import CboxTelemetry.Profiler.Machine
import CboxTelemetry.Profiler.Conservation
import CboxTelemetry.Lib.Tally
import CboxTelemetry.Profiler.Output
import CboxTelemetry.Profiler.TopFunctions
import CboxTelemetry.Profiler.Faithful
import CboxTelemetry.Profiler.Room
import CboxTelemetry.Profiler.SampledPath
import CboxTelemetry.Profiler.Overruns
import CboxTelemetry.Breadcrumbs.Ring
import CboxTelemetry.Breadcrumbs.Interrupted
import CboxTelemetry.Crash.Signals
import CboxTelemetry.Extension.Operations
import CboxTelemetry.Extension.Recorder
import CboxTelemetry.Extension.Module
import CboxTelemetry.Extension.Worker
import CboxTelemetry.Extension.Lifecycle
import CboxTelemetry.Extension.Forks
import CboxTelemetry.Extension.Effects
import CboxTelemetry.Extension.Accounting
import CboxTelemetry.Lib.Layout
import CboxTelemetry.Crash.Fields
import CboxTelemetry.Extension.CrashEntry
import CboxTelemetry.Breadcrumbs.Wrapped
import CboxTelemetry.Extension.InFlight
import CboxTelemetry.Extension.Recording
import CboxTelemetry.Extension.Described
import CboxTelemetry.Extension.Identity
import CboxTelemetry.Lib.Product
import CboxTelemetry.Profiler.AlikeTables
import CboxTelemetry.Profiler.Alike
import CboxTelemetry.Profiler.Restart
import CboxTelemetry.Extension.AlikeOps
import CboxTelemetry.Profiler.Deferred
import CboxTelemetry.Profiler.Valve
import CboxTelemetry.Crash.CompactLoss
import CboxTelemetry.Crash.Touched
import CboxTelemetry.Crash.Checked
import CboxTelemetry.Extension.CheckedEntry
import CboxTelemetry.Profiler.Interning
import CboxTelemetry.Profiler.Refused
import CboxTelemetry.Extension.Innermost
import CboxTelemetry.Extension.Handles
import CboxTelemetry.Extension.Ids
import CboxTelemetry.Extension.Traced
import CboxTelemetry.Extension.Twin
import CboxTelemetry.Extension.Past
import CboxTelemetry.Extension.Bleed
import CboxTelemetry.Extension.TwinCalls
import CboxTelemetry.Extension.Isolation
import CboxTelemetry.Lib.Chain
import CboxTelemetry.Extension.InterruptChain
import CboxTelemetry.Profiler.StaleTick
import CboxTelemetry.Lib.FileTree
import CboxTelemetry.Lib.FirmPath
import CboxTelemetry.Crash.Directory
import CboxTelemetry.Extension.Adoption
import CboxTelemetry.Lib.Simulation
import CboxTelemetry.Profiler.TimerLock
import CboxTelemetry.Profiler.TimerAtomic
import CboxTelemetry.Profiler.TimerLinear
import CboxTelemetry.Profiler.TimerProgress
import CboxTelemetry.Extension.HookPromises
import CboxTelemetry.Extension.HookedCalls
import CboxTelemetry.Extension.Host
import CboxTelemetry.Extension.HostPromises
import CboxTelemetry.Profiler.Driven
import CboxTelemetry.Crash.Writes
import CboxTelemetry.Extension.Driver
import CboxTelemetry.Extension.Limits
