import CboxTelemetry.Extension.Recorder
import CboxTelemetry.Profiler.Output

/-!
# The extension

The module's globals with the profiler and the recorder, and the functions of `cbox_telemetry.c`. A call
is one step: the timer's signal can land inside it, but it only counts, and every function that stops the
profiler disarms the timer before it throws away what was counted.

What a call asks the engine and the system for is in its `CallEnv`. The functions of PHP have the order of
the source: a call first finds out whether it runs in a forked child.
-/

namespace CboxTelemetry.Extension

open Breadcrumbs (CrumbRing Push)
open Profiler (Instant Stack TimerIo Profile)

/-! ## Settings -/

/-- `cbox_clamp`. -/
def clamp (value min max : Int) : Int :=
  if value < min then min else if max < value then max else value

def periodUsMin : Int := 100
def periodUsMax : Int := 100000
def depthMax : Int := 256
def crumbsMin : Int := 16
def crumbsMax : Int := 4096
def autoMaxMsMin : Int := 1000
def autoMaxMsMax : Int := 3600000

/-- The settings as they are given. -/
structure Ini where
  enabled : Bool
  profilerEnabled : Bool
  periodUs : Int
  maxDepth : Int
  maxFrames : Int
  maxNodes : Int
  crumbCapacity : Int
  crashEnabled : Bool
  crashDir : Option Bytes
  autoStart : Bool
  autoMaxMs : Int

/-- The module's globals, `cbox_profiler` with its timer, and the statics of the recorder. -/
structure Globals where
  enabled : Bool
  profilerEnabled : Bool
  periodUs : Int
  maxDepth : Int
  maxFrames : Int
  maxNodes : Int
  crashEnabled : Bool
  autoStart : Bool
  autoMaxMs : Int
  unit : UnitState
  ops : OpState
  crumbs : CrumbRing
  nextHandle : UInt32
  ownerPid : Int
  gcRunsAtBegin : UInt64
  gcCollectedAtBegin : UInt64
  active : Bool
  prof : Profiler.State
  recorder : Recorder

/-- What a call reads and asks for: the process it runs in, the clock (once, and again when the profiler is
started), the collector's counters, the timer, and the recorder's directory. -/
structure CallEnv where
  pid : Int
  now : Instant
  startNow : Instant
  gcRuns : UInt64
  gcCollected : UInt64
  timer : TimerIo
  sink : Recorder.SinkIo

/-- How the calls of module startup come out. -/
structure StartupIo where
  crumbs : Bool
  slab : Option (Nat → UInt8)
  frames : Bool
  nodes : Bool
  timer : Bool
  sigaction : Bool
  moduleBase : UInt64

/-! ## Requests and results -/

/-- What a unit asks for when it is opened. -/
structure UnitRequest where
  type : UnitType
  sampled : Bool
  wantProfile : Bool
  periodUs : Int
  maxDepth : Int

/-- The `counters` of a result. -/
structure Counters where
  profilerSamples : Nat
  profilerDropped : Nat
  deferredSamples : Nat
  deferredEvents : Nat
  maxDeferred : Nat
  timerOverruns : Nat
  periodNs : Nat
  gcRuns : UInt64
  gcCollected : UInt64
  opsOverflow : UInt32
  breadcrumbsWritten : Nat
  arenaPeakBytes : Nat
  frameCapacityHits : Nat
  nodeCapacityHits : Nat
  capped : Bool
  frames : Nat
  nodes : Nat
  deriving DecidableEq

/-- The array that `finish` returns. -/
structure FinishResult where
  durationNs : UInt64
  unit : Bytes
  sampled : Bool
  profiling : Bool
  automatic : Bool
  operations : List (Bytes × OpAgg)
  counters : Counters
  profile : Option Profile
  deriving DecidableEq

/-- The `limits` of `status`. -/
structure Limits where
  periodUs : Int
  maxDepth : Int
  maxFrames : Int
  maxNodes : Int
  breadcrumbs : Nat
  autoMaxMs : Int
  deriving DecidableEq

/-- The part of `status` that is about the unit, the profiler and the recorder. -/
structure Status where
  enabled : Bool
  profilerEnabled : Bool
  profilerRunning : Bool
  autoStart : Bool
  unitHandle : UInt32
  unitAutomatic : Bool
  profilerSamples : Nat
  profilerDropped : Nat
  arenaPeakBytes : Nat
  breadcrumbsWritten : Nat
  crashRecorder : CrashStatus
  crashPath : Option Crash.Name
  limits : Limits
  deriving DecidableEq

/-- A reading of the clock in the fields of a record. -/
def clock (now : Instant) : UInt64 := .ofNat now.ns

namespace Globals

/-! ## Startup -/

/-- `MINIT`. Settings out of range are clamped, and a failure leaves the extension without the part that
failed. -/
def minit (ini : Ini) (io : StartupIo) (pid : Int) : Globals :=
  let g : Globals := {
    enabled := ini.enabled
    profilerEnabled := ini.profilerEnabled
    periodUs := ini.periodUs
    maxDepth := ini.maxDepth
    maxFrames := ini.maxFrames
    maxNodes := ini.maxNodes
    crashEnabled := ini.crashEnabled
    autoStart := ini.autoStart
    autoMaxMs := ini.autoMaxMs
    unit := .cleared
    ops := .cleared
    crumbs := .cleared
    nextHandle := 0
    ownerPid := 0
    gcRunsAtBegin := 0
    gcCollectedAtBegin := 0
    active := false
    prof := .blank
    recorder := .cleared }
  if !ini.enabled then g
  else
    let maxFrames := clamp ini.maxFrames Profiler.framesMin Profiler.framesMax
    let maxNodes := clamp ini.maxNodes Profiler.nodesMin Profiler.nodesMax
    let g := { g with
      periodUs := clamp ini.periodUs periodUsMin periodUsMax
      maxDepth := clamp ini.maxDepth 1 depthMax
      maxFrames := maxFrames
      maxNodes := maxNodes
      autoMaxMs := clamp ini.autoMaxMs autoMaxMsMin autoMaxMsMax
      crumbs := (CrumbRing.init (clamp ini.crumbCapacity crumbsMin crumbsMax).toNat io.crumbs).2 }
    if !(CrumbRing.init (clamp ini.crumbCapacity crumbsMin crumbsMax).toNat io.crumbs).1 then g
    else
      let slab := io.slab.map fun byte =>
        (List.range (maxFrames.toNat * Profiler.arenaBytesPerFrame)).map byte
      let g :=
        if !ini.profilerEnabled then g
        else
          match Profiler.State.init .blank maxFrames.toNat maxNodes.toNat slab io.frames io.nodes with
          | (false, prof) => { g with prof := prof, profilerEnabled := false }
          | (true, prof) =>
            match prof.timer.init io.timer with
            | (false, timer) => { g with prof := { prof with timer := timer }, profilerEnabled := false }
            | (true, timer) => { g with prof := { prof with timer := timer } }
      { g with
        recorder :=
          if ini.crashEnabled then g.recorder.crashInstall ini.crashDir io.sigaction io.moduleBase
          else g.recorder
        active := true
        ownerPid := pid }

/-! ## Forks -/

/-- What `cbox_detect_fork` does in a child. -/
def repair (g : Globals) (env : CallEnv) : Globals := { g with
  ownerPid := env.pid
  prof := { g.prof.afterFork with timer := g.prof.afterFork.timer.afterFork }
  unit := .cleared
  ops := g.ops.opsReset
  recorder := if g.crashEnabled then g.recorder.crashOpenSink env.sink env.pid else g.recorder }

/-- `cbox_detect_fork`. -/
def detectFork (g : Globals) (env : CallEnv) : Globals :=
  if g.ownerPid = env.pid then g
  else if !g.active then { g with ownerPid := env.pid }
  else g.repair env

/-! ## Units -/

/-- `CBOX_CRUMB_UNIT_BEGIN` and the other kinds of breadcrumb. -/
def crumbUnitBegin : UInt8 := 1
def crumbUnitEnd : UInt8 := 2
def crumbOpBegin : UInt8 := 3
def crumbOpEnd : UInt8 := 4

/-- A breadcrumb of a kind, with a code and a label. -/
def pushCrumb (g : Globals) (kind code : UInt8) (label : Bytes) (now : UInt64) : Globals :=
  { g with crumbs := g.crumbs.push ⟨kind, code, some label, now⟩ }

/-- `++CBOX_G(next_handle)`, which leaves zero out. -/
def advanceHandle (handle : UInt32) : UInt32 := if handle + 1 = 0 then 1 else handle + 1

/-- `cbox_profiler_start` with a clamped request. -/
def startProfiler (g : Globals) (request : UnitRequest) (maxDurationNs : Nat) (env : CallEnv) : Globals :=
  let started := g.prof.start ((clamp request.periodUs periodUsMin periodUsMax).toNat * 1000)
    (clamp request.maxDepth 1 depthMax).toNat maxDurationNs env.startNow env.timer
  { g with
    prof := started.2
    unit := if started.1 then { g.unit with profiling := true } else g.unit }

/-- `cbox_unit_open` before it sees to the profiler. -/
def openUnit (g : Globals) (request : UnitRequest) (automatic : Bool) (env : CallEnv) : Globals :=
  let handle := advanceHandle g.nextHandle
  { g with
    nextHandle := handle
    unit := { UnitState.cleared with
      handle := handle
      type := request.type
      sampled := request.sampled
      automatic := automatic
      startNs := clock env.now }
    ops := g.ops.opsReset
    gcRunsAtBegin := env.gcRuns
    gcCollectedAtBegin := env.gcCollected }.pushCrumb crumbUnitBegin request.type.code
      (unitTypeName request.type.code) (clock env.now)

/-- `cbox_unit_open`. Only an automatic unit gets a deadline. -/
def unitOpen (g : Globals) (request : UnitRequest) (automatic : Bool) (env : CallEnv) : Globals :=
  let g := g.openUnit request automatic env
  if request.wantProfile && request.sampled && g.profilerEnabled then
    g.startProfiler request (if automatic then g.autoMaxMs.toNat * 1000000 else 0) env
  else { g with prof := g.prof.reset }

/-- The unit type that `begin` is asked for. -/
def contextType (context : Context) : Option UnitType :=
  match contextFind context "unit" with
  | some (.string name) => some (unitTypeFrom name)
  | _ => none

/-- The number in a context, or the setting. -/
def contextLong (context : Context) (key : String) (setting : Int) : Int :=
  match contextFind context key with
  | some (.long value) => value
  | _ => setting

/-- The flag in a context. It is set when nothing is said. -/
def contextFlag (context : Context) (key : String) : Bool :=
  match contextFind context key with
  | some value => contextTruthy value true
  | none => true

/-- What `begin` reads of its context. -/
def readContext (g : Globals) (context : Option Context) : UnitRequest where
  type := (contextType (context.getD [])).getD .other
  sampled := contextFlag (context.getD []) "sampled"
  wantProfile := contextFlag (context.getD []) "profile"
  periodUs := contextLong (context.getD []) "period_us" g.periodUs
  maxDepth := contextLong (context.getD []) "max_depth" g.maxDepth

/-- The branch of `begin` that takes over the unit the engine opened. -/
def adopt (g : Globals) (context : Option Context) (env : CallEnv) : Globals :=
  let request := g.readContext context
  let g := { g with unit := { g.unit with
    adopted := true
    sampled := request.sampled
    type := (contextType (context.getD [])).getD g.unit.type } }
  let g :=
    if !request.sampled || !request.wantProfile then
      { g with prof := g.prof.stop.reset, unit := { g.unit with profiling := false } }
    else if !g.unit.profiling && g.profilerEnabled then g.startProfiler request 0 env
    else g
  { g with
    prof := g.prof.clearDeadline
    unit := { g.unit with automatic := true }.applyTrace context }

/-- A unit that `begin` can adopt. -/
def adoptable (g : Globals) : Bool := g.unit.handle != 0 && g.unit.automatic && !g.unit.adopted

/-- `cbox_telemetry_begin` after the look for a fork. -/
def beginUnit (g : Globals) (context : Option Context) (env : CallEnv) : Globals :=
  if g.adoptable then g.adopt context env
  else
    let request := g.readContext context
    let g := if g.unit.handle ≠ 0 then { g with prof := g.prof.stop } else g
    let g := g.unitOpen request false env
    { g with unit := g.unit.applyTrace context }

/-- `cbox_telemetry_begin`. -/
def begin (g : Globals) (context : Option Context) (env : CallEnv) : UInt32 × Globals :=
  if !g.active || !g.enabled then (0, g)
  else
    let g := (g.detectFork env).beginUnit context env
    (g.unit.handle, g)

/-! ## The end of a unit -/

/-- The `operations` of a result: the types that have been counted. -/
def operations (s : OpState) : List (Bytes × OpAgg) :=
  (opTypes.filter fun type => (s.agg type).count ≠ 0).map fun type => (type.name, s.agg type)

def counters (g : Globals) (env : CallEnv) : Counters where
  profilerSamples := g.prof.samples
  profilerDropped := g.prof.dropped
  deferredSamples := g.prof.deferred
  deferredEvents := g.prof.deferredEvents
  maxDeferred := g.prof.maxDeferred
  timerOverruns := g.prof.timerOverruns
  periodNs := g.prof.periodNs
  gcRuns := env.gcRuns - g.gcRunsAtBegin
  gcCollected := env.gcCollected - g.gcCollectedAtBegin
  opsOverflow := g.ops.overflow
  breadcrumbsWritten := g.crumbs.written
  arenaPeakBytes := g.prof.arena.peak
  frameCapacityHits := g.prof.frames.capacityHits
  nodeCapacityHits := g.prof.tree.capacityHits
  capped := g.prof.capped
  frames := g.prof.frames.frames.length
  nodes := g.prof.tree.nodes.length

/-- The result of `finish` for a unit whose profiler has been stopped. -/
def result (g : Globals) (includeProfile includeStacks : Bool) (env : CallEnv) : FinishResult where
  durationNs := elapsed g.unit.startNs (clock env.now)
  unit := unitTypeName g.unit.type.code
  sampled := g.unit.sampled
  profiling := g.unit.profiling
  automatic := g.unit.automatic
  operations := operations g.ops
  counters := g.counters env
  profile :=
    if includeProfile && g.unit.profiling && decide (0 < g.prof.samples) then
      some (g.prof.profileInto includeStacks)
    else none

/-- The end of a unit, in `finish` and at `RSHUTDOWN`. -/
def closeUnit (g : Globals) : Globals :=
  { g with prof := g.prof.reset, ops := g.ops.opsReset, unit := .cleared }

/-- `cbox_telemetry_finish` after the look for a fork. An empty array is `none`. -/
def finishUnit (g : Globals) (handle : Int) (includeProfile includeStacks : Bool) (env : CallEnv) :
    Option FinishResult × Globals :=
  if !g.active || g.unit.handle = 0 then (none, g)
  else if handle ≠ 0 ∧ (g.unit.handle.toNat : Int) ≠ handle then (none, g)
  else
    let g := { g with prof := g.prof.stop }
    (some (g.result includeProfile includeStacks env),
      (g.pushCrumb crumbUnitEnd g.unit.type.code (unitTypeName g.unit.type.code) (clock env.now)).closeUnit)

/-- `cbox_telemetry_finish`. -/
def finish (g : Globals) (handle : Int) (includeProfile includeStacks : Bool) (env : CallEnv) :
    Option FinishResult × Globals :=
  (g.detectFork env).finishUnit handle includeProfile includeStacks env

/-- `cbox_telemetry_status`. -/
def status (g : Globals) (env : CallEnv) : Status × Globals :=
  let g := g.detectFork env
  ({ enabled := g.enabled && g.active
     profilerEnabled := g.profilerEnabled
     profilerRunning := g.prof.running
     autoStart := g.autoStart
     unitHandle := g.unit.handle
     unitAutomatic := g.unit.automatic
     profilerSamples := g.prof.samples
     profilerDropped := g.prof.dropped
     arenaPeakBytes := g.prof.arena.peak
     breadcrumbsWritten := g.crumbs.written
     crashRecorder := g.recorder.status
     crashPath := g.recorder.path
     limits := {
       periodUs := clamp g.periodUs periodUsMin periodUsMax
       maxDepth := clamp g.maxDepth 1 depthMax
       maxFrames := g.maxFrames
       maxNodes := g.maxNodes
       breadcrumbs := g.crumbs.capacity
       autoMaxMs := g.autoMaxMs } }, g)

/-! ## Requests -/

/-- `cbox_unit_type_for_sapi`. -/
def unitTypeForSapi (sapi : Option Bytes) : UnitType :=
  match sapi with
  | none => .other
  | some name => if name = ascii "cli" ∨ name = ascii "phpdbg" then .command else .http

/-- `RINIT`, apart from the hooks it installs. -/
def rinit (g : Globals) (sapi : Option Bytes) (env : CallEnv) : Globals :=
  let g := g.detectFork env
  let g :=
    if g.active && g.crashEnabled then { g with recorder := g.recorder.crashOpenSink env.sink env.pid }
    else g
  if g.active && g.enabled && g.autoStart && g.unit.handle == 0 then
    g.unitOpen ⟨unitTypeForSapi sapi, true, true, g.periodUs, g.maxDepth⟩ true env
  else g

/-- `RSHUTDOWN`. -/
def rshutdown (g : Globals) : Globals :=
  if g.unit.handle ≠ 0 then { g with prof := g.prof.stop }.closeUnit else g

/-! ## Operations -/

/-- `cbox_telemetry_note_op_begin`. -/
def noteOpBegin (g : Globals) (type : OpType) (now : UInt64) : OpToken × Globals :=
  let g := g.pushCrumb crumbOpBegin type.code type.name now
  if g.unit.handle ≠ 0 then ((g.ops.opsBegin type now).1, { g with ops := (g.ops.opsBegin type now).2 })
  else (⟨type, now, none, g.ops.generation⟩, g)

/-- `cbox_telemetry_note_op_end`. -/
def noteOpEnd (g : Globals) (token : OpToken) (now : UInt64) : Globals :=
  let g := if g.unit.handle ≠ 0 then { g with ops := g.ops.opsEnd token now } else g
  g.pushCrumb crumbOpEnd token.type.code token.type.name now

/-- A hooked call that begins changes the breadcrumbs, and the operations if there is a unit. -/
theorem noteOpBegin_frame (g : Globals) (type : OpType) (now : UInt64) : (g.noteOpBegin type now).2 = { g with
    ops := if g.unit.handle ≠ 0 then (g.ops.opsBegin type now).2 else g.ops
    crumbs := g.crumbs.push ⟨crumbOpBegin, type.code, some type.name, now⟩ } := by
  by_cases hclosed : g.unit.handle = 0
  · simp [noteOpBegin, pushCrumb, hclosed]
  · simp [noteOpBegin, pushCrumb, hclosed]

/-- And so does one that ends. -/
theorem noteOpEnd_frame (g : Globals) (token : OpToken) (now : UInt64) : g.noteOpEnd token now = { g with
    ops := if g.unit.handle ≠ 0 then g.ops.opsEnd token now else g.ops
    crumbs := g.crumbs.push ⟨crumbOpEnd, token.type.code, some token.type.name, now⟩ } := by
  by_cases hclosed : g.unit.handle = 0
  · simp [noteOpEnd, pushCrumb, hclosed]
  · simp [noteOpEnd, pushCrumb, hclosed]

end Globals

end CboxTelemetry.Extension
