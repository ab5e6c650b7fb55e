import CboxTelemetry.Profiler.Frames
import CboxTelemetry.Profiler.StackTree
import CboxTelemetry.Profiler.Timer

/-!
# The sampling profiler

The timer's signal only adds to two counters. The engine calls the interrupt handler at the next safe
point, which takes what is pending, walks the stack and books the ticks on it. `State` is the static
`cbox_profiler` with these two counters and the timer, and every function here is one of `profiler.c`.

The interrupt handler takes its two counters with two separate exchanges. It is cut there
(`takeTicks`, `takeDeliveries`, then `serve`), and so is `stop`, so that ticks can land in between.
-/

namespace CboxTelemetry.Profiler

/-! ## The engine's side -/

/-- What the stack walk reads of a `zend_function`. -/
structure ZendFunction where
  scopeName : Option Bytes
  functionName : Option Bytes
  userCode : Bool
  filename : Option Bytes
  lineStart : UInt32
  deriving DecidableEq

/-- The chain of `zend_execute_data`, innermost first. A frame can be without a function. -/
abbrev Stack := List (Option ZendFunction)

/-- A reading of the monotonic clock: nanoseconds since the machine was started. -/
structure Instant where
  ns : Nat
  lt : ns < 2 ^ 63
  deriving DecidableEq

theorem Instant.mod_lt (n : Nat) : n % 2 ^ 63 < 2 ^ 63 := Nat.mod_lt n (Nat.two_pow_pos 63)

instance (n : Nat) : OfNat Instant n := ⟨⟨n % 2 ^ 63, Instant.mod_lt n⟩⟩

/-! ## State -/

def profilerDepthHardMax : Nat := 256

/-- The static `cbox_profiler`, with the signal handler's counters and the timer. `CBOX_FRAME_NONE` is
`none`. -/
structure State where
  arena : Arena
  frames : FrameTable
  tree : StackTree
  periodNs : Nat
  samples : Nat
  dropped : Nat
  deferred : Nat
  interrupts : Nat
  ticks : Nat
  deadlineCheckedAt : Nat
  deadlineTicksAt : Nat
  deferredEvents : Nat
  timerOverruns : Nat
  maxDeferred : Nat
  deadlineNs : Nat
  maxDepth : Nat
  truncatedFrame : Option Nat
  engineFrame : Option Nat
  ready : Bool
  running : Bool
  capped : Bool
  pendingTicks : Nat
  pendingDeliveries : Nat
  timer : Timer

namespace State

/-- Before `cbox_profiler_init`: everything zero. -/
def blank : State where
  arena := .cleared
  frames := .cleared
  tree := .cleared
  periodNs := 0
  samples := 0
  dropped := 0
  deferred := 0
  interrupts := 0
  ticks := 0
  deadlineCheckedAt := 0
  deadlineTicksAt := 0
  deferredEvents := 0
  timerOverruns := 0
  maxDeferred := 0
  deadlineNs := 0
  maxDepth := 0
  truncatedFrame := none
  engineFrame := none
  ready := false
  running := false
  capped := false
  pendingTicks := 0
  pendingDeliveries := 0
  timer := .blank

/-! ## Signal context -/

/-- `cbox_profiler_tick`. -/
def tick (s : State) (ticks : Nat) : State := { s with
  pendingTicks := u32 (s.pendingTicks + if ticks = 0 then 1 else ticks)
  pendingDeliveries := u32 (s.pendingDeliveries + 1) }

/-- `CBOX_ATOMIC_TAKE(&cbox_pending_ticks)`. -/
def takeTicks (s : State) : Nat × State := (s.pendingTicks, { s with pendingTicks := 0 })

/-- `CBOX_ATOMIC_TAKE(&cbox_pending_deliveries)`. -/
def takeDeliveries (s : State) : Nat × State :=
  (s.pendingDeliveries, { s with pendingDeliveries := 0 })

/-! ## Stack walk -/

/-- `cbox_name_append` on the bytes built so far. -/
def nameAppend (name bytes : Bytes) : Bytes := name ++ bytes.take (frameNameMax - name.length)

/-- The name that `cbox_profiler_frame_for` builds. -/
def frameName (f : ZendFunction) : Bytes :=
  let name := match f.scopeName with
    | some scope => nameAppend (nameAppend [] scope) (ascii "::")
    | none => []
  match f.functionName with
  | some function => nameAppend name function
  | none => nameAppend name (ascii "{main}")

/-- `cbox_frames_intern` on the profiler's own table and arena. -/
def intern (s : State) (name file : Bytes) (line : UInt32) : Option (Option Nat × State) :=
  match s.frames.intern s.arena name file line with
  | none => none
  | some (id, frames, arena) => some (id, { s with frames := frames, arena := arena })

/-- `cbox_profiler_frame_for`. -/
def frameFor (s : State) (f : ZendFunction) : Option (Option Nat × State) :=
  let file := if f.userCode then f.filename.getD [] else []
  let line := if f.userCode then f.lineStart else 0
  s.intern (frameName f) file line

/-- `cbox_profiler_engine_frame`. -/
def engineFrameId (s : State) : Option (Option Nat × State) :=
  match s.engineFrame with
  | some id => some (some id, s)
  | none =>
    match s.intern (ascii "<engine>") [] 0 with
    | none => none
    | some (id, s) => some (id, { s with engineFrame := id })

/-- `cbox_profiler_truncation_frame`. -/
def truncationFrameId (s : State) : Option (Option Nat × State) :=
  match s.truncatedFrame with
  | some id => some (some id, s)
  | none =>
    match s.intern (ascii "<truncated>") [] 0 with
    | none => none
    | some (id, s) => some (id, { s with truncatedFrame := id })

/-- How the walk over the stack ends: with the frames found, innermost first, and whether the stack
was cut off; or with a frame that could not be interned. -/
inductive Walk
  | walked (ids : List Nat) (truncated : Bool)
  | dropped
  deriving DecidableEq

/-- The first loop of `cbox_profiler_collect`. -/
def walk (maxDepth : Nat) : Stack → State → List Nat → Option (Walk × State)
  | [], s, ids => some (.walked ids false, s)
  | none :: stack, s, ids => walk maxDepth stack s ids
  | some f :: stack, s, ids =>
    if maxDepth ≤ ids.length then some (.walked ids true, s)
    else
      match s.frameFor f with
      | none => none
      | some (none, s) => some (.dropped, s)
      | some (some id, s) => walk maxDepth stack s (ids ++ [id])

/-- The depth limit `cbox_profiler_collect` walks to. -/
def depthLimit (s : State) : Nat :=
  if s.maxDepth = 0 ∨ profilerDepthHardMax < s.maxDepth then profilerDepthHardMax else s.maxDepth

/-- The path on which `cbox_profiler_collect` books a sample, from the root down, or `none` when a
frame on it cannot be had. A truncated stack starts with the marker, if there is room for it, and a
stack without functions is the engine's. -/
def samplePath (s : State) (stack : Stack) : Option (Option (List Nat) × State) :=
  match walk s.depthLimit stack s [] with
  | none => none
  | some (.dropped, s) => some (none, s)
  | some (.walked ids true, s) =>
    match s.truncationFrameId with
    | none => none
    | some (none, s) => some (some ids.reverse, s)
    | some (some marker, s) => some (some (marker :: ids.reverse), s)
  | some (.walked ids false, s) =>
    if ids.length = 0 then
      match s.engineFrameId with
      | none => none
      | some (none, s) => some (none, s)
      | some (some engine, s) => some (some [engine], s)
    else some (some ids.reverse, s)

/-- A sample that cannot be stored. -/
def drop (s : State) (weight : Nat) : State := { s with dropped := u64 (s.dropped + weight) }

/-- `cbox_profiler_collect`; `none` when one of its probe loops does not end. Frames are interned before
the first node is looked for, so the path can be found first and then descended. -/
def collect (s : State) (stack : Stack) (weight : Nat) : Option State :=
  match s.samplePath stack with
  | none => none
  | some (none, s) => some (s.drop weight)
  | some (some path, s) =>
    match s.tree.descend nodeRoot path with
    | none => none
    | some (none, tree) => some ({ s with tree := tree }.drop weight)
    | some (some node, tree) =>
      some { s with tree := tree.record node weight, samples := u64 (s.samples + weight) }

/-! ## Start and stop -/

/-- `cbox_profiler_reset`. -/
def reset (s : State) : State :=
  if !s.ready then s
  else { s with
    arena := s.arena.reset
    frames := s.frames.reset
    tree := s.tree.reset
    samples := 0
    dropped := 0
    deferred := 0
    interrupts := 0
    ticks := 0
    deadlineCheckedAt := 0
    deadlineTicksAt := 0
    deferredEvents := 0
    timerOverruns := 0
    maxDeferred := 0
    truncatedFrame := none
    engineFrame := none
    capped := false }

/-- What `cbox_profiler_stop` does before its exchanges. -/
def halt (s : State) : State := { s with timer := s.timer.disarm, running := false }

/-- `cbox_profiler_stop`. -/
def stop (s : State) : State :=
  if !s.running then s else s.halt.takeTicks.2.takeDeliveries.2

/-- `cbox_profiler_start`; the result says whether it returned 0. -/
def start (s : State) (periodNs maxDepth maxDurationNs : Nat) (now : Instant) (io : TimerIo) :
    Bool × State :=
  if !s.ready || periodNs == 0 then (false, s)
  else
    let maxDepth :=
      if maxDepth = 0 ∨ profilerDepthHardMax < maxDepth then profilerDepthHardMax else maxDepth
    let s := { s.reset with
      maxDepth := maxDepth
      periodNs := periodNs
      deadlineNs := if maxDurationNs = 0 then 0 else u64 (now.ns + maxDurationNs) }
    match s.timer.arm io periodNs with
    | (false, timer) => (false, { s with timer := timer, periodNs := 0 })
    | (true, timer) => (true, { s with timer := timer, running := true })

/-- `cbox_profiler_clear_deadline`. -/
def clearDeadline (s : State) : State := { s with deadlineNs := 0 }

/-- `cbox_profiler_after_fork`. -/
def afterFork (s : State) : State := { s with running := false }.takeTicks.2.takeDeliveries.2.reset

/-- The `memset` of `cbox_profiler_init`, which the signal handler's counters and the timer are not part
of. -/
def zeroed (s : State) : State := { blank with
  pendingTicks := s.pendingTicks
  pendingDeliveries := s.pendingDeliveries
  timer := s.timer }

/-- `cbox_profiler_init`, with the outcomes of its allocations: the arena's slab, and whether the two
tables get their memory. -/
def init (s : State) (maxFrames maxNodes : Nat) (slab : Option Bytes) (frames nodes : Bool) :
    Bool × State :=
  if s.ready then (true, s)
  else
    match slab.bind Arena.init with
    | none => (false, s.zeroed)
    | some arena =>
      match if frames then FrameTable.init maxFrames else none with
      | none => (false, s.zeroed)
      | some frames =>
        match if nodes then StackTree.init maxNodes else none with
        | none => (false, s.zeroed)
        | some tree =>
          (true, { s.zeroed with arena := arena, frames := frames, tree := tree, ready := true })

/-! ## Safe points -/

/-- The counters that `cbox_profiler_interrupt` keeps before it collects. -/
def account (s : State) (pending deliveries : Nat) : State := { s with
  interrupts := u64 (s.interrupts + 1)
  ticks := u64 (s.ticks + pending)
  timerOverruns :=
    if deliveries < pending then u64 (s.timerOverruns + (pending - deliveries)) else s.timerOverruns
  deferred := if 1 < deliveries then u64 (s.deferred + (deliveries - 1)) else s.deferred
  deferredEvents := if 1 < deliveries then u64 (s.deferredEvents + 1) else s.deferredEvents
  maxDeferred := if 1 < deliveries then max s.maxDeferred (deliveries - 1) else s.maxDeferred }

/-- Subtraction of `uint64_t`. -/
def sub64 (a b : Nat) : Nat := u64 (a + (2 ^ 64 - b))

/-- Whether the deadline is looked at now. -/
def deadlineDue (s : State) : Bool :=
  s.deadlineNs != 0
    && (decide (512 ≤ sub64 s.interrupts s.deadlineCheckedAt)
      || decide (512 ≤ sub64 s.ticks s.deadlineTicksAt))

/-- Whether `cbox_profiler_interrupt` books what it has taken. -/
def books (s : State) (pending : Nat) : Bool := decide (0 < pending) && s.running && s.ready

/-- The booking of what the two exchanges of `cbox_profiler_interrupt` have taken. -/
def book (s : State) (stack : Stack) (pending deliveries : Nat) : Option State :=
  (s.account pending deliveries).collect stack pending

/-- The look at the deadline: whether it has passed. The clock is read only where it is due. -/
def checkDeadline (s : State) (now : Instant) : Bool × State :=
  (s.deadlineDue && decide (s.deadlineNs < now.ns), { s with
    deadlineCheckedAt := if s.deadlineDue then s.interrupts else s.deadlineCheckedAt
    deadlineTicksAt := if s.deadlineDue then s.ticks else s.deadlineTicksAt })

/-- `cbox_profiler_interrupt` after its two exchanges, up to the chained handler. -/
def serve (s : State) (stack : Stack) (pending deliveries : Nat) (now : Instant) : Option State :=
  if s.books pending then
    match s.book stack pending deliveries with
    | none => none
    | some s =>
      if (s.checkDeadline now).1 then some { (s.checkDeadline now).2.stop with capped := true }
      else some (s.checkDeadline now).2
  else some s

/-- `cbox_profiler_interrupt`, with the ticks that land between its two exchanges. -/
def interrupt (s : State) (stack : Stack) (between : List Nat) (now : Instant) : Option State :=
  let (pending, s) := s.takeTicks
  let s := between.foldl tick s
  let (deliveries, s) := s.takeDeliveries
  s.serve stack pending deliveries now

end State

end CboxTelemetry.Profiler
