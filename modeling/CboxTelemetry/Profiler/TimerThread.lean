import CboxTelemetry.Profiler.Conservation
import CboxTelemetry.Profiler.Functions

/-!
# The timer thread

The backend of `timer_thread.c`: a sampler thread sleeps for the period and counts a tick, while the request
thread arms and disarms the timer and serves the engine's interrupts. The two share the statics of the timer
and the two counters of ticks. A step is what one of the threads does between two accesses to these, and a
critical section is one step: apart from the flag, which it writes once, nobody looks at what it changes
without the lock. `pthread_cond_wait` can return at any time.

`Tick` and the lists of a `Threads` are history that the program does not keep. The calls that change the
timer are numbered, so an arming has the number of its call, and a unit that is sampled has the number of
its arming.
-/

namespace CboxTelemetry.Profiler

/-! ## The statics -/

/-- `cbox_timer_installed`, `cbox_timer_stopping`, `cbox_timer_period_ns` and `cbox_timer_is_armed`. -/
structure ThreadTimer where
  installed : Bool
  stopping : Bool
  periodNs : Nat
  isArmed : Bool
  deriving DecidableEq

namespace ThreadTimer

/-- Before `cbox_timer_init`. -/
def blank : ThreadTimer := ⟨false, false, 0, false⟩

/-- `cbox_timer_arm`. -/
def arm (t : ThreadTimer) (periodNs : Nat) : Bool × ThreadTimer :=
  if !t.installed || periodNs == 0 then (false, t)
  else (true, { t with periodNs := periodNs, isArmed := true })

/-- `cbox_timer_disarm`. -/
def disarm (t : ThreadTimer) : ThreadTimer := { t with isArmed := false }

/-- `cbox_timer_shutdown` up to `pthread_join`. -/
def shutdown (t : ThreadTimer) : ThreadTimer := { t with stopping := true, isArmed := false }

/-- The rest of `cbox_timer_shutdown`. -/
def joined (t : ThreadTimer) : ThreadTimer := { t with installed := false, stopping := false }

end ThreadTimer

/-! ## The sampler thread -/

/-- A tick: the period that the sampler has slept, and how many calls there had been when it read the period
and when it woke up. -/
structure Tick where
  periodNs : Nat
  read : Nat
  woken : Nat
  deriving DecidableEq

/-- Where `cbox_timer_main` is. There is no thread before `pthread_create` and after the loop. -/
inductive SamplerPc
  | absent
  | locking
  | waiting
  | sleeping (periodNs read : Nat)
  | checking (tick : Tick)
  | ticking (tick : Tick)
  | delivering
  deriving DecidableEq

/-! ## The two threads -/

/-- The profiler, the request thread, the timer and the sampler. `calls` has an entry for each call that has
changed the timer, with the period for an arming; `pending` and `held` are the ticks in the counter and in
the hands of the interrupt handler, `delivered` all that have been counted, and `booked` those that have been
booked, each with the number of the unit that was sampled then. -/
structure Threads where
  prof : State
  pc : Pc
  timer : ThreadTimer
  sampler : SamplerPc
  calls : List (Option Nat)
  delivered : List Tick
  pending : List Tick
  held : List Tick
  booked : List (Tick × Nat)

inductive ThreadAction
  | init (created : Bool)
  | start (periodNs maxDepth maxDurationNs : Nat) (now : Instant)
  | stop
  | clearDeadline
  | reset
  | interrupt
  | takeDeliveries
  | serve (stack : Stack) (now : Instant)
  | discardTicks
  | discardDeliveries
  | shutdown
  | join
  | look
  | wake
  | sleepOver
  | recheck
  | addTick
  | addDelivery

namespace Threads

/-- `cbox_profiler_start` with this backend, where it gets as far as the timer. -/
def startOn (s : Threads) (periodNs maxDepth maxDurationNs : Nat) (now : Instant) : Threads :=
  let maxDepth :=
    if maxDepth = 0 ∨ profilerDepthHardMax < maxDepth then profilerDepthHardMax else maxDepth
  let prof := { s.prof.reset with
    maxDepth := maxDepth
    periodNs := periodNs
    deadlineNs := if maxDurationNs = 0 then 0 else u64 (now.ns + maxDurationNs) }
  match s.timer.arm periodNs with
  | (false, timer) => { s with prof := { prof with periodNs := 0 }, timer := timer }
  | (true, timer) =>
    { s with prof := { prof with running := true }, timer := timer, calls := s.calls ++ [some periodNs] }

/-- What `cbox_profiler_stop` does before its exchanges. -/
def haltOn (s : Threads) : Threads := { s with
  prof := { s.prof with running := false }
  timer := s.timer.disarm
  calls := s.calls ++ [none] }

/-- The rest of the interrupt handler, when it has taken `pending` ticks. -/
def serveOn (s : Threads) (stack : Stack) (pending deliveries : Nat) (now : Instant) : Option Threads :=
  if s.prof.books pending then
    match s.prof.book stack pending deliveries with
    | none => none
    | some prof =>
      let served := { s with
        prof := (prof.checkDeadline now).2
        pc := .idle
        held := []
        booked := s.booked ++ s.held.map fun tick => (tick, s.calls.length) }
      if (prof.checkDeadline now).1 then some { served.haltOn with pc := .discarding .cap } else some served
  else some { s with pc := .idle, held := [] }

/-- The two exchanges of a stop, one after the other, and what follows them. -/
def afterStop (s : Threads) : After → Threads
  | .cap => { s with prof := { s.prof.takeDeliveries.2 with capped := true }, pc := .idle }
  | .stop | .fork => { s with prof := s.prof.takeDeliveries.2, pc := .idle }

/-- The critical section of `cbox_timer_main`. -/
def lookOn (s : Threads) : Threads :=
  if s.timer.stopping then { s with sampler := .absent }
  else if s.timer.isArmed then { s with sampler := .sleeping s.timer.periodNs s.calls.length }
  else { s with sampler := .waiting }

/-- The first addition of `cbox_profiler_tick(1)`. A counter that wraps has lost what was in it. -/
def addTickOn (s : Threads) (tick : Tick) : Threads :=
  let ticks := u32 (s.prof.pendingTicks + 1)
  { s with
    prof := { s.prof with pendingTicks := ticks }
    sampler := .delivering
    delivered := s.delivered ++ [tick]
    pending := if ticks = 0 then [] else s.pending ++ [tick] }

/-- The request thread is not inside a function of the profiler or of the timer. In `pthread_join` it is,
as long as the timer is stopping. -/
def idle (s : Threads) : Bool := decide (s.pc = .idle) && !s.timer.stopping

/-- One step of the request thread, or of the sampler from `look` on. The timer is shut down after the
profiler has been stopped. -/
def step (s : Threads) (a : ThreadAction) : Option Threads :=
  match a with
  | .init created =>
    if s.idle then
      if s.timer.installed || !created then some s
      else some { s with timer := { s.timer with installed := true }, sampler := .locking }
    else none
  | .start periodNs maxDepth maxDurationNs now =>
    if s.idle then
      if !s.prof.ready || periodNs == 0 then some s
      else some (s.startOn periodNs maxDepth maxDurationNs now)
    else none
  | .stop =>
    if s.idle then
      if s.prof.running then some { s.haltOn with pc := .discarding .stop } else some s
    else none
  | .clearDeadline => if s.idle then some { s with prof := s.prof.clearDeadline } else none
  | .reset => if s.idle then some { s with prof := s.prof.reset } else none
  | .interrupt =>
    if s.idle then
      some { s with
        prof := s.prof.takeTicks.2
        pc := .interrupted s.prof.takeTicks.1
        pending := []
        held := s.pending }
    else none
  | .takeDeliveries =>
    match s.pc with
    | .interrupted pending =>
      some { s with prof := s.prof.takeDeliveries.2, pc := .serving pending s.prof.takeDeliveries.1 }
    | _ => none
  | .serve stack now =>
    match s.pc with
    | .serving pending deliveries => s.serveOn stack pending deliveries now
    | _ => none
  | .discardTicks =>
    match s.pc with
    | .discarding after => some { s with prof := s.prof.takeTicks.2, pc := .discarded after, pending := [] }
    | _ => none
  | .discardDeliveries =>
    match s.pc with
    | .discarded after => some (s.afterStop after)
    | _ => none
  | .shutdown =>
    if s.idle && s.timer.installed && !s.prof.running then
      some { s with timer := s.timer.shutdown, calls := s.calls ++ [none] }
    else none
  | .join =>
    if s.timer.stopping = true ∧ s.sampler = .absent then some { s with timer := s.timer.joined } else none
  | .look => if s.sampler = .locking then some s.lookOn else none
  | .wake => if s.sampler = .waiting then some { s with sampler := .locking } else none
  | .sleepOver =>
    match s.sampler with
    | .sleeping periodNs read =>
      some { s with sampler := .checking ⟨periodNs, read, s.calls.length⟩ }
    | _ => none
  | .recheck =>
    match s.sampler with
    | .checking tick =>
      some { s with sampler := if s.timer.isArmed then .ticking tick else .locking }
    | _ => none
  | .addTick =>
    match s.sampler with
    | .ticking tick => some (s.addTickOn tick)
    | _ => none
  | .addDelivery =>
    if s.sampler = .delivering then
      some { s with
        prof := { s.prof with pendingDeliveries := u32 (s.prof.pendingDeliveries + 1) }
        sampler := .locking }
    else none

end Threads

/-- The step relation. -/
def ThreadSteps (s : Threads) (a : ThreadAction) (s' : Threads) : Prop := s.step a = some s'

/-- A process at the end of `cbox_profiler_init`. -/
def Setup.threads (c : Setup) : Threads :=
  ⟨c.prof, .idle, .blank, .absent, [], [], [], [], []⟩

end CboxTelemetry.Profiler
