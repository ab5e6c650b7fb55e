import CboxTelemetry.Lib.Run
import CboxTelemetry.Profiler.TimerThread

/-!
# The timer thread and its mutex

The functions of `timer_thread.c` one access to the shared memory at a time: the request thread is at some
instruction of a call, the sampler at some point of its loop, and the mutex belongs to one of them or to
nobody. `pthread_cond_wait` lets go of the mutex and goes to sleep in one step, and can wake up without a
signal. A fork leaves the child with the memory as it was, and without the sampler.

`pthread_mutex_init` in the child makes the mutex nobody's. The bit mask of the signals and the time that the
sampler sleeps are left out.
-/

namespace CboxTelemetry.Profiler

/-- Who has locked `cbox_timer_lock`. After a fork it can be a thread that the child does not have. -/
inductive Holder
  | request
  | sampler
  | parent
  deriving DecidableEq

/-- Where `cbox_timer_main` is. From `testingArmed` to `quitting` or `read` it has the mutex, except when it is
`blocked` in `pthread_cond_wait`, or `woken` there and waiting for the mutex. -/
inductive LockPc
  | absent
  | locking
  | testingArmed
  | testingStopping
  | blocked
  | woken
  | tested
  | quitting
  | reading
  | read (periodNs : Nat)
  | sleeping (periodNs : Nat)
  | checking (periodNs : Nat)
  | ticking (periodNs : Nat)
  deriving DecidableEq

/-- What the functions of the timer do to the shared memory, the mutex and the thread. -/
inductive Instr
  | lock
  | unlock
  | signal
  | setPeriod (periodNs : Nat)
  | setArmed (value : Bool)
  | setStopping (value : Bool)
  | setStarted (value : Bool)
  | setInstalled (value : Bool)
  | create
  | join
  | initLock
  | initWake
  deriving DecidableEq

/-- The functions of the timer that change something. `created` is what `pthread_create` will say. -/
inductive TimerCall
  | init (created : Bool)
  | arm (periodNs : Nat)
  | disarm
  | shutdown
  | afterFork (created : Bool)
  deriving DecidableEq

/-! ## The functions -/

/-- `cbox_timer_init`: whether it returns 0, and what it does. -/
def initProgram (installed created : Bool) : Bool × List Instr :=
  if installed then (true, [])
  else if created then (true, [.create, .setStarted true, .setInstalled true])
  else (false, [])

/-- `cbox_timer_arm`. -/
def armProgram (installed : Bool) (periodNs : Nat) : Bool × List Instr :=
  if !installed || periodNs == 0 then (false, [])
  else (true, [.lock, .setPeriod periodNs, .setArmed true, .signal, .unlock])

/-- `cbox_timer_disarm`. -/
def disarmProgram : List Instr := [.lock, .setArmed false, .unlock]

/-- `cbox_timer_shutdown`. -/
def shutdownProgram (installed : Bool) : List Instr :=
  if installed then
    [.lock, .setStopping true, .setArmed false, .signal, .unlock, .join, .setInstalled false,
      .setStopping false]
  else []

/-- What `cbox_timer_after_fork` stores before it starts a sampler of the child. -/
def resetStores : List Instr :=
  [.setStarted false, .setInstalled false, .setStopping false, .setArmed false, .setPeriod 0]

/-- `cbox_timer_after_fork`. -/
def afterForkProgram (installed created : Bool) : List Instr :=
  [.initLock, .initWake] ++ resetStores ++ if installed then (initProgram false created).2 else []

/-- What a call returns, `true` for the functions that return nothing, and what it does. -/
def TimerCall.program (installed : Bool) : TimerCall → Bool × List Instr
  | .init created => initProgram installed created
  | .arm periodNs => armProgram installed periodNs
  | .disarm => (true, disarmProgram)
  | .shutdown => (true, shutdownProgram installed)
  | .afterFork created => (true, afterForkProgram installed created)

/-! ## The two threads -/

/-- The statics of the timer, the mutex and the two threads. `call` is what the call of the request thread
will return and `todo` what it has not done yet. `strayed` is a child that has not called
`cbox_timer_after_fork`. -/
structure Locked where
  timer : ThreadTimer
  started : Bool
  owner : Option Holder
  sampler : LockPc
  call : Option Bool
  todo : List Instr
  strayed : Bool
  deriving DecidableEq

inductive LockAction
  | call (c : TimerCall)
  | request
  | ret (result : Bool)
  | sampler
  | tick (periodNs : Nat)
  | wake
  | fork
  deriving DecidableEq

namespace Locked

/-- Before `cbox_timer_init`. -/
def initial : Locked := ⟨.blank, false, none, .absent, none, [], false⟩

/-- One instruction of the request thread, when it does not have to wait. `pthread_join` does not wait for a thread
that has ended, nor for one that has not come across a fork. -/
def perform (s : Locked) : Instr → Option Locked
  | .lock => if s.owner = none then some { s with owner := some .request } else none
  | .unlock => some { s with owner := none }
  | .signal => some { s with sampler := if s.sampler = .blocked then .woken else s.sampler }
  | .setPeriod periodNs => some { s with timer := { s.timer with periodNs := periodNs } }
  | .setArmed value => some { s with timer := { s.timer with isArmed := value } }
  | .setStopping value => some { s with timer := { s.timer with stopping := value } }
  | .setStarted value => some { s with started := value }
  | .setInstalled value => some { s with timer := { s.timer with installed := value } }
  | .create => some { s with sampler := .locking }
  | .join =>
    if s.started then
      if s.sampler = .absent then some { s with started := false } else none
    else some s
  | .initLock => some { s with owner := none, strayed := false }
  | .initWake => some s

/-- One step of `cbox_timer_main` other than the tick. -/
def samplerStep (s : Locked) : Option Locked :=
  match s.sampler with
  | .locking | .woken =>
    if s.owner = none then some { s with owner := some .sampler, sampler := .testingArmed } else none
  | .testingArmed =>
    some { s with sampler := if s.timer.isArmed then .tested else .testingStopping }
  | .testingStopping =>
    if s.timer.stopping then some { s with sampler := .tested }
    else some { s with owner := none, sampler := .blocked }
  | .tested => some { s with sampler := if s.timer.stopping then .quitting else .reading }
  | .quitting => some { s with owner := none, sampler := .absent }
  | .reading => some { s with sampler := .read s.timer.periodNs }
  | .read periodNs => some { s with owner := none, sampler := .sleeping periodNs }
  | .sleeping periodNs => some { s with sampler := .checking periodNs }
  | .checking periodNs =>
    some { s with sampler := if s.timer.isArmed then .ticking periodNs else .locking }
  | .absent | .blocked | .ticking _ => none

/-- One step. `cbox_profiler_tick` is not called with the mutex locked, and the request thread forks outside
the timer. -/
def step (s : Locked) : LockAction → Option Locked
  | .call c =>
    if s.call = none then
      some { s with
        call := some (c.program s.timer.installed).1
        todo := (c.program s.timer.installed).2 }
    else none
  | .request =>
    match s.todo with
    | [] => none
    | i :: rest => { s with todo := rest }.perform i
  | .ret result => if s.call = some result ∧ s.todo = [] then some { s with call := none } else none
  | .sampler => s.samplerStep
  | .tick periodNs => if s.sampler = .ticking periodNs then some { s with sampler := .locking } else none
  | .wake => if s.sampler = .blocked then some { s with sampler := .woken } else none
  | .fork =>
    if s.call = none then
      some { s with
        owner := if s.owner = none then none else some .parent
        sampler := .absent
        strayed := true }
    else none

end Locked

/-- The step relation. -/
def LockSteps (s : Locked) (a : LockAction) (s' : Locked) : Prop := s.step a = some s'

/-- The calls of the extension while it runs. `cbox_detect_fork` calls `cbox_timer_after_fork` in a child, and once,
and `cbox_timer_init` is called before there are children. Left out is the child that ends before it has looked: there
`PHP_MSHUTDOWN` calls `cbox_timer_shutdown`, and `pthread_join` is given a thread that the child does not have. -/
def Looks (s : Locked) (a : LockAction) : Prop :=
  match a with
  | .call (.afterFork _) => s.strayed = true
  | .call (.init _) | .call .shutdown => s.strayed = false
  | _ => True

end CboxTelemetry.Profiler
