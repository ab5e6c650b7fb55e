import CboxTelemetry.Lib.Simulation
import CboxTelemetry.Profiler.TimerLock

/-!
# The timer of the thread backend, without its mutex

What the timer is for, as somebody sees it who does not know of the mutex: a call does what it does at one
moment between its beginning and its return, and the sampler looks at the timer at one moment too. The only
call with two such moments is `cbox_timer_shutdown`, which waits for the sampler to be gone.

Every run of the two threads with the mutex looks like a run of this timer (`Locked.simulates`).
-/

namespace CboxTelemetry.Profiler

/-- Where the sampler is between two looks at the timer. -/
inductive CoarsePc
  | absent
  | looking
  | sleeping (periodNs : Nat)
  | checking (periodNs : Nat)
  | ticking (periodNs : Nat)
  deriving DecidableEq

/-- What a call does at one moment. -/
inductive TimerEffect
  | create
  | arm (periodNs : Nat)
  | disarm
  | shutdown
  | joined
  | reset
  deriving DecidableEq

/-- The timer, the sampler, and the call of the request thread: what it will return and what it has not done
yet. -/
structure Atomic where
  timer : ThreadTimer
  sampler : CoarsePc
  call : Option Bool
  effects : List TimerEffect
  deriving DecidableEq

/-- What a call returns and what it does, in order. -/
def TimerCall.effects (t : ThreadTimer) : TimerCall → Bool × List TimerEffect
  | .init created => if t.installed then (true, []) else (created, if created then [.create] else [])
  | .arm periodNs => ((t.arm periodNs).1, if (t.arm periodNs).1 then [.arm periodNs] else [])
  | .disarm => (true, [.disarm])
  | .shutdown => (true, if t.installed then [.shutdown, .joined] else [])
  | .afterFork created => (true, .reset :: if t.installed && created then [.create] else [])

inductive AtomicAction
  | call (c : TimerCall)
  | effect
  | ret (result : Bool)
  | look
  | sleepOver
  | recheck
  | tick (periodNs : Nat)
  | fork
  deriving DecidableEq

namespace Atomic

/-- Before `cbox_timer_init`. -/
def initial : Atomic := ⟨.blank, .absent, none, []⟩

/-- One effect. The sampler has to be gone before `cbox_timer_shutdown` goes on. -/
def apply (s : Atomic) : TimerEffect → Option Atomic
  | .create => some { s with timer := { s.timer with installed := true }, sampler := .looking }
  | .arm periodNs => some { s with timer := (s.timer.arm periodNs).2 }
  | .disarm => some { s with timer := s.timer.disarm }
  | .shutdown => some { s with timer := s.timer.shutdown }
  | .joined => if s.sampler = .absent then some { s with timer := s.timer.joined } else none
  | .reset => some { s with timer := .blank }

/-- One step. The sampler looks again only when there is something to see. -/
def step (s : Atomic) : AtomicAction → Option Atomic
  | .call c =>
    if s.call = none then
      some { s with call := some (c.effects s.timer).1, effects := (c.effects s.timer).2 }
    else none
  | .effect =>
    match s.effects with
    | [] => none
    | e :: rest => { s with effects := rest }.apply e
  | .ret result => if s.call = some result ∧ s.effects = [] then some { s with call := none } else none
  | .look =>
    if s.sampler = .looking then
      if s.timer.stopping then some { s with sampler := .absent }
      else if s.timer.isArmed then some { s with sampler := .sleeping s.timer.periodNs }
      else none
    else none
  | .sleepOver =>
    match s.sampler with
    | .sleeping periodNs => some { s with sampler := .checking periodNs }
    | _ => none
  | .recheck =>
    match s.sampler with
    | .checking periodNs =>
      some { s with sampler := if s.timer.isArmed then .ticking periodNs else .looking }
    | _ => none
  | .tick periodNs => if s.sampler = .ticking periodNs then some { s with sampler := .looking } else none
  | .fork => if s.call = none then some { s with sampler := .absent } else none

end Atomic

/-- The step relation. -/
def AtomicSteps (s : Atomic) (a : AtomicAction) (s' : Atomic) : Prop := s.step a = some s'

/-! ## What is seen -/

/-- What the extension and the profiler see of the timer. -/
inductive TimerEvent
  | call (c : TimerCall)
  | ret (result : Bool)
  | tick (periodNs : Nat)
  | fork
  deriving DecidableEq

def LockAction.event : LockAction → Option TimerEvent
  | .call c => some (.call c)
  | .ret result => some (.ret result)
  | .tick periodNs => some (.tick periodNs)
  | .fork => some .fork
  | .request | .sampler | .wake => none

def AtomicAction.event : AtomicAction → Option TimerEvent
  | .call c => some (.call c)
  | .ret result => some (.ret result)
  | .tick periodNs => some (.tick periodNs)
  | .fork => some .fork
  | .effect | .look | .sleepOver | .recheck => none

/-! ## The sampler of the two levels -/

/-- The sampler looks at the timer where it reads the period, or where it has found that the timer stops. -/
def LockPc.view : LockPc → CoarsePc
  | .absent | .quitting => .absent
  | .locking | .testingArmed | .testingStopping | .blocked | .woken | .tested | .reading => .looking
  | .read periodNs | .sleeping periodNs => .sleeping periodNs
  | .checking periodNs => .checking periodNs
  | .ticking periodNs => .ticking periodNs

/-- The sampler has locked the mutex. -/
def LockPc.holds : LockPc → Bool
  | .testingArmed | .testingStopping | .tested | .quitting | .reading | .read _ => true
  | .absent | .locking | .blocked | .woken | .sleeping _ | .checking _ | .ticking _ => false

/-- What the sampler has found in the timer since it locked the mutex. -/
def LockPc.Found (t : ThreadTimer) : LockPc → Prop
  | .testingStopping => t.isArmed = false
  | .tested => t.isArmed = true ∨ t.stopping = true
  | .reading => t.isArmed = true ∧ t.stopping = false
  | .quitting => t.stopping = true
  | _ => True

/-- The request thread is between `pthread_mutex_lock` and `pthread_mutex_unlock`. -/
def critical : List Instr → Bool
  | [] => false
  | .lock :: _ => false
  | .unlock :: _ => true
  | _ :: rest => critical rest

/-- The request thread has yet to signal in its critical section. -/
def signalDue : List Instr → Bool
  | [] => false
  | .unlock :: _ => false
  | .signal :: _ => true
  | _ :: rest => signalDue rest

/-! ## Where a call is -/

/-- Between two calls: there was a sampler to start if the timer is installed, and none is there if it is
not. -/
structure Settled (gone : Prop) (t : ThreadTimer) (started : Bool) : Prop where
  started : started = t.installed
  sampler : t.installed = false → gone
  going : t.stopping = false

/-- What `pthread_join` will find: the request thread has stopped the timer. -/
structure Stopped (t : ThreadTimer) : Prop where
  installed : t.installed = true
  stopping : t.stopping = true
  isArmed : t.isArmed = false

/-- A store of `cbox_timer_after_fork` in the timer and in `cbox_timer_started`. -/
def Instr.store (timer : ThreadTimer × Bool) : Instr → ThreadTimer × Bool
  | .setPeriod periodNs => ({ timer.1 with periodNs := periodNs }, timer.2)
  | .setArmed value => ({ timer.1 with isArmed := value }, timer.2)
  | .setStopping value => ({ timer.1 with stopping := value }, timer.2)
  | .setInstalled value => ({ timer.1 with installed := value }, timer.2)
  | .setStarted value => (timer.1, value)
  | _ => timer

/-- The start of a sampler at the end of `cbox_timer_after_fork`, where there is one. -/
inductive Restart : List Instr → List TimerEffect → Prop
  | none : Restart [] []
  | create : Restart [.create, .setStarted true, .setInstalled true] [.create]

/-- Where a call is: the timer and `cbox_timer_started` as they are in the memory, what the request thread has
still to do, the timer as it is seen and the effects that are still to be seen. `gone` says that there is no
sampler. -/
inductive Stage (gone : Prop) :
    ThreadTimer → Bool → List Instr → ThreadTimer → List TimerEffect → Prop
  | idle {t started} : Settled gone t started → Stage gone t started [] t []
  | disarmLock {t started} : Settled gone t started →
      Stage gone t started [.lock, .setArmed false, .unlock] t [.disarm]
  | disarm {t started} : Settled gone t started →
      Stage gone t started [.setArmed false, .unlock] t [.disarm]
  | unlock {t started} : Settled gone t started → Stage gone t started [.unlock] t []
  | armLock {t started periodNs} : Settled gone t started → (t.arm periodNs).1 = true →
      Stage gone t started [.lock, .setPeriod periodNs, .setArmed true, .signal, .unlock] t [.arm periodNs]
  | period {t started periodNs} : Settled gone t started → (t.arm periodNs).1 = true →
      Stage gone t started [.setPeriod periodNs, .setArmed true, .signal, .unlock] t [.arm periodNs]
  | arm {t started periodNs} : Settled gone t started → (t.arm periodNs).1 = true →
      Stage gone { t with periodNs := periodNs } started [.setArmed true, .signal, .unlock] t [.arm periodNs]
  | signal {t started} : Settled gone t started → Stage gone t started [.signal, .unlock] t []
  | stopLock {t started} : Settled gone t started → t.installed = true →
      Stage gone t started
        [.lock, .setStopping true, .setArmed false, .signal, .unlock, .join, .setInstalled false,
          .setStopping false] t [.shutdown, .joined]
  | stop {t started} : Settled gone t started → t.installed = true →
      Stage gone t started
        [.setStopping true, .setArmed false, .signal, .unlock, .join, .setInstalled false,
          .setStopping false] t [.shutdown, .joined]
  | stopDisarm {t started} : Settled gone t started → t.installed = true →
      Stage gone { t with stopping := true } started
        [.setArmed false, .signal, .unlock, .join, .setInstalled false, .setStopping false] t
        [.shutdown, .joined]
  | stopSignal {t} : Stopped t →
      Stage gone t true [.signal, .unlock, .join, .setInstalled false, .setStopping false] t [.joined]
  | stopUnlock {t} : Stopped t →
      Stage gone t true [.unlock, .join, .setInstalled false, .setStopping false] t [.joined]
  | join {t} : Stopped t →
      Stage gone t true [.join, .setInstalled false, .setStopping false] t [.joined]
  | uninstall {t} : Stopped t → gone →
      Stage gone t false [.setInstalled false, .setStopping false] t [.joined]
  | resume {t} : Stopped t → gone →
      Stage gone { t with installed := false } false [.setStopping false] t [.joined]
  | create {t} : t.installed = false → t.stopping = false → gone →
      Stage gone t false [.create, .setStarted true, .setInstalled true] t [.create]
  | started {t started} : t.installed = true → t.stopping = false →
      Stage gone { t with installed := false } started [.setStarted true, .setInstalled true] t []
  | install {t} : t.installed = true → t.stopping = false →
      Stage gone { t with installed := false } true [.setInstalled true] t []
  | initLock {t u started rest effects} : Restart rest effects → gone →
      Stage gone t started (.initLock :: .initWake :: (resetStores ++ rest)) u (.reset :: effects)
  | initWake {t u started rest effects} : Restart rest effects → gone →
      Stage gone t started (.initWake :: (resetStores ++ rest)) u (.reset :: effects)
  | reset {t u started i stores rest effects} : (i :: stores) <:+ resetStores →
      (i :: stores).foldl Instr.store (t, started) = (.blank, false) → Restart rest effects → gone →
      Stage gone t started (i :: stores ++ rest) u (.reset :: effects)

/-- The timer with its mutex in the state `s` looks like the timer `t`. -/
structure Locked.LooksLike (s : Locked) (t : Atomic) : Prop where
  sampler : t.sampler = s.sampler.view
  call : t.call = s.call
  stage : Stage (s.sampler = .absent) s.timer s.started s.todo t.timer t.effects
  idle : s.call = none → s.todo = []
  request : s.owner = some .request ↔ critical s.todo = true
  holds : s.owner = some .sampler ↔ s.sampler.holds = true
  parent : s.owner = some .parent → s.strayed = true
  strayed : s.strayed = true → s.sampler = .absent
  creates : .create ∈ s.todo → s.strayed = true → .initLock ∈ s.todo
  found : s.sampler.Found s.timer
  blocked : s.sampler = .blocked →
    (s.timer.isArmed = false ∧ s.timer.stopping = false) ∨ signalDue s.todo = true

end CboxTelemetry.Profiler
