import CboxTelemetry.Lib.Run
import CboxTelemetry.Lib.StraightLine
import CboxTelemetry.Profiler.TimerSignal

/-!
# The signals of the process

What the module takes from the process it is loaded into: the dispositions of five signals, a timer of the
kernel, and where the process has none an alternate stack for signals. The functions that do so are lists of
calls of the kernel and of stores to the statics, and a signal can come between any two of them. The code of
others runs only between two calls of the module.

A delivery that ends the process is no step. What the recorder writes, what the handlers of others do to the
dispositions, and the hooks and interrupts (`Hooks`, `InterruptChain`) are left out.
-/

namespace CboxTelemetry.Extension

open Profiler (Timer TimerIo TimerSignal TimerDelivery)
open Signals (Signal Sigaction Delivery crashSignals)
open StraightLine (after)

/-- The signals that the module takes. -/
inductive Taken
  | crash (signal : Signal)
  | timer
  deriving DecidableEq

/-- The alternate stack that the kernel knows: none, somebody else's, or a block of the module's memory. -/
inductive AltStack
  | disabled
  | foreign (address : Nat)
  | own (block : Nat)
  deriving DecidableEq

/-- The stack is not one that the module has freed. -/
def AltStack.isLive (stack : AltStack) (blocks : List Nat) : Bool :=
  match stack with
  | .own block => blocks.contains block
  | _ => true

/-- The statics of `sigstack.c`, the kernel's alternate stack, and the blocks that `sigstack.c` has from
`malloc`. -/
structure SigStack where
  altStack : AltStack
  blocks : List Nat
  memory : Option Nat
  ready : Bool
  deriving DecidableEq

/-- One call of the kernel, or one store. A `take` is a `sigaction` that puts a handler of the module in place
and keeps what it finds, a `giveBack` one that puts that back. -/
inductive HostInstr
  | malloc (block : Nat)
  | free
  | forgetMemory
  | setReady (value : Bool)
  | sigaltstack (stack : AltStack)
  | take (x : Taken)
  | giveBack (x : Taken)
  | setCrashInstalled (value : Bool)
  | setTimerInstalled (value : Bool)
  | setCreated (value : Bool)
  | setArmed (value : Bool)
  | timerCreate
  | timerSet (ticking : Bool)
  | timerDelete
  deriving DecidableEq

/-- A process with the module. The two `onStack` say whether the handlers were put in place with `SA_ONSTACK`.
`strayed` is a child that has not called `cbox_timer_after_fork`, and `todo` what the call that the process is
in has not done yet. -/
structure Host where
  crash : Signals.Process
  sampler : TimerSignal
  stack : SigStack
  recorderOnStack : Bool
  samplerOnStack : Bool
  strayed : Bool
  todo : List HostInstr

namespace Host

/-- Before the module is loaded, where somebody may have an alternate stack at `foreign`. -/
def blank (previous : Signal → Sigaction) (timerAction : Sigaction) (foreign : Option Nat) : Host :=
  ⟨.bare previous, .bare timerAction, ⟨foreign.elim .disabled .foreign, [], none, false⟩, false, false, false, []⟩

/-! ## Dispositions -/

/-- What a signal does, where it is not a handler of the module. -/
def current (s : Host) : Taken → Option Sigaction
  | .crash signal =>
    match s.crash.disposition signal with
    | .action a => some a
    | .recorder => none
  | .timer =>
    match s.sampler.disposition with
    | .action a => some a
    | .sampler => none

/-- `cbox_crash_previous` and `cbox_prev_action`. -/
def saved (s : Host) : Taken → Sigaction
  | .crash signal => s.crash.previous signal
  | .timer => s.sampler.prevAction

/-- `cbox_crash_installed` and `cbox_timer_installed`. -/
def installed (s : Host) : Taken → Bool
  | .crash _ => s.crash.installed
  | .timer => s.sampler.timer.installed

def onStack (s : Host) : Taken → Bool
  | .crash _ => s.recorderOnStack
  | .timer => s.samplerOnStack

def setCurrent (s : Host) : Taken → Option Sigaction → Host
  | .crash signal, some a => { s with crash := s.crash.setDisposition signal (.action a) }
  | .crash signal, none => { s with crash := s.crash.setDisposition signal .recorder }
  | .timer, some a => { s with sampler := { s.sampler with disposition := .action a } }
  | .timer, none => { s with sampler := { s.sampler with disposition := .sampler } }

def save (s : Host) (a : Sigaction) : Taken → Host
  | .crash signal => { s with crash := { s.crash with previous := Function.update s.crash.previous signal a } }
  | .timer => { s with sampler := { s.sampler with prevAction := a } }

/-- What `sigaction` gives back of a disposition. -/
def found (s : Host) (x : Taken) : Sigaction := (s.current x).getD (s.saved x)

def setOnStack (s : Host) (value : Bool) : Taken → Host
  | .crash _ => { s with recorderOnStack := value }
  | .timer => { s with samplerOnStack := value }

def mapTimer (s : Host) (f : Timer → Timer) : Host :=
  { s with sampler := { s.sampler with timer := f s.sampler.timer } }

/-! ## Instructions -/

def perform (s : Host) : HostInstr → Host
  | .malloc block => { s with
      stack := { s.stack with blocks := block :: s.stack.blocks, memory := some block } }
  | .free => { s with stack := { s.stack with blocks := s.stack.blocks.filter (some · ≠ s.stack.memory) } }
  | .forgetMemory => { s with stack := { s.stack with memory := none } }
  | .setReady value => { s with stack := { s.stack with ready := value } }
  | .sigaltstack stack => { s with stack := { s.stack with altStack := stack } }
  | .take x => ((s.save (s.found x) x).setCurrent x none).setOnStack s.stack.ready x
  | .giveBack x => s.setCurrent x (some (s.saved x))
  | .setCrashInstalled value => { s with crash := { s.crash with installed := value } }
  | .setTimerInstalled value => s.mapTimer fun t => { t with installed := value }
  | .setCreated value => s.mapTimer fun t => { t with created := value }
  | .setArmed value => s.mapTimer fun t => { t with isArmed := value }
  | .timerCreate => s.mapTimer fun t => { t with kernel := .disarmed }
  | .timerSet ticking => s.mapTimer fun t => { t with
      kernel := if t.kernel = .none then .none else if ticking then .ticking else .disarmed }
  | .timerDelete => s.mapTimer fun t => { t with kernel := .none }

end Host

/-! ## The functions -/

/-- The outcomes of `cbox_sigstack_ensure`: whether the kernel tells its alternate stack, what `malloc` gives,
and whether the kernel takes the new stack. -/
structure StackIo where
  query : Bool
  block : Option Nat
  set : Bool

structure TimerStart where
  stack : StackIo
  sigaction : Bool

structure CrashStart where
  dir : Option Bytes
  stack : StackIo
  sigactionOk : Signal → Bool

namespace Host

/-- `cbox_sigstack_ensure`. It returns whether the stack is ready. -/
def sigstackEnsure (s : Host) (io : StackIo) : List HostInstr :=
  if s.stack.ready then []
  else if io.query && s.stack.altStack ≠ .disabled then [.setReady true]
  else
    match io.block with
    | none => [.forgetMemory]
    | some block =>
      if io.set then [.malloc block, .sigaltstack (.own block), .setReady true]
      else [.malloc block, .free, .forgetMemory]

/-- `cbox_sigstack_release`. -/
def sigstackRelease (s : Host) : List HostInstr :=
  (if s.stack.memory = none then [] else [.sigaltstack .disabled, .free, .forgetMemory]) ++ [.setReady false]

/-- `cbox_timer_init`. -/
def timerInit (s : Host) (io : TimerStart) : List HostInstr :=
  if s.sampler.timer.installed then []
  else s.sigstackEnsure io.stack ++ if io.sigaction then [.take .timer, .setTimerInstalled true] else []

/-- `cbox_timer_arm`. -/
def timerArm (s : Host) (periodNs : Nat) (io : TimerIo) : List HostInstr :=
  if !s.sampler.timer.installed || periodNs == 0 then []
  else if s.sampler.timer.created then
    if s.sampler.timer.kernel = .none ∨ !io.settime then [] else [.timerSet true, .setArmed true]
  else if io.create then
    [.timerCreate, .setCreated true] ++ if io.settime then [.timerSet true, .setArmed true] else []
  else []

/-- `cbox_timer_disarm`. -/
def timerDisarm (s : Host) : List HostInstr :=
  (if s.sampler.timer.created then [.timerSet false] else []) ++ [.setArmed false]

/-- `cbox_timer_after_fork`. -/
def timerAfterFork : List HostInstr := [.setCreated false, .setArmed false]

/-- `cbox_timer_shutdown`. -/
def timerShutdown (s : Host) : List HostInstr :=
  s.timerDisarm ++ (if s.sampler.timer.created then [.timerDelete, .setCreated false] else []) ++
    if s.sampler.timer.installed then [.giveBack .timer, .setTimerInstalled false] else []

/-- The loop of `cbox_crash_install`; `done` are the signals it has been through, the last one first. -/
def installLoop (sigactionOk : Signal → Bool) (done : List Signal) : List Signal → List HostInstr
  | [] => [.setCrashInstalled true]
  | signal :: signals =>
    if sigactionOk signal then .take (.crash signal) :: installLoop sigactionOk (signal :: done) signals
    else done.map fun signal => .giveBack (.crash signal)

/-- `cbox_crash_install`. -/
def crashInstall (s : Host) (io : CrashStart) : List HostInstr :=
  if s.crash.installed then []
  else
    match io.dir with
    | none => []
    | some dir =>
      if dir = [] ∨ Crash.crashPathMax - 32 ≤ dir.length then []
      else s.sigstackEnsure io.stack ++ installLoop io.sigactionOk [] crashSignals

/-- `cbox_crash_uninstall`. -/
def crashUninstall (s : Host) : List HostInstr :=
  if s.crash.installed then
    (crashSignals.map fun signal => .giveBack (.crash signal)) ++ [.setCrashInstalled false]
  else []

/-- `MINIT`, as far as it comes to `cbox_timer_init` and `cbox_crash_install`. -/
def minit (s : Host) (timer : Option TimerStart) (crash : Option CrashStart) : List HostInstr :=
  let first := timer.elim [] s.timerInit
  first ++ crash.elim [] (after perform s first).crashInstall

/-- `MSHUTDOWN`. A profiler that is `running` stops its timer. What a function looks at, the ones before it
leave alone. -/
def mshutdown (s : Host) (running : Bool) : List HostInstr :=
  s.crashUninstall ++ (if running then s.timerDisarm else []) ++ s.timerShutdown ++ s.sigstackRelease

end Host

namespace Host

/-! ## The functions in the other models -/

theorem crash_sigstackEnsure (s : Host) (io : StackIo) :
    (after perform s (s.sigstackEnsure io)).crash = s.crash ∧
      (after perform s (s.sigstackEnsure io)).sampler = s.sampler := by
  unfold sigstackEnsure
  split
  · exact ⟨rfl, rfl⟩
  · split
    · exact ⟨rfl, rfl⟩
    · split
      · exact ⟨rfl, rfl⟩
      · split
        · exact ⟨rfl, rfl⟩
        · exact ⟨rfl, rfl⟩

theorem crash_take (s : Host) (signal : Signal) : (s.perform (.take (.crash signal))).crash =
    { s.crash with
      previous := Function.update s.crash.previous signal (s.crash.oldAction signal) }.setDisposition signal
        .recorder := by
  have hfound : s.found (.crash signal) = s.crash.oldAction signal := by
    unfold found Signals.Process.oldAction
    cases hdisposition : s.crash.disposition signal <;> simp [current, saved, hdisposition]
  rw [← hfound]
  rfl

theorem crash_giveBack (s : Host) (signals : List Signal) :
    (after perform s (signals.map fun signal => .giveBack (.crash signal))).crash = s.crash.rollBack signals := by
  induction signals generalizing s with
  | nil => rfl
  | cons signal signals ih =>
    rw [List.map_cons, StraightLine.after_cons, ih]
    rfl

/-- The loop that installs the handlers is that of the signals' model. -/
theorem crash_installLoop (ok : Signal → Bool) (s : Host) (done signals : List Signal) :
    (after perform s (installLoop ok done signals)).crash = s.crash.installFrom ok done signals := by
  induction signals generalizing s done with
  | nil => rfl
  | cons signal signals ih =>
    unfold installLoop Signals.Process.installFrom
    split
    · rw [StraightLine.after_cons, ih, crash_take]
    · exact crash_giveBack s done

/-- Undisturbed, the code is `Process.install`. -/
theorem crash_crashInstall (s : Host) (io : CrashStart) :
    (after perform s (s.crashInstall io)).crash = s.crash.install io.dir io.sigactionOk := by
  unfold crashInstall Signals.Process.install
  split
  · rfl
  · cases hdir : io.dir with
    | none => rfl
    | some dir =>
      dsimp only
      split
      · rfl
      · rw [StraightLine.after_append, crash_installLoop, (crash_sigstackEnsure s io.stack).1]

/-- The initialisation of the timer is that of the profiler's model. -/
theorem timer_timerInit (s : Host) (io : TimerStart) :
    (after perform s (s.timerInit io)).sampler.timer = (s.sampler.timer.init io.sigaction).2 := by
  unfold timerInit Timer.init
  split
  · rfl
  · rw [StraightLine.after_append]
    have hensure := congrArg TimerSignal.timer (crash_sigstackEnsure s io.stack).2
    split
    · show { (after perform s (s.sigstackEnsure io.stack)).sampler.timer with installed := true } = _
      rw [hensure]
    · exact hensure

theorem timer_timerDisarm (s : Host) :
    (after perform s s.timerDisarm).sampler.timer = s.sampler.timer.disarm := by
  unfold timerDisarm Timer.disarm
  cases hcreated : s.sampler.timer.created with
  | true => simp [perform, mapTimer, hcreated]
  | false => simp [perform, mapTimer, hcreated]

/-- So is the arming. -/
theorem timer_timerArm (s : Host) (periodNs : Nat) (io : TimerIo) :
    (after perform s (s.timerArm periodNs io)).sampler.timer = (s.sampler.timer.arm io periodNs).2 := by
  unfold timerArm Timer.arm Timer.createOnce
  split
  · rfl
  · cases hcreated : s.sampler.timer.created with
    | true =>
      simp only [if_true]
      split
      · rfl
      next hkernel =>
        rw [not_or] at hkernel
        simp [perform, mapTimer, hkernel.1, hcreated]
    | false =>
      cases io.create with
      | false => rfl
      | true => cases io.settime <;> simp [perform, mapTimer]

theorem timer_timerAfterFork (s : Host) :
    (after perform s timerAfterFork).sampler.timer = s.sampler.timer.afterFork := rfl

end Host

/-! ## Steps -/

/-- The calls of the module. `cbox_detect_fork` comes before every call that arms the timer, and calls
`cbox_timer_after_fork` only in a child. -/
inductive HostCall
  | minit (timer : Option TimerStart) (crash : Option CrashStart)
  | arm (periodNs : Nat) (io : TimerIo)
  | disarm
  | afterFork
  | mshutdown (running : Bool)

def HostCall.code (s : Host) : HostCall → List HostInstr
  | .minit timer crash => s.minit timer crash
  | .arm periodNs io => s.timerArm periodNs io
  | .disarm => s.timerDisarm
  | .afterFork => Host.timerAfterFork
  | .mshutdown running => s.mshutdown running

/-- `crash` and `signal` are deliveries that the module has nothing to do with, `expire` is one of its timer.
After a `fork` the process is the child. The last three are what somebody else does: they take a signal, put
back the module's handler that they have found there, or give the kernel another alternate stack, but none
that the module has freed. -/
inductive HostAction
  | call (c : HostCall)
  | instr
  | crash (d : Delivery)
  | signal (d : TimerDelivery)
  | expire (overrun : Nat)
  | fork
  | setAction (x : Taken) (a : Sigaction)
  | putBack (x : Taken)
  | setAltStack (stack : AltStack)

/-- What happens within a call of the module. -/
def HostAction.isInside : HostAction → Bool
  | .instr | .crash _ | .signal _ | .expire _ => true
  | _ => false

/-- What somebody else does between two calls. -/
def HostAction.isOutside : HostAction → Bool
  | .fork | .setAction _ _ | .putBack _ | .setAltStack _ => true
  | _ => false

namespace Host

/-- The delivery of an expired timer. -/
def expired (overrun : Nat) : TimerDelivery := ⟨true, true, overrun, true⟩

def deliverCrash (s : Host) (d : Delivery) : Option Host :=
  if (s.crash.deliver d).1.ends d then none else some { s with crash := (s.crash.deliver d).2 }

def deliverTimer (s : Host) (d : TimerDelivery) : Option Host :=
  if (s.sampler.deliver d).1.ends d then none else some { s with sampler := (s.sampler.deliver d).2 }

/-- A step that is possible between two calls of the module. -/
def between (s t : Host) : Option Host := if s.todo = [] then some t else none

/-- What a call begins with. -/
def begin (s : Host) (c : HostCall) : Option Host :=
  match c with
  | .arm _ _ => if s.strayed then none else s.between { s with todo := c.code s }
  | .afterFork => if s.strayed then s.between { s with strayed := false, todo := c.code s } else none
  | _ => s.between { s with todo := c.code s }

def step (s : Host) : HostAction → Option Host
  | .call c => s.begin c
  | .instr =>
    match s.todo with
    | [] => none
    | i :: rest => some { s.perform i with todo := rest }
  | .crash d => s.deliverCrash d
  | .signal d => if d.siTimer && d.siValueOwn then none else s.deliverTimer d
  | .expire overrun => if s.sampler.timer.kernel = .ticking then s.deliverTimer (expired overrun) else none
  | .fork => s.between { s.mapTimer Timer.fork with strayed := true }
  | .setAction x a => s.between (s.setCurrent x (some a))
  | .putBack x => if s.installed x then s.between (s.setCurrent x none) else none
  | .setAltStack stack =>
    if stack.isLive s.stack.blocks then s.between { s with stack := { s.stack with altStack := stack } } else none

end Host

def HostSteps (s : Host) (a : HostAction) (t : Host) : Prop := s.step a = some t

abbrev HostRun := Run HostSteps

theorem hostRun_of_takes {s t : Host} {as : List HostAction}
    (h : takes (fun _ _ => True) Host.step s as = some t) : HostRun s as t :=
  (Run.of_takes h).of_guarded

end CboxTelemetry.Extension
