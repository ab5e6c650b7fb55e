import CboxTelemetry.Extension.Module
import CboxTelemetry.Lib.Run
import CboxTelemetry.Profiler.Functions

/-!
# A worker process

A worker handles requests one after the other. Its steps are the request hooks, the calls of PHP, the two
ends of hooked calls, the timer's signal and the engine's interrupts. A fork goes on in the child, so a run
follows one line of descent. The token of a hooked call is a local variable of the wrapper around the call,
and is copied by a fork like any other.
-/

namespace CboxTelemetry.Extension

open Profiler (Instant Stack)

/-- A process: its pid, the extension, and the hooked calls so far, each with its token until it ends. -/
structure Worker where
  pid : Int
  globals : Globals
  calls : List (Option OpToken)

inductive Action
  | rinit (sapi : Option Bytes) (env : CallEnv)
  | rshutdown
  | begin (context : Option Context) (env : CallEnv)
  | finish (handle : Int) (includeProfile includeStacks : Bool) (env : CallEnv)
  | status (env : CallEnv)
  | iniSet (periodUs maxDepth : Int)
  | opBegin (type : OpType) (now : UInt64)
  | opEnd (call : Nat) (now : UInt64)
  | tick (ticks : Nat)
  | interrupt (stack : Stack) (between : List Nat) (now : Instant)
  | fork (child : Int)

/-- A request hook, or a call of PHP that looks at the unit. -/
def Action.isCall : Action → Bool
  | .rinit _ _ | .rshutdown | .begin _ _ | .finish _ _ _ _ | .status _ => true
  | _ => false

namespace Worker

/-- The worker after a call that has changed the globals. -/
def withGlobals (w : Worker) (g : Globals) : Worker := { w with globals := g }

/-- The environment of a call in this process. -/
def env (w : Worker) (e : CallEnv) : CallEnv := { e with pid := w.pid }

/-- One step. A call can end once; the engine's interrupt comes to an end if the profiler's does. -/
def step (w : Worker) : Action → Option Worker
  | .rinit sapi e => some (w.withGlobals (w.globals.rinit sapi (w.env e)))
  | .rshutdown => some (w.withGlobals w.globals.rshutdown)
  | .begin context e => some (w.withGlobals (w.globals.begin context (w.env e)).2)
  | .finish handle includeProfile includeStacks e =>
    some (w.withGlobals (w.globals.finish handle includeProfile includeStacks (w.env e)).2)
  | .status e => some (w.withGlobals (w.globals.status (w.env e)).2)
  | .iniSet periodUs maxDepth =>
    some (w.withGlobals { w.globals with periodUs := periodUs, maxDepth := maxDepth })
  | .opBegin type now =>
    some { w with
      globals := (w.globals.noteOpBegin type now).2
      calls := w.calls ++ [some (w.globals.noteOpBegin type now).1] }
  | .opEnd call now =>
    match w.calls[call]? with
    | some (some token) =>
      some { w with globals := w.globals.noteOpEnd token now, calls := w.calls.set call none }
    | _ => none
  | .tick ticks => some (w.withGlobals { w.globals with prof := w.globals.prof.tick ticks })
  | .interrupt stack between now =>
    match w.globals.prof.interrupt stack between now with
    | some prof => some (w.withGlobals { w.globals with prof := prof })
    | none => none
  | .fork child =>
    some { w with
      pid := child
      globals := { w.globals with
        prof := { w.globals.prof with timer := w.globals.prof.timer.fork } } }

end Worker

/-- The step relation. -/
def WorkerSteps (w : Worker) (a : Action) (w' : Worker) : Prop := w.step a = some w'

/-- A process after module startup. -/
def startedWorker (ini : Ini) (io : StartupIo) (pid : Int) : Worker := ⟨pid, Globals.minit ini io pid, []⟩

end CboxTelemetry.Extension
