import CboxTelemetry.Crash.DrainFile
import CboxTelemetry.Crash.Compact
import CboxTelemetry.Crash.SinkName
import CboxTelemetry.Crash.Items
import CboxTelemetry.Crash.Calls
import CboxTelemetry.Lib.Run

/-!
# Drainer and crash handlers side by side

The drain and the crash handlers of other processes share a directory and no lock. Here each system
call is a step of its own: the drainer's `readdir`, `kill`, `open`, `fstat`, `pread` and `unlink`, the
`pread`, `pwrite` and `ftruncate` of a compaction, and the `open`, `fstat` and `write` of a handler on
the path its process holds. Processes come and go in between, pids are reused, and a forked child holds
its parent's path until a call of the extension repairs it.

What lies between two system calls is computed at once, with the functions of the sequential model.
-/

namespace CboxTelemetry.Crash

/-! ## Processes -/

/-- Where a process stands in `cbox_crash_handler`. The descriptor is opened there and nowhere else,
and the latch lets no second signal past the first lines, so it is part of the phase. -/
inductive Phase
  | running
  | opened (name : Pid) (ino : Nat)
  | checked (name : Pid) (ino : Nat)
  | over
  deriving DecidableEq

/-- What matters of a process here: whose sink `cbox_crash_path` names (`none` when it is empty), and
the phase. `cbox_crash_sink_pid` is always that pid. -/
structure Process where
  path : Option Pid
  phase : Phase
  deriving DecidableEq

/-- `cbox_crash_open_sink` in process `pid`; `ok` says whether the directory is fit for use. -/
def Process.openSink (pid : Pid) (ok : Bool) (x : Process) : Process :=
  if x.path = some pid then x
  else { x with path := if ok then some pid else none }

/-! ## The drainer -/

/-- The next system call of the drainer, with the local variables it needs. -/
inductive DrainPc
  | idle
  | named (p : Pid)
  | dead (p : Pid)
  | opened (p : Pid) (ino : Nat)
  | statted (p : Pid) (ino size : Nat)
  | removing (p : Pid)
  | discarding (p : Pid) (consumed : Nat)
  | copying (p : Pid) (ino readAt writeAt : Nat)
  | holding (p : Pid) (ino readAt writeAt : Nat) (chunk : Bytes)
  | truncating (p : Pid) (ino writeAt : Nat)

/-- The sink the drainer has a descriptor or a verdict on. -/
def DrainPc.sink : DrainPc → Option Pid
  | .idle => none
  | .named _ => none
  | .dead _ => none
  | .opened p _ => some p
  | .statted p _ _ => some p
  | .removing p => some p
  | .discarding p _ => some p
  | .copying p _ _ _ => some p
  | .holding p _ _ _ _ => some p
  | .truncating p _ _ => some p

/-- What follows the verdict on the sink of `p`. -/
def DrainPc.after (p : Pid) (r : DrainFileResult) : DrainPc :=
  if r.consumable then .removing p
  else if 0 < r.consumedBytes then .discarding p r.consumedBytes
  else .idle

/-! ## The world -/

/-- The processes, the sink directory as names and inodes, and the drainer. `written` and `handed`
are history: the records completely written through a sink's name and those handed over from it. -/
structure World where
  procs : Pid → Option Process
  link : Pid → Option Nat
  files : Nat → Bytes
  nextIno : Nat
  pc : DrainPc
  budget : Nat
  written : Pid → List OwnRecord
  handed : Pid → List Bytes

/-- No process but the drainer, and an empty directory. -/
def World.start (self : Pid) : World where
  procs := Function.update (fun _ => none) self (some ⟨none, .running⟩)
  link _ := none
  files _ := []
  nextIno := 0
  pc := .idle
  budget := 0
  written _ := []
  handed _ := []

def World.setProc (w : World) (p : Pid) (x : Option Process) : World :=
  { w with procs := Function.update w.procs p x }

inductive Action
  | spawn (p : Pid)
  | fork (p child : Pid)
  | exit (p : Pid)
  | openSink (p : Pid) (ok : Bool)
  | crashOpen (p : Pid)
  | crashStat (p : Pid)
  | crashWrite (p : Pid) (r : OwnRecord)
  | crashFails (p : Pid)
  | drain (max : Nat)
  | readdir (p : Pid)
  | checkAlive
  | openRead
  | fstat
  | pread
  | unlink
  | compactOpen
  | compactRead
  | compactWrite
  | ftruncate

/-- `open` with `O_CREAT` on the sink of `q`, by process `p` in its handler. -/
def World.crashOpen (w : World) (p q : Pid) (x : Process) : World :=
  match w.link q with
  | some ino => w.setProc p (some { x with phase := .opened q ino })
  | none =>
    { w with
      procs := Function.update w.procs p (some { x with phase := .opened q w.nextIno })
      link := Function.update w.link q (some w.nextIno)
      files := Function.update w.files w.nextIno []
      nextIno := w.nextIno + 1 }

/-- One `write` of a whole record to a descriptor in append mode. -/
def World.append (w : World) (q : Pid) (ino : Nat) (r : OwnRecord) : World :=
  { w with
    files := Function.update w.files ino (w.files ino ++ r.bytes)
    written := Function.update w.written q (w.written q ++ [r]) }

/-- The read of a sink of which `fstat` said that it has `size` bytes, and the loop over it. -/
def World.drainFile (w : World) (p : Pid) (ino size : Nat) : World :=
  let buffer := (w.files ino).take (min size crashDrainMaxBytes)
  let r := drainVerdict size buffer (crashScan drainVisit buffer w.budget ⟨0, [], 0, false, false⟩)
  { w with
    pc := DrainPc.after p r
    budget := w.budget - r.visits.length
    handed := Function.update w.handed p (w.handed p ++ records r.visits) }

/-- A step of a process other than the drainer's drain. The process that drains, `self`, makes calls
and forks like any other, and outlives the run. -/
def processStep (self : Pid) (w : World) : Action → Option World
  | .spawn p =>
    if (w.procs p).isSome then none else some (w.setProc p (some ⟨none, .running⟩))
  | .fork p child =>
    match w.procs p, w.procs child with
    | some ⟨path, .running⟩, none => some (w.setProc child (some ⟨path, .running⟩))
    | _, _ => none
  | .exit p => if p = self then none else some (w.setProc p none)
  | .openSink p ok =>
    match w.procs p with
    | some ⟨path, .running⟩ => some (w.setProc p (some (Process.openSink p ok ⟨path, .running⟩)))
    | _ => none
  | .crashOpen p =>
    if p = self then none
    else match w.procs p with
      | some ⟨some q, .running⟩ => some (w.crashOpen p q ⟨some q, .running⟩)
      | _ => none
  | .crashStat p =>
    match w.procs p with
    | some ⟨path, .opened q ino⟩ =>
      -- The file has one name, so a link count other than 1 means that it has been unlinked.
      some (w.setProc p (some ⟨path, if w.link q = some ino then .checked q ino else .over⟩))
    | _ => none
  | .crashWrite p r =>
    match w.procs p with
    | some ⟨path, .checked q ino⟩ => some ((w.append q ino r).setProc p (some ⟨path, .over⟩))
    | _ => none
  | .crashFails p =>
    if p = self then none
    else match w.procs p with
      | some x => some (w.setProc p (some { x with phase := .over }))
      | none => none
  | _ => none

/-- A step of the drainer. -/
def drainerStep (self : Pid) (w : World) : Action → Option World
  | .drain max =>
    match w.pc with
    | .idle => some { w with budget := max }
    | _ => none
  | .readdir p =>
    match w.pc with
    | .idle => if 0 < w.budget then some { w with pc := .named p } else none
    | _ => none
  | .checkAlive =>
    match w.pc with
    | .named p =>
      some { w with pc := if p = self ∨ (w.procs p).isSome then .idle else .dead p }
    | _ => none
  | .openRead =>
    match w.pc with
    | .dead p =>
      match w.link p with
      | some ino => some { w with pc := .opened p ino }
      | none => some { w with pc := .idle }
    | _ => none
  | .fstat =>
    match w.pc with
    | .opened p ino =>
      if (w.files ino).length = 0 then some { w with pc := .removing p }
      else some { w with pc := .statted p ino (w.files ino).length }
    | _ => none
  | .pread =>
    match w.pc with
    | .statted p ino size => some (w.drainFile p ino size)
    | _ => none
  | .unlink =>
    match w.pc with
    | .removing p => some { w with pc := .idle, link := Function.update w.link p none }
    | _ => none
  | .compactOpen =>
    match w.pc with
    | .discarding p consumed =>
      match w.link p with
      | some ino => some { w with pc := .copying p ino consumed 0 }
      | none => some { w with pc := .idle }
    | _ => none
  | .compactRead =>
    match w.pc with
    | .copying p ino readAt writeAt =>
      let chunk := ((w.files ino).drop readAt).take compactChunk
      if chunk = [] then some { w with pc := .truncating p ino writeAt }
      else some { w with pc := .holding p ino readAt writeAt chunk }
    | _ => none
  | .compactWrite =>
    match w.pc with
    | .holding p ino readAt writeAt chunk =>
      some { w with
        pc := .copying p ino (readAt + chunk.length) (writeAt + chunk.length)
        files := Function.update w.files ino (InPlace.overwrite (w.files ino) writeAt chunk) }
    | _ => none
  | .ftruncate =>
    match w.pc with
    | .truncating _ ino writeAt =>
      some { w with
        pc := .idle
        files := Function.update w.files ino ((w.files ino).take writeAt) }
    | _ => none
  | _ => none

/-- One step of the world. -/
def World.step (self : Pid) (w : World) (a : Action) : Option World :=
  (processStep self w a).or (drainerStep self w a)

/-- The step relation. -/
def Steps (self : Pid) (w : World) (a : Action) (w' : World) : Prop := w.step self a = some w'

end CboxTelemetry.Crash
