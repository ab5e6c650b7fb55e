import CboxTelemetry.Breadcrumbs.Ring
import CboxTelemetry.Crash.SinkName
import CboxTelemetry.Extension.Operations
import CboxTelemetry.Extension.Unit

/-!
# The crash recorder of a process

The name of a process's sink is built outside signal context, by the first call that finds it is running in
a new process. The handler opens the file, fills in the record that was prepared at startup and appends
it; what becomes of the signal after that is in `Crash.Signals`.
-/

namespace CboxTelemetry.Extension

open Crash (Name crashSinkName crashPathMax CrashRecord Crumb crashCrumbs crashMagic crashFormatVersion recordSize)
open Breadcrumbs (CrumbRing blankCrumb)

/-! ## The recorder -/

/-- `cbox_crash_status`. -/
inductive CrashStatus
  | off
  | armed
  | noDirectory
  | noSink
  | noHandler
  deriving DecidableEq, Repr

/-- `cbox_crash_record_buffer` after `memset`. -/
def blankRecord : CrashRecord where
  magic := 0
  formatVersion := 0
  recordLen := 0
  signal := 0
  siCode := 0
  pid := 0
  crumbCount := 0
  realtimeNs := 0
  monotonicNs := 0
  traceId := Vector.replicate 16 0
  spanId := Vector.replicate 8 0
  unitType := 0
  currentOp := 0
  hasTrace := 0
  hasSpan := 0
  unitStartNs := 0
  currentOpStartNs := 0
  faultAddress := 0
  programCounter := 0
  moduleBase := 0
  crumbs := Vector.replicate 32 blankCrumb

/-- The statics of `crash.c`. The sink's path is the name in `ownedDir`, and the descriptor is that of the
file with this name. -/
structure Recorder where
  inProgress : Bool
  installed : Bool
  fd : Option Name
  record : CrashRecord
  moduleBase : UInt64
  path : Option Name
  dir : Bytes
  ownedDir : List Char
  sinkPid : Int
  status : CrashStatus

namespace Recorder

def cleared : Recorder where
  inProgress := false
  installed := false
  fd := none
  record := blankRecord
  moduleBase := 0
  path := none
  dir := []
  ownedDir := []
  sinkPid := 0
  status := .off

/-- `cbox_crash_install`, as far as the recorder's own state goes: whether `sigaction` works, and where the
module is mapped. -/
def crashInstall (r : Recorder) (dir : Option Bytes) (sigaction : Bool) (moduleBase : UInt64) : Recorder :=
  if r.installed then r
  else
    match dir with
    | none => { r with status := .noDirectory }
    | some dir =>
      if dir = [] ∨ crashPathMax - 32 ≤ dir.length then { r with status := .noDirectory }
      else
        let r := { r with
          dir := dir
          path := none
          moduleBase := moduleBase
          record := { blankRecord with
            magic := .ofNat crashMagic
            formatVersion := .ofNat crashFormatVersion
            recordLen := .ofNat recordSize } }
        if sigaction then { r with installed := true, status := .armed } else { r with status := .noHandler }

/-- How the calls of `cbox_crash_open_sink` come out: the directory it prepares, and whether the base can be
written to. -/
structure SinkIo where
  ownedDir : Option (List Char)
  access : Bool

/-- `cbox_crash_open_sink`. -/
def crashOpenSink (r : Recorder) (io : SinkIo) (pid : Int) : Recorder :=
  if !r.installed || r.dir = [] then r
  else if r.sinkPid = pid ∧ r.path ≠ none then r
  else
    let r := { r with fd := none, path := none, sinkPid := 0 }
    match io.ownedDir with
    | none => { r with status := .noDirectory }
    | some ownedDir =>
      let r := { r with ownedDir := ownedDir }
      match crashSinkName ownedDir pid with
      | none => { r with status := .noSink }
      | some name =>
        if !io.access then { r with status := .noSink }
        else { r with path := some name, sinkPid := pid, status := .armed }

/-! ## The handler -/

/-- What the handler reads of the signal and of the clocks, and whether the sink opens and is a plain file
of this user. -/
structure SignalEnv where
  signal : UInt32
  siCode : UInt32
  faultAddress : UInt64
  programCounter : UInt64
  realtimeNs : UInt64
  monotonicNs : UInt64
  opens : Bool

/-- What the recorder is given to read: `cbox_crash_unit`, `cbox_crash_ops` and `cbox_crash_ring`. -/
structure Watched where
  unit : UnitState
  ops : OpState
  crumbs : CrumbRing

/-- The record, filled in. Breadcrumbs beyond the count are left over. -/
def fill (r : Recorder) (env : SignalEnv) (pid : Int) (w : Watched) : CrashRecord :=
  let crumbs := w.crumbs.snapshot crashCrumbs
  { r.record with
    signal := env.signal
    siCode := env.siCode
    faultAddress := env.faultAddress
    programCounter := env.programCounter
    moduleBase := r.moduleBase
    pid := .ofNat pid.toNat
    realtimeNs := env.realtimeNs
    monotonicNs := env.monotonicNs
    unitType := w.unit.type.code
    hasTrace := if w.unit.hasTrace then 1 else 0
    hasSpan := if w.unit.hasSpan then 1 else 0
    unitStartNs := w.unit.startNs
    traceId := w.unit.traceId
    spanId := w.unit.spanId
    currentOp := w.ops.opsCurrent.code
    currentOpStartNs := w.ops.opsCurrentStart
    crumbs := Vector.ofFn fun i => crumbs.getD i (r.record.crumbs.get i)
    crumbCount := .ofNat crumbs.length }

/-- `cbox_crash_handler` up to the disposition: the record that is appended, with the file it goes to. -/
def crashHandler (r : Recorder) (env : SignalEnv) (pid : Int) (w : Watched) :
    Option (Name × CrashRecord) × Recorder :=
  if r.inProgress then (none, r)
  else
    let fd := if r.fd = none ∧ env.opens then r.path else r.fd
    let r := { r with inProgress := true, fd := fd }
    match fd with
    | none => (none, r)
    | some name => (some (name, r.fill env pid w), { r with record := r.fill env pid w })

end Recorder

end CboxTelemetry.Extension
