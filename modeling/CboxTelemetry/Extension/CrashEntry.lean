import CboxTelemetry.Crash.Decode
import CboxTelemetry.Crash.Fields
import CboxTelemetry.Extension.Recorder

/-!
# What a drain returns

`drain_crashes` makes one array of every record that the drain visits. The fields are read from the bytes of
the sink, whoever wrote them; a record that this extension wrote is read back as it was (`drainVisitEntry_encode`).
-/

namespace CboxTelemetry.Extension

open Crash (CrashRecord Crumb OwnRecord DrainResult Name crashCrumbs crumbLabelMax)

/-! ## The array -/

/-- One of the `breadcrumbs` of an entry. -/
structure CrumbEntry where
  seq : Int
  type : Bytes
  label : Bytes
  tsNs : Int
  deriving DecidableEq, Repr

/-- The array for one record. -/
structure CrashEntry where
  signal : Int
  signalName : Bytes
  siCode : Int
  faultAddress : Option Bytes
  programCounter : Bytes
  moduleBase : Bytes
  moduleOffset : Option Int
  pid : Int
  timestampNs : Int
  unit : Bytes
  unitDurationNs : Int
  traceId : Option Bytes
  spanId : Option Bytes
  operation : Option Bytes
  operationElapsedNs : Option Int
  breadcrumbs : List CrumbEntry
  deriving DecidableEq, Repr

/-- The conversion of a `uint64_t` to a `zend_long`. -/
def zendLong (v : UInt64) : Int := if v.toNat < 2 ^ 63 then v.toNat else v.toNat - 2 ^ 64

/-- The value of an `int32_t`. -/
def int32 (v : UInt32) : Int := if v.toNat < 2 ^ 31 then v.toNat else v.toNat - 2 ^ 32

/-- `cbox_signal_name`. -/
def signalName (signal : UInt32) : Bytes :=
  if signal = 11 then ascii "SIGSEGV"
  else if signal = 6 then ascii "SIGABRT"
  else if signal = 7 then ascii "SIGBUS"
  else if signal = 4 then ascii "SIGILL"
  else ascii "UNKNOWN"

/-- `cbox_crumb_type_name`. -/
def crumbTypeName (type : UInt8) : Bytes :=
  if type = 1 then ascii "unit.begin"
  else if type = 2 then ascii "unit.end"
  else if type = 3 then ascii "op.begin"
  else if type = 4 then ascii "op.end"
  else if type = 5 then ascii "gc"
  else ascii "none"

/-- The format `0x%llx`. -/
def hexLong (v : UInt64) : Bytes := ascii "0x" ++ (Nat.toDigits 16 v.toNat).map fun c => UInt8.ofNat c.toNat

/-- The name of an operation that a record can have been in. -/
def opNameOf (code : UInt8) : Option Bytes := (opTypes.find? fun type => type.code == code).map OpType.name

/-- The elapsed time of an entry. -/
def elapsedLong (start now : UInt64) : Int := zendLong (elapsed start now)

/-- A breadcrumb of a record. -/
def crumbEntry (c : Crumb) : CrumbEntry where
  seq := c.seq.toNat
  type := crumbTypeName c.type
  label := c.label.toList.take (if crumbLabelMax < c.labelLen.toNat then crumbLabelMax else c.labelLen.toNat)
  tsNs := zendLong c.tsNs

/-- The array that `cbox_drain_visit` makes of a record. -/
def entryOf (r : CrashRecord) : CrashEntry where
  signal := r.signal.toNat
  signalName := signalName r.signal
  siCode := int32 r.siCode
  faultAddress := if 0 < int32 r.siCode then some (hexLong r.faultAddress) else none
  programCounter := hexLong r.programCounter
  moduleBase := hexLong r.moduleBase
  moduleOffset :=
    if r.programCounter ≠ 0 ∧ r.moduleBase ≠ 0 ∧ r.moduleBase < r.programCounter ∧
        r.programCounter - r.moduleBase < 16 * 1024 * 1024 then
      some (zendLong (r.programCounter - r.moduleBase))
    else none
  pid := r.pid.toNat
  timestampNs := zendLong r.realtimeNs
  unit := unitTypeName r.unitType
  unitDurationNs := elapsedLong r.unitStartNs r.monotonicNs
  traceId := if r.hasTrace ≠ 0 then some (hexEncode r.traceId) else none
  spanId := if r.hasSpan ≠ 0 then some (hexEncode r.spanId) else none
  operation := opNameOf r.currentOp
  operationElapsedNs := (opNameOf r.currentOp).map fun _ => elapsedLong r.currentOpStartNs r.monotonicNs
  breadcrumbs := (r.crumbs.toList.take r.crumbCount.toNat).map crumbEntry

/-- `cbox_drain_visit`, given a pointer into a sink. -/
def drainVisitEntry (record : Bytes) : CrashEntry := entryOf (CrashRecord.decode record)

theorem drainVisitEntry_encode (r : CrashRecord) : drainVisitEntry r.encode = entryOf r := by
  rw [drainVisitEntry, r.decode_encode]

/-- The entries that a drain makes of the records of a sink. -/
def drainedEntries (r : DrainResult) (name : Name) : List CrashEntry := (r.handedFrom name).map drainVisitEntry

/-! ## Numbers -/

theorem zendLong_of_lt {v : UInt64} (h : v.toNat < 2 ^ 63) : zendLong v = v.toNat := if_pos h

/-- The signed difference of the clock's readings is the elapsed time. -/
theorem elapsedLong_eq (start now : UInt64) (h : now.toNat < 2 ^ 63) :
    elapsedLong start now = (now.toNat - start.toNat : Nat) := by
  have hnat := elapsed_toNat start now
  rw [elapsedLong, zendLong_of_lt (by omega), hnat]

theorem opNameOf_code (type : OpType) : opNameOf type.code = if type = .none then none else some type.name := by
  cases type <;> decide

end CboxTelemetry.Extension
