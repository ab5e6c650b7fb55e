import CboxTelemetry.Crash.Record

/-!
# Units of work

A unit is what the caller says it is. Its trace and span ids are kept as raw bytes, so that a crash record
can carry them; whether there is one is a flag next to the bytes, because a string that is no id can leave
bytes behind.
-/

namespace CboxTelemetry.Extension

/-- `cbox_unit_type`. -/
inductive UnitType
  | none
  | http
  | queue
  | command
  | schedule
  | other
  deriving DecidableEq, Repr

/-- The value of the enumeration. -/
def UnitType.code : UnitType → UInt8
  | .none => 0
  | .http => 1
  | .queue => 2
  | .command => 3
  | .schedule => 4
  | .other => 5

/-- `cbox_unit_type_name`, of any byte. -/
def unitTypeName (code : UInt8) : Bytes :=
  if code = 1 then ascii "http"
  else if code = 2 then ascii "queue"
  else if code = 3 then ascii "command"
  else if code = 4 then ascii "schedule"
  else if code = 5 then ascii "other"
  else ascii "none"

/-- `cbox_unit_type_from`. -/
def unitTypeFrom (name : Bytes) : UnitType :=
  if name = ascii "http" then .http
  else if name = ascii "queue" then .queue
  else if name = ascii "command" then .command
  else if name = ascii "schedule" then .schedule
  else .other

def traceIdBytes : Nat := 16
def spanIdBytes : Nat := 8

/-- `cbox_unit_state`. -/
structure UnitState where
  handle : UInt32
  type : UnitType
  sampled : Bool
  profiling : Bool
  hasTrace : Bool
  hasSpan : Bool
  automatic : Bool
  adopted : Bool
  startNs : UInt64
  traceId : Vector UInt8 traceIdBytes
  spanId : Vector UInt8 spanIdBytes
  deriving DecidableEq

/-- `cbox_unit_reset`. -/
def UnitState.cleared : UnitState where
  handle := 0
  type := .none
  sampled := false
  profiling := false
  hasTrace := false
  hasSpan := false
  automatic := false
  adopted := false
  startNs := 0
  traceId := Vector.replicate traceIdBytes 0
  spanId := Vector.replicate spanIdBytes 0

/-! ## Ids -/

/-- `cbox_hex_value`. -/
def hexValue (c : UInt8) : Option UInt8 :=
  if 48 ≤ c ∧ c ≤ 57 then some (c - 48)
  else if 97 ≤ c ∧ c ≤ 102 then some (c - 97 + 10)
  else if 65 ≤ c ∧ c ≤ 70 then some (c - 65 + 10)
  else none

/-- The loop of `cbox_hex_decode` from byte `i` on. It stops at the first digit that is none, and the bytes
before it have been written. -/
def hexDecodeFrom {n : Nat} (hex : Bytes) (out : Vector UInt8 n) (i : Nat) : Bool × Vector UInt8 n :=
  if h : i < n then
    match hexValue (hex.getD (i * 2) 0), hexValue (hex.getD (i * 2 + 1) 0) with
    | some hi, some lo => hexDecodeFrom hex (out.set i (hi <<< 4 ||| lo)) (i + 1)
    | _, _ => (false, out)
  else (true, out)
termination_by n - i

/-- `cbox_hex_decode`: whether the string is an id, and what has been written of it. -/
def hexDecode {n : Nat} (hex : Bytes) (out : Vector UInt8 n) : Bool × Vector UInt8 n :=
  if hex.length ≠ n * 2 then (false, out) else hexDecodeFrom hex out 0

/-- `cbox_bytes_are_zero`. -/
def bytesAreZero {n : Nat} (bytes : Vector UInt8 n) : Bool := bytes.toList.all (· == 0)

/-- `cbox_hex_digits`, indexed. -/
def hexDigit (v : UInt8) : UInt8 := (ascii "0123456789abcdef").getD v.toNat 0

/-- `cbox_hex_encode`. -/
def hexEncode {n : Nat} (bytes : Vector UInt8 n) : Bytes :=
  bytes.toList.flatMap fun (b : UInt8) => [hexDigit (b >>> 4), hexDigit (b &&& 0x0f)]

/-! ## Contexts -/

/-- A value of PHP, as far as `begin` looks at it. -/
inductive Zval
  | null
  | bool (value : Bool)
  | long (value : Int)
  | double
  | string (bytes : Bytes)
  | array
  | object
  | reference (value : Zval)
  deriving DecidableEq, Repr

/-- `ZVAL_DEREF`. -/
def Zval.deref : Zval → Zval
  | .reference value => value
  | value => value

/-- The array given to `begin`, with its string keys. -/
abbrev Context := List (Bytes × Zval)

/-- `cbox_context_find`. -/
def contextFind (context : Context) (key : String) : Option Zval :=
  (context.find? fun entry => entry.1 == ascii key).map fun entry => entry.2.deref

/-- `cbox_context_truthy`. -/
def contextTruthy (value : Zval) (fallback : Bool) : Bool :=
  match value with
  | .bool value => value
  | .long value => value != 0
  | .string bytes => bytes != [] && bytes != ascii "0"
  | _ => fallback

namespace UnitState

/-- The trace id of `cbox_unit_apply_trace`. A string that is no id leaves what was decoded of it. -/
def applyTraceId (unit : UnitState) : Option Zval → UnitState
  | some (.string hex) =>
    let (decoded, traceId) := hexDecode hex unit.traceId
    if decoded && !bytesAreZero traceId then { unit with traceId := traceId, hasTrace := true }
    else { unit with traceId := traceId }
  | _ => unit

/-- The span id of `cbox_unit_apply_trace`. -/
def applySpanId (unit : UnitState) : Option Zval → UnitState
  | some (.string hex) =>
    let (decoded, spanId) := hexDecode hex unit.spanId
    if decoded && !bytesAreZero spanId then { unit with spanId := spanId, hasSpan := true }
    else { unit with spanId := Vector.replicate spanIdBytes 0, hasSpan := false }
  | _ => unit

/-- `cbox_unit_apply_trace`. -/
def applyTrace (unit : UnitState) (context : Option Context) : UnitState :=
  match context with
  | none => unit
  | some context =>
    (unit.applyTraceId (contextFind context "trace_id")).applySpanId (contextFind context "span_id")

/-- What `cbox_unit_apply_trace` leaves alone. -/
structure SameApartFromIds (unit unit' : UnitState) : Prop where
  handle_eq : unit'.handle = unit.handle
  type_eq : unit'.type = unit.type
  sampled_eq : unit'.sampled = unit.sampled
  profiling_eq : unit'.profiling = unit.profiling
  automatic_eq : unit'.automatic = unit.automatic
  adopted_eq : unit'.adopted = unit.adopted
  startNs_eq : unit'.startNs = unit.startNs

theorem SameApartFromIds.refl (unit : UnitState) : SameApartFromIds unit unit :=
  ⟨rfl, rfl, rfl, rfl, rfl, rfl, rfl⟩

/-- The ids are all that a context changes. -/
theorem applyTrace_same (unit : UnitState) (context : Option Context) :
    SameApartFromIds unit (unit.applyTrace context) := by
  have htrace : ∀ (unit : UnitState) (value : Option Zval), SameApartFromIds unit (unit.applyTraceId value) := by
    intro unit value
    unfold applyTraceId
    split
    · simp only
      split <;> exact ⟨rfl, rfl, rfl, rfl, rfl, rfl, rfl⟩
    · exact .refl unit
  have hspan : ∀ (unit : UnitState) (value : Option Zval), SameApartFromIds unit (unit.applySpanId value) := by
    intro unit value
    unfold applySpanId
    split
    · simp only
      split <;> exact ⟨rfl, rfl, rfl, rfl, rfl, rfl, rfl⟩
    · exact .refl unit
  cases context with
  | none => exact .refl unit
  | some context =>
    obtain ⟨h₁, h₂, h₃, h₄, h₅, h₆, h₇⟩ := htrace unit (contextFind context "trace_id")
    obtain ⟨k₁, k₂, k₃, k₄, k₅, k₆, k₇⟩ :=
      hspan (unit.applyTraceId (contextFind context "trace_id")) (contextFind context "span_id")
    exact ⟨k₁.trans h₁, k₂.trans h₂, k₃.trans h₃, k₄.trans h₄, k₅.trans h₅, k₆.trans h₆, k₇.trans h₇⟩

end UnitState

end CboxTelemetry.Extension
