import CboxTelemetry.Crash.Record

/-!
# Timing of operations

A hooked call is measured between two calls of this module: `opsBegin` hands out a token, `opsEnd` takes it
back and books the time on the call's type. The slots are for the crash record only, which reports what
was in flight; a call that gets none is measured like any other. A token of an earlier generation is of a
unit that has ended, and its end books nothing (`opsEnd_stale`).
-/

namespace CboxTelemetry.Extension

/-! ## Types -/

/-- `cbox_op_type`. -/
inductive OpType
  | none
  | pdoConnect
  | redisConnect
  | redisPconnect
  | curlExec
  | streamConnect
  deriving DecidableEq, Repr

/-- The value of the enumeration. -/
def OpType.code : OpType → UInt8
  | .none => 0
  | .pdoConnect => 1
  | .redisConnect => 2
  | .redisPconnect => 3
  | .curlExec => 4
  | .streamConnect => 5

/-- `cbox_op_name`. -/
def OpType.name : OpType → Bytes
  | .none => []
  | .pdoConnect => ascii "pdo.connect"
  | .redisConnect => ascii "redis.connect"
  | .redisPconnect => ascii "redis.pconnect"
  | .curlExec => ascii "curl.exec"
  | .streamConnect => ascii "stream.connect"

/-- The types that can be measured, in the order in which they are reported. -/
def opTypes : List OpType := [.pdoConnect, .redisConnect, .redisPconnect, .curlExec, .streamConnect]

def opStackMax : Nat := 8

/-- `cbox_op_agg`. -/
structure OpAgg where
  count : UInt32
  totalNs : UInt64
  maxNs : UInt64
  deriving DecidableEq, Repr

/-- `cbox_op_frame`. -/
structure OpFrame where
  type : OpType
  startNs : UInt64
  deriving DecidableEq, Repr

/-- `cbox_op_state`. -/
@[ext] structure OpState where
  agg : OpType → OpAgg
  frames : Vector OpFrame opStackMax
  depth : Nat
  overflow : UInt32
  generation : UInt32

/-- `cbox_op_token`. `CBOX_OP_NO_SLOT` is `none`. -/
structure OpToken where
  type : OpType
  startNs : UInt64
  slot : Option Nat
  generation : UInt32
  deriving DecidableEq, Repr

/-! ## Functions -/

def OpAgg.zero : OpAgg := ⟨0, 0, 0⟩

/-- An operation of `elapsed` nanoseconds. -/
def OpAgg.book (a : OpAgg) (elapsed : UInt64) : OpAgg where
  count := a.count + 1
  totalNs := a.totalNs + elapsed
  maxNs := if a.maxNs < elapsed then elapsed else a.maxNs

/-- The time from `start` to `now`, if the clock has not gone back. -/
def elapsed (start now : UInt64) : UInt64 := if start < now then now - start else 0

theorem elapsed_toNat (start now : UInt64) : (elapsed start now).toNat = now.toNat - start.toNat := by
  unfold elapsed
  split
  · next hlt => exact UInt64.toNat_sub_of_le _ _ (UInt64.le_of_lt hlt)
  · next hge =>
    rw [UInt64.lt_iff_toNat_lt] at hge
    rw [Nat.sub_eq_zero_of_le (Nat.le_of_not_lt hge)]
    rfl

namespace OpState

/-- A state that `memset` has cleared. -/
def cleared : OpState := ⟨fun _ => .zero, Vector.replicate opStackMax ⟨.none, 0⟩, 0, 0, 0⟩

/-- `cbox_ops_reset`. -/
def opsReset (s : OpState) : OpState := { cleared with generation := s.generation + 1 }

/-- `cbox_ops_begin`. -/
def opsBegin (s : OpState) (type : OpType) (now : UInt64) : OpToken × OpState :=
  if type = .none then (⟨.none, now, none, s.generation⟩, s)
  else if h : s.depth < opStackMax then
    (⟨type, now, some s.depth, s.generation⟩,
      { s with frames := s.frames.set s.depth ⟨type, now⟩, depth := s.depth + 1 })
  else (⟨type, now, none, s.generation⟩, { s with overflow := s.overflow + 1 })

/-- The loop of `cbox_ops_top`, from slot `index` down: one more than the innermost slot in use. The loop of
`cbox_ops_end` that lets go of the slots on top is the same. -/
def topFrom (frames : Vector OpFrame opStackMax) : Nat → Nat
  | 0 => 0
  | index + 1 =>
    if ((frames[index]?.map OpFrame.type).getD .none) = .none then topFrom frames index else index + 1

/-- The slot of an operation that has ended is let go of. -/
def release (s : OpState) (slot : Option Nat) : OpState :=
  match slot with
  | none => s
  | some slot =>
    if h : slot < opStackMax then
      let frames := s.frames.set slot { s.frames[slot] with type := .none }
      { s with frames := frames, depth := topFrom frames s.depth }
    else s

/-- `cbox_ops_end`. -/
def opsEnd (s : OpState) (token : OpToken) (now : UInt64) : OpState :=
  if token.type = .none then s
  else if token.generation ≠ s.generation then s
  else
    let s := s.release token.slot
    { s with agg := Function.update s.agg token.type ((s.agg token.type).book (elapsed token.startNs now)) }

/-- `cbox_ops_top`. -/
def opsTop (s : OpState) : Nat := topFrom s.frames s.depth

/-- `cbox_ops_current`. -/
def opsCurrent (s : OpState) : OpType :=
  if s.opsTop = 0 then .none else (s.frames[s.opsTop - 1]?.map OpFrame.type).getD .none

/-- `cbox_ops_current_start`. -/
def opsCurrentStart (s : OpState) : UInt64 :=
  if s.opsTop = 0 then 0 else (s.frames[s.opsTop - 1]?.map OpFrame.startNs).getD 0

/-! ## What the functions do to the aggregates -/

variable {s : OpState} {token : OpToken} {type : OpType} {now : UInt64}

@[simp] theorem opsReset_agg (s : OpState) : s.opsReset.agg = fun _ => .zero := rfl

@[simp] theorem opsReset_generation (s : OpState) : s.opsReset.generation = s.generation + 1 := rfl

@[simp] theorem opsBegin_agg (s : OpState) (type : OpType) (now : UInt64) :
    (s.opsBegin type now).2.agg = s.agg := by
  unfold opsBegin
  split
  · rfl
  · split <;> rfl

@[simp] theorem opsBegin_generation (s : OpState) (type : OpType) (now : UInt64) :
    (s.opsBegin type now).2.generation = s.generation := by
  unfold opsBegin
  split
  · rfl
  · split <;> rfl

theorem opsBegin_token (s : OpState) (type : OpType) (now : UInt64) :
    (s.opsBegin type now).1.type = type ∧ (s.opsBegin type now).1.startNs = now ∧
      (s.opsBegin type now).1.generation = s.generation := by
  unfold opsBegin
  split
  · next hnone => exact ⟨hnone.symm, rfl, rfl⟩
  · split <;> exact ⟨rfl, rfl, rfl⟩

@[simp] theorem release_agg (s : OpState) (slot : Option Nat) : (s.release slot).agg = s.agg := by
  unfold release
  split
  · rfl
  · split <;> rfl

@[simp] theorem release_generation (s : OpState) (slot : Option Nat) :
    (s.release slot).generation = s.generation := by
  unfold release
  split
  · rfl
  · split <;> rfl

@[simp] theorem opsEnd_generation (s : OpState) (token : OpToken) (now : UInt64) :
    (s.opsEnd token now).generation = s.generation := by
  unfold opsEnd
  split
  · rfl
  · split
    · rfl
    · exact release_generation s token.slot

/-- A token of another generation is not of this unit. -/
theorem opsEnd_stale (h : token.generation ≠ s.generation) : s.opsEnd token now = s := by
  unfold opsEnd
  rw [if_pos h]
  split <;> rfl

theorem opsEnd_none (h : token.type = .none) : s.opsEnd token now = s := by
  unfold opsEnd
  rw [if_pos h]

/-- The end of an operation of this unit books its time, whether it had a slot or not. -/
theorem opsEnd_agg (htype : token.type ≠ .none) (hgeneration : token.generation = s.generation) :
    (s.opsEnd token now).agg =
      Function.update s.agg token.type ((s.agg token.type).book (elapsed token.startNs now)) := by
  unfold opsEnd
  rw [if_neg htype, if_neg (not_not.mpr hgeneration)]
  show Function.update (s.release token.slot).agg _ (((s.release token.slot).agg token.type).book _) = _
  rw [release_agg]

end OpState

end CboxTelemetry.Extension
