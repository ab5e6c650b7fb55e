import CboxTelemetry.Crash.Checked
import CboxTelemetry.Extension.CrashEntry

/-!
# Reading a record within its bytes

The drain shows its visitor a pointer into the bytes it has read, and only the record lies behind it for
certain. `drainVisitChecked` is `cbox_drain_visit` with every access to the record checked, in the order of
the source: it never looks outside the record, whatever is in its fields (`drainVisitChecked_eq`). With
the checked loop of the drain that bounds every access to a sink, for any bytes (`crashDrainFile_safe`).
-/

namespace CboxTelemetry.Extension

open Layout (field read read_eq field_field)
open Crash (CrashRecord Crumb fromLe u16Field u32Field u64Field bytesField recordSize crashCrumbs crumbLabelMax
  ReadIo SinkFile crashDrainFile crashDrainFileChecked crashDrainFileChecked_eq crashDrainFile_within)

/-! ## One field -/

def u16Checked (b : Bytes) (offset : Nat) : Option UInt16 := (read b offset 2).map fun bytes => .ofNat (fromLe bytes)
def u32Checked (b : Bytes) (offset : Nat) : Option UInt32 := (read b offset 4).map fun bytes => .ofNat (fromLe bytes)
def u64Checked (b : Bytes) (offset : Nat) : Option UInt64 := (read b offset 8).map fun bytes => .ofNat (fromLe bytes)

/-- An array of bytes. -/
def bytesChecked (n : Nat) (b : Bytes) (offset : Nat) : Option (Vector UInt8 n) :=
  (read b offset n).map fun bytes => Vector.ofFn fun i => bytes.getD i 0

/-- A part of the record that is looked at only when another says that it is there. -/
def lookedAtWhen (present : Prop) [Decidable present] (part : Option α) : Option (Option α) :=
  if present then part.map some else some none

theorem lookedAtWhen_some (present : Prop) [Decidable present] (part : α) :
    lookedAtWhen present (some part) = some (if present then some part else none) := by
  unfold lookedAtWhen
  split <;> rfl

section
variable {b : Bytes} {offset : Nat}

theorem u16Checked_eq (h : offset + 2 ≤ b.length) : u16Checked b offset = some (u16Field b offset) := by
  rw [u16Checked, read_eq h, Option.map_some, u16Field]

theorem u32Checked_eq (h : offset + 4 ≤ b.length) : u32Checked b offset = some (u32Field b offset) := by
  rw [u32Checked, read_eq h, Option.map_some, u32Field]

theorem u64Checked_eq (h : offset + 8 ≤ b.length) : u64Checked b offset = some (u64Field b offset) := by
  rw [u64Checked, read_eq h, Option.map_some, u64Field]

theorem bytesChecked_eq {n : Nat} (h : offset + n ≤ b.length) :
    bytesChecked n b offset = some (bytesField n b offset) := by
  rw [bytesChecked, read_eq h, Option.map_some, bytesField]

theorem getElem?_eq_getD (h : offset < b.length) : b[offset]? = some (b.getD offset 0) := by
  rw [List.getD_eq_getElem?_getD, List.getElem?_eq_getElem h, Option.getD_some]

end

/-! ## The visitor -/

/-- One turn of the loop over the breadcrumbs. No more of the label is read than the array holds. -/
def crumbEntryChecked (record : Bytes) (index : Nat) : Option CrumbEntry := do
  let crumb := 112 + 64 * index
  let recorded ← u16Checked record (crumb + 14)
  let labelLen := if crumbLabelMax < recorded.toNat then crumbLabelMax else recorded.toNat
  let seq ← u32Checked record (crumb + 8)
  let type ← record[crumb + 12]?
  let label ← read record (crumb + 16) labelLen
  let tsNs ← u64Checked record crumb
  return ⟨seq.toNat, crumbTypeName type, label, zendLong tsNs⟩

/-- The loop over the breadcrumbs, from `index` on. -/
def crumbEntriesChecked (record : Bytes) (crumbCount index : Nat) : Option (List CrumbEntry) :=
  if index < crumbCount ∧ index < crashCrumbs then do
    let item ← crumbEntryChecked record index
    let items ← crumbEntriesChecked record crumbCount (index + 1)
    return item :: items
  else some []
termination_by crashCrumbs - index

/-- `cbox_drain_visit`, given a pointer at a record. -/
def drainVisitChecked (record : Bytes) : Option CrashEntry := do
  let signal ← u32Checked record 8
  let siCode ← u32Checked record 12
  let faultAddress ← lookedAtWhen (0 < int32 siCode) ((u64Checked record 88).map hexLong)
  let programCounter ← u64Checked record 96
  let moduleBase ← u64Checked record 104
  let pid ← u32Checked record 16
  let realtimeNs ← u64Checked record 24
  let unitType ← record[64]?
  let monotonicNs ← u64Checked record 32
  let unitStartNs ← u64Checked record 72
  let hasTrace ← record[66]?
  let traceId ← lookedAtWhen (hasTrace ≠ 0) ((bytesChecked 16 record 40).map hexEncode)
  let hasSpan ← record[67]?
  let spanId ← lookedAtWhen (hasSpan ≠ 0) ((bytesChecked 8 record 56).map hexEncode)
  let currentOp ← record[65]?
  let operationElapsedNs ←
    lookedAtWhen (opNameOf currentOp ≠ none) ((u64Checked record 80).map (elapsedLong · monotonicNs))
  let crumbCount ← u32Checked record 20
  let breadcrumbs ← crumbEntriesChecked record crumbCount.toNat 0
  return {
    signal := signal.toNat
    signalName := signalName signal
    siCode := int32 siCode
    faultAddress
    programCounter := hexLong programCounter
    moduleBase := hexLong moduleBase
    moduleOffset :=
      if programCounter ≠ 0 ∧ moduleBase ≠ 0 ∧ moduleBase < programCounter ∧
          programCounter - moduleBase < 16 * 1024 * 1024 then
        some (zendLong (programCounter - moduleBase))
      else none
    pid := pid.toNat
    timestampNs := zendLong realtimeNs
    unit := unitTypeName unitType
    unitDurationNs := elapsedLong unitStartNs monotonicNs
    traceId
    spanId
    operation := opNameOf currentOp
    operationElapsedNs
    breadcrumbs }

/-! ## Inside the record -/

section
variable {record : Bytes}

theorem getD_field {b : Bytes} {base size offset : Nat} (h : offset < size) :
    (field b base size).getD offset 0 = b.getD (base + offset) 0 := by
  rw [List.getD_eq_getElem?_getD, List.getD_eq_getElem?_getD, field, List.getElem?_take_of_lt h, List.getElem?_drop]

/-- The fields of one of the breadcrumbs. -/
theorem decode_field (record : Bytes) (base : Nat) :
    Crumb.decode (field record base 64) =
      { tsNs := u64Field record base
        seq := u32Field record (base + 8)
        type := record.getD (base + 12) 0
        flags := record.getD (base + 13) 0
        labelLen := u16Field record (base + 14)
        label := bytesField 48 record (base + 16) } := by
  unfold Crumb.decode u64Field u32Field u16Field bytesField
  rw [field_field (by omega), field_field (by omega), field_field (by omega), field_field (by omega),
    getD_field (by omega), getD_field (by omega)]
  rfl

/-- Part of an array of bytes. -/
theorem take_bytesField {n len offset : Nat} (hlen : len ≤ n) (h : offset + n ≤ record.length) :
    (bytesField n record offset).toList.take len = field record offset len := by
  have hwidth : (field record offset n).length = n := by
    rw [field, List.length_take, List.length_drop]
    omega
  have harray : (bytesField n record offset).toList = field record offset n := by
    apply List.ext_getElem
    · rw [Vector.length_toList, hwidth]
    · intro i hi hi'
      simp [bytesField, hi']
  rw [harray, field, field, List.take_take, Nat.min_eq_left hlen]

/-- Whatever length a label claims to have, the part of it that is read lies in its array. -/
theorem crumbEntryChecked_eq {index : Nat} (hindex : index < crashCrumbs) (h : recordSize ≤ record.length) :
    crumbEntryChecked record index = some (crumbEntry (Crumb.decode (field record (112 + 64 * index) 64))) := by
  -- The crumb lies within the record, label and all.
  have hroom : 112 + 64 * index + 64 ≤ record.length := by
    unfold crashCrumbs at hindex
    unfold recordSize at h
    omega
  have hrecorded := @u16Checked_eq record (112 + 64 * index + 14) (by omega)
  have hseq := @u32Checked_eq record (112 + 64 * index + 8) (by omega)
  have htype := @getElem?_eq_getD record (112 + 64 * index + 12) (by omega)
  have htsNs := @u64Checked_eq record (112 + 64 * index) (by omega)
  rw [decode_field]
  simp only [crumbEntryChecked, crumbEntry, hrecorded, hseq, htype, htsNs, Option.bind_eq_bind, Option.bind_some]
  generalize hlen : (if crumbLabelMax < (u16Field record (112 + 64 * index + 14)).toNat then crumbLabelMax
    else (u16Field record (112 + 64 * index + 14)).toNat) = len
  have hmax : len ≤ 48 := by
    rw [← hlen]
    unfold crumbLabelMax
    split <;> omega
  rw [read_eq (by omega), take_bytesField hmax (by omega)]
  rfl

/-- The breadcrumbs of a record. -/
theorem crumbs_decode (record : Bytes) {index : Nat} (hindex : index < crashCrumbs) :
    (CrashRecord.decode record).crumbs.toList[index]? =
      some (Crumb.decode (field record (112 + 64 * index) 64)) := by
  have hlt : index < 32 := hindex
  simp [CrashRecord.decode, hlt]

/-- However many breadcrumbs a record claims to have, those that are read lie in its array. -/
theorem crumbEntriesChecked_eq (h : recordSize ≤ record.length) (crumbCount index : Nat) :
    crumbEntriesChecked record crumbCount index =
      some ((((CrashRecord.decode record).crumbs.toList.take crumbCount).drop index).map crumbEntry) := by
  fun_induction crumbEntriesChecked record crumbCount index with
  | case1 index hindex ih =>
    have hnext : ((CrashRecord.decode record).crumbs.toList.take crumbCount)[index]? =
        some (Crumb.decode (field record (112 + 64 * index) 64)) := by
      rw [List.getElem?_take_of_lt hindex.1, crumbs_decode record hindex.2]
    obtain ⟨hlt, hget⟩ := List.getElem?_eq_some_iff.mp hnext
    rw [crumbEntryChecked_eq hindex.2 h, ih, List.drop_eq_getElem_cons hlt, hget, List.map_cons]
    rfl
  | case2 index hindex =>
    have hend : ((CrashRecord.decode record).crumbs.toList.take crumbCount).length ≤ index := by
      have hsize : (CrashRecord.decode record).crumbs.toList.length = crashCrumbs := Vector.length_toList
      rw [List.length_take, hsize]
      omega
    rw [List.drop_eq_nil_of_le hend, List.map_nil]

/-- **The visitor looks at no byte outside its record.** -/
theorem drainVisitChecked_eq (h : recordSize ≤ record.length) :
    drainVisitChecked record = some (drainVisitEntry record) := by
  have hcrumbs := crumbEntriesChecked_eq h (CrashRecord.decode record).crumbCount.toNat 0
  -- Each field that the entry reads lies within the record.
  unfold recordSize at h
  have hsignal := @u32Checked_eq record 8 (by omega)
  have hcode := @u32Checked_eq record 12 (by omega)
  have haddress := @u64Checked_eq record 88 (by omega)
  have hcounter := @u64Checked_eq record 96 (by omega)
  have hbase := @u64Checked_eq record 104 (by omega)
  have hpid := @u32Checked_eq record 16 (by omega)
  have hrealtime := @u64Checked_eq record 24 (by omega)
  have hunit := @getElem?_eq_getD record 64 (by omega)
  have hmonotonic := @u64Checked_eq record 32 (by omega)
  have hstart := @u64Checked_eq record 72 (by omega)
  have hhasTrace := @getElem?_eq_getD record 66 (by omega)
  have htrace := @bytesChecked_eq record 40 16 (by omega)
  have hhasSpan := @getElem?_eq_getD record 67 (by omega)
  have hspan := @bytesChecked_eq record 56 8 (by omega)
  have hop := @getElem?_eq_getD record 65 (by omega)
  have hopStart := @u64Checked_eq record 80 (by omega)
  have hcount := @u32Checked_eq record 20 (by omega)
  have hcrumbCount : u32Field record 20 = (CrashRecord.decode record).crumbCount := rfl
  simp only [drainVisitChecked, hsignal, hcode, haddress, hcounter, hbase, hpid, hrealtime, hunit, hmonotonic,
    hstart, hhasTrace, htrace, hhasSpan, hspan, hop, hopStart, hcount, hcrumbCount, hcrumbs, Option.map_some,
    lookedAtWhen_some, Option.bind_eq_bind, Option.bind_some, List.drop_zero]
  have helapsed : (if opNameOf (record.getD 65 0) ≠ none
      then some (elapsedLong (u64Field record 80) (u64Field record 32)) else none) =
      (drainVisitEntry record).operationElapsedNs := by
    change _ = (opNameOf (record.getD 65 0)).map fun _ => elapsedLong (u64Field record 80) (u64Field record 32)
    cases opNameOf (record.getD 65 0) <;> rfl
  rw [helapsed]
  rfl

end

/-! ## The drain of one file -/

/-- **A drain is safe on any bytes.** -/
theorem crashDrainFile_safe (io : ReadIo) (euid : Nat) (visit : Bytes → Bool) (max : Nat) (stop : Bool)
    (f : SinkFile) :
    crashDrainFileChecked io euid visit max stop (some f) = some (crashDrainFile io euid visit max stop (some f)) ∧
      (crashDrainFile io euid visit max stop (some f)).Within (io.bytes f.content) max ∧
      ∀ v ∈ (crashDrainFile io euid visit max stop (some f)).visits,
        drainVisitChecked v.record = some (drainVisitEntry v.record) := by
  have hwithin := crashDrainFile_within io euid visit max stop f
  refine ⟨crashDrainFileChecked_eq io euid visit max stop (some f), hwithin, fun v hv => ?_⟩
  have hinside := hwithin.inside v hv
  have hbytes : v.record = field (io.bytes f.content) v.offset recordSize :=
    congrArg Crash.Visit.record (hwithin.bytes v hv)
  refine drainVisitChecked_eq ?_
  rw [hbytes, field, List.length_take, List.length_drop]
  omega

end CboxTelemetry.Extension
