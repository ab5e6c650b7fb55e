import Mathlib.Algebra.Group.Nat.Defs
import Mathlib.Data.List.Basic

/-!
# The crash record on disk

A record is the memory of a `cbox_crash_record`, written as it stands: little-endian fields at
their natural alignment, `recordSize` bytes in all. Every format version starts with the same
eight bytes (magic, format version, record length), so a reader can tell a record of its own
version from one it can only step over.

`CrashRecord.encode` is what the handler's `write()` puts into the sink; `crashRecordValid` and
`crashRecordForeignVersion` are the reader's two tests on raw bytes.
-/

namespace CboxTelemetry

/-- Bytes of a file or of memory. -/
abbrev Bytes := List UInt8

/-- The bytes of an ASCII literal. -/
def ascii (literal : String) : Bytes := literal.toList.map fun c => UInt8.ofNat c.toNat

/-! ## Little-endian fields -/

/-- The byte at offset `o`. -/
def u8At (b : Bytes) (o : Nat) : Nat := (b.getD o 0).toNat

def u16At (b : Bytes) (o : Nat) : Nat := u8At b o + 256 * u8At b (o + 1)

def u32At (b : Bytes) (o : Nat) : Nat := u16At b o + 65536 * u16At b (o + 2)

/-- The `width` low bytes of `v`, least significant first. -/
def le : Nat → Nat → Bytes
  | 0, _ => []
  | width + 1, v => UInt8.ofNat v :: le width (v / 256)

theorem u8At_lt (b : Bytes) (o : Nat) : u8At b o < 256 := UInt8.toNat_lt _

/-- Two bytes are a number of 16 bits. -/
theorem u16At_lt (b : Bytes) (o : Nat) : u16At b o < 65536 := by
  have hlow := u8At_lt b o
  have hhigh := u8At_lt b (o + 1)
  rw [u16At]
  omega

/-- A number takes as many bytes as its width. -/
@[simp] theorem length_le (width v : Nat) : (le width v).length = width := by
  induction width generalizing v with
  | zero => rfl
  | succ w ih => rw [le, List.length_cons, ih]

theorem u8At_append {a : Bytes} {o : Nat} (b : Bytes) (h : o < a.length) :
    u8At (a ++ b) o = u8At a o := by
  simp [u8At, List.getElem?_append_left h]

theorem u16At_append {a : Bytes} {o : Nat} (b : Bytes) (h : o + 2 ≤ a.length) :
    u16At (a ++ b) o = u16At a o := by
  rw [u16At, u8At_append b (by omega), u8At_append b (by omega), u16At]

theorem u32At_append {a : Bytes} {o : Nat} (b : Bytes) (h : o + 4 ≤ a.length) :
    u32At (a ++ b) o = u32At a o := by
  rw [u32At, u16At_append b (by omega), u16At_append b (by omega), u32At]

namespace Crash

/-! ## Constants -/

def crashMagic : Nat := 0x43425843
def crashFormatVersion : Nat := 2
def crashCrumbs : Nat := 32
def crumbLabelMax : Nat := 48

/-- `sizeof(cbox_crash_record)`. -/
def recordSize : Nat := 2160

/-- `sizeof(cbox_crash_record_header_probe)`: magic, format version and record length. -/
def headerProbeSize : Nat := 8

/-- One drain reads at most this much of a sink. -/
def crashDrainMaxBytes : Nat := 4 * 1024 * 1024

/-! ## The reader's view -/

def recordMagic (record : Bytes) : Nat := u32At record 0
def recordFormatVersion (record : Bytes) : Nat := u16At record 4
def recordLen (record : Bytes) : Nat := u16At record 6
def recordCrumbCount (record : Bytes) : Nat := u32At record 20

theorem recordLen_lt (record : Bytes) : recordLen record < 65536 := u16At_lt record 6

/-- A record of this format version with a plausible number of breadcrumbs. -/
def crashRecordValid (record : Bytes) : Bool :=
  recordMagic record == crashMagic
    && recordFormatVersion record == crashFormatVersion
    && recordLen record == recordSize
    && decide (recordCrumbCount record ≤ crashCrumbs)

/-- A record of another format version, complete in the `remaining` bytes: it can be stepped over
by its own length. -/
def crashRecordForeignVersion (record : Bytes) (remaining : Nat) : Bool :=
  recordMagic record == crashMagic
    && recordFormatVersion record != crashFormatVersion
    && decide (headerProbeSize ≤ recordLen record)
    && decide (recordLen record ≤ remaining)

/-- A foreign record's length covers its header and stays within what remains. -/
theorem crashRecordForeignVersion_len {record : Bytes} {remaining : Nat}
    (h : crashRecordForeignVersion record remaining = true) :
    headerProbeSize ≤ recordLen record ∧ recordLen record ≤ remaining := by
  simp only [crashRecordForeignVersion, Bool.and_eq_true, decide_eq_true_eq] at h
  exact ⟨h.1.2, h.2⟩

/-- Less room only makes fewer records of other versions complete. -/
theorem crashRecordForeignVersion_mono {record : Bytes} {m n : Nat} (hmn : m ≤ n)
    (h : crashRecordForeignVersion record m = true) : crashRecordForeignVersion record n = true := by
  simp only [crashRecordForeignVersion, Bool.and_eq_true, decide_eq_true_eq] at h ⊢
  exact ⟨h.1, Nat.le_trans h.2 hmn⟩

/-- No record is both of this version and of another. -/
theorem not_foreign_of_valid {record : Bytes} {remaining : Nat}
    (h : crashRecordValid record = true) : crashRecordForeignVersion record remaining = false := by
  simp only [crashRecordValid, Bool.and_eq_true, beq_iff_eq, decide_eq_true_eq] at h
  simp [crashRecordForeignVersion, h.1.1.2]

section
variable {a : Bytes} (b : Bytes)

theorem recordMagic_append (h : 8 ≤ a.length) : recordMagic (a ++ b) = recordMagic a :=
  u32At_append b (by omega)

theorem recordFormatVersion_append (h : 8 ≤ a.length) :
    recordFormatVersion (a ++ b) = recordFormatVersion a :=
  u16At_append b (by omega)

theorem recordLen_append (h : 8 ≤ a.length) : recordLen (a ++ b) = recordLen a :=
  u16At_append b (by omega)

theorem recordCrumbCount_append (h : 24 ≤ a.length) :
    recordCrumbCount (a ++ b) = recordCrumbCount a :=
  u32At_append b (by omega)

/-- The tests look at the first bytes of a record only, so what follows it does not matter. -/
theorem crashRecordValid_append (h : 24 ≤ a.length) :
    crashRecordValid (a ++ b) = crashRecordValid a := by
  rw [crashRecordValid, crashRecordValid, recordMagic_append b (by omega),
    recordFormatVersion_append b (by omega), recordLen_append b (by omega),
    recordCrumbCount_append b h]

/-- Bytes behind the header do not change whether it is foreign. -/
theorem crashRecordForeignVersion_append (n : Nat) (h : 8 ≤ a.length) :
    crashRecordForeignVersion (a ++ b) n = crashRecordForeignVersion a n := by
  rw [crashRecordForeignVersion, crashRecordForeignVersion, recordMagic_append b h,
    recordFormatVersion_append b h, recordLen_append b h]

end

/-! ## The writer's view -/

/-- `cbox_crumb`: one 64-byte breadcrumb. -/
structure Crumb where
  tsNs : UInt64
  seq : UInt32
  type : UInt8
  flags : UInt8
  labelLen : UInt16
  label : Vector UInt8 48
  deriving DecidableEq

/-- `cbox_crash_record`. -/
structure CrashRecord where
  magic : UInt32
  formatVersion : UInt16
  recordLen : UInt16
  signal : UInt32
  siCode : UInt32
  pid : UInt32
  crumbCount : UInt32
  realtimeNs : UInt64
  monotonicNs : UInt64
  traceId : Vector UInt8 16
  spanId : Vector UInt8 8
  unitType : UInt8
  currentOp : UInt8
  hasTrace : UInt8
  hasSpan : UInt8
  unitStartNs : UInt64
  currentOpStartNs : UInt64
  faultAddress : UInt64
  programCounter : UInt64
  moduleBase : UInt64
  crumbs : Vector Crumb 32
  deriving DecidableEq

def Crumb.encode (c : Crumb) : Bytes :=
  le 8 c.tsNs.toNat ++ le 4 c.seq.toNat ++ [c.type, c.flags] ++ le 2 c.labelLen.toNat
    ++ c.label.toList

/-- The bytes of a record before its variable part: everything the reader's tests look at. -/
def CrashRecord.encodeHead (r : CrashRecord) : Bytes :=
  le 4 r.magic.toNat ++ le 2 r.formatVersion.toNat ++ le 2 r.recordLen.toNat
    ++ le 4 r.signal.toNat ++ le 4 r.siCode.toNat ++ le 4 r.pid.toNat ++ le 4 r.crumbCount.toNat

/-- The bytes after it; the four zero bytes are padding. -/
def CrashRecord.encodeBody (r : CrashRecord) : Bytes :=
  le 8 r.realtimeNs.toNat ++ le 8 r.monotonicNs.toNat ++ r.traceId.toList ++ r.spanId.toList
    ++ [r.unitType, r.currentOp, r.hasTrace, r.hasSpan] ++ [0, 0, 0, 0]
    ++ le 8 r.unitStartNs.toNat ++ le 8 r.currentOpStartNs.toNat ++ le 8 r.faultAddress.toNat
    ++ le 8 r.programCounter.toNat ++ le 8 r.moduleBase.toNat
    ++ r.crumbs.toList.flatMap Crumb.encode

/-- The memory of a record, as the handler writes it to its sink. -/
def CrashRecord.encode (r : CrashRecord) : Bytes :=
  r.encodeHead ++ r.encodeBody

@[simp] theorem Crumb.length_encode (c : Crumb) : c.encode.length = 64 := by
  simp [Crumb.encode]

@[simp] theorem CrashRecord.length_encodeHead (r : CrashRecord) : r.encodeHead.length = 24 := by
  simp [CrashRecord.encodeHead]

/-- An encoded record has the size of a record. -/
@[simp] theorem CrashRecord.length_encode (r : CrashRecord) : r.encode.length = recordSize := by
  have hcrumbs : (r.crumbs.toList.flatMap Crumb.encode).length = 32 * 64 := by
    rw [List.length_flatMap]; simp
  simp only [CrashRecord.encode, CrashRecord.encodeBody, List.length_append, hcrumbs, recordSize,
    CrashRecord.length_encodeHead, length_le, Vector.length_toList, List.length_cons,
    List.length_nil]

end Crash
end CboxTelemetry
