import CboxTelemetry.Crash.Items
import CboxTelemetry.Lib.Layout

/-!
# Reading a record

The drain hands its visitor a pointer into the bytes of a sink, and the visitor reads the fields of a
`cbox_crash_record` there. `CrashRecord.decode` does the same, and a record that was written is read back
(`decode_encode`).
-/

namespace CboxTelemetry.Crash

open Layout (field field_flatten field_flatMap field_append_right)

/-! ## Numbers -/

/-- A little-endian number. -/
def fromLe : Bytes → Nat
  | [] => 0
  | b :: bytes => b.toNat + 256 * fromLe bytes

/-- Reading a number back from its bytes loses what does not fit in them. -/
theorem fromLe_le (width v : Nat) : fromLe (le width v) = v % 256 ^ width := by
  induction width generalizing v with
  | zero => rw [le, fromLe, Nat.pow_zero, Nat.mod_one]
  | succ width ih =>
    have hsplit : v % 256 ^ (width + 1) = v % 256 + 256 * (v / 256 % 256 ^ width) := by
      rw [Nat.pow_succ, Nat.mul_comm, Nat.mod_mul]
    rw [le, fromLe, ih, hsplit]
    rfl

/-- A number that fits. -/
theorem fromLe_le_of_lt {width v : Nat} (h : v < 256 ^ width) : fromLe (le width v) = v := by
  rw [fromLe_le, Nat.mod_eq_of_lt h]

theorem fromLe_uint16 (v : UInt16) : UInt16.ofNat (fromLe (le 2 v.toNat)) = v := by
  rw [fromLe_le_of_lt v.toNat_lt, UInt16.ofNat_toNat]

theorem fromLe_uint32 (v : UInt32) : UInt32.ofNat (fromLe (le 4 v.toNat)) = v := by
  rw [fromLe_le_of_lt v.toNat_lt, UInt32.ofNat_toNat]

theorem fromLe_uint64 (v : UInt64) : UInt64.ofNat (fromLe (le 8 v.toNat)) = v := by
  rw [fromLe_le_of_lt v.toNat_lt, UInt64.ofNat_toNat]

/-! ## Fields -/

def u16Field (b : Bytes) (offset : Nat) : UInt16 := .ofNat (fromLe (field b offset 2))
def u32Field (b : Bytes) (offset : Nat) : UInt32 := .ofNat (fromLe (field b offset 4))
def u64Field (b : Bytes) (offset : Nat) : UInt64 := .ofNat (fromLe (field b offset 8))

/-- An array of bytes. -/
def bytesField (n : Nat) (b : Bytes) (offset : Nat) : Vector UInt8 n :=
  Vector.ofFn fun i => (field b offset n).getD i 0

/-- A vector is read back from its list of entries. -/
theorem ofFn_toList {α : Type*} {n : Nat} (v : Vector α n) (fallback : α) :
    (Vector.ofFn fun i : Fin n => v.toList.getD i fallback) = v := by
  refine Vector.ext fun i hi => ?_
  rw [Vector.getElem_ofFn, List.getD_eq_getElem?_getD]
  simp [hi]

/-- A `cbox_crumb` in memory. -/
def Crumb.decode (b : Bytes) : Crumb where
  tsNs := u64Field b 0
  seq := u32Field b 8
  type := b.getD 12 0
  flags := b.getD 13 0
  labelLen := u16Field b 14
  label := bytesField 48 b 16

/-- A `cbox_crash_record` in memory. -/
def CrashRecord.decode (b : Bytes) : CrashRecord where
  magic := u32Field b 0
  formatVersion := u16Field b 4
  recordLen := u16Field b 6
  signal := u32Field b 8
  siCode := u32Field b 12
  pid := u32Field b 16
  crumbCount := u32Field b 20
  realtimeNs := u64Field b 24
  monotonicNs := u64Field b 32
  traceId := bytesField 16 b 40
  spanId := bytesField 8 b 56
  unitType := b.getD 64 0
  currentOp := b.getD 65 0
  hasTrace := b.getD 66 0
  hasSpan := b.getD 67 0
  unitStartNs := u64Field b 72
  currentOpStartNs := u64Field b 80
  faultAddress := u64Field b 88
  programCounter := u64Field b 96
  moduleBase := u64Field b 104
  crumbs := Vector.ofFn fun i => Crumb.decode (field b (112 + 64 * i) 64)

/-! ## The parts of a record -/

def Crumb.parts (c : Crumb) : List Bytes :=
  [le 8 c.tsNs.toNat, le 4 c.seq.toNat, [c.type], [c.flags], le 2 c.labelLen.toNat, c.label.toList]

theorem Crumb.encode_eq (c : Crumb) : c.encode = c.parts.flatten := by
  simp [Crumb.encode, Crumb.parts]

/-- The record before its breadcrumbs. -/
def CrashRecord.parts (r : CrashRecord) : List Bytes :=
  [le 4 r.magic.toNat, le 2 r.formatVersion.toNat, le 2 r.recordLen.toNat, le 4 r.signal.toNat,
    le 4 r.siCode.toNat, le 4 r.pid.toNat, le 4 r.crumbCount.toNat, le 8 r.realtimeNs.toNat,
    le 8 r.monotonicNs.toNat, r.traceId.toList, r.spanId.toList, [r.unitType], [r.currentOp], [r.hasTrace],
    [r.hasSpan], [0, 0, 0, 0], le 8 r.unitStartNs.toNat, le 8 r.currentOpStartNs.toNat,
    le 8 r.faultAddress.toNat, le 8 r.programCounter.toNat, le 8 r.moduleBase.toNat,
    r.crumbs.toList.flatMap Crumb.encode]

theorem CrashRecord.encode_eq (r : CrashRecord) : r.encode = r.parts.flatten := by
  simp [CrashRecord.encode, CrashRecord.encodeHead, CrashRecord.encodeBody, CrashRecord.parts]

/-- A one-byte field is the byte at its offset. -/
theorem getD_of_field {b : Bytes} {offset : Nat} {byte : UInt8} (h : field b offset 1 = [byte]) :
    b.getD offset 0 = byte := by
  rw [List.getD_eq_getElem?_getD]
  have hdrop : (b.drop offset)[0]? = some byte := by
    have hget := congrArg (·[0]?) h
    simpa [field, List.getElem?_take] using hget
  rw [List.getElem?_drop] at hdrop
  rw [show offset + 0 = offset from rfl] at hdrop
  rw [hdrop]
  rfl

/-- A part of a breadcrumb is where the parts before it end. -/
theorem Crumb.field_part (c : Crumb) (k : Nat) {part : Bytes} {offset width : Nat} (hk : c.parts[k]? = some part)
    (hoffset : (c.parts.take k).flatten.length = offset) (hwidth : part.length = width) :
    field c.encode offset width = part := by
  rw [c.encode_eq]
  exact field_flatten hk hoffset hwidth

/-- Decoding takes back what encoding a breadcrumb wrote. -/
theorem Crumb.decode_encode (c : Crumb) : Crumb.decode c.encode = c := by
  have hts : field c.encode 0 8 = _ := c.field_part 0 rfl rfl (length_le _ _)
  have hseq : field c.encode 8 4 = _ := c.field_part 1 rfl (by simp [Crumb.parts]) (length_le _ _)
  have htype : field c.encode 12 1 = _ := c.field_part 2 rfl (by simp [Crumb.parts]) rfl
  have hflags : field c.encode 13 1 = _ := c.field_part 3 rfl (by simp [Crumb.parts]) rfl
  have hlen : field c.encode 14 2 = _ := c.field_part 4 rfl (by simp [Crumb.parts]) (length_le _ _)
  have hlabel : field c.encode 16 48 = _ := c.field_part 5 rfl (by simp [Crumb.parts]) Vector.length_toList
  cases c with
  | mk tsNs seq type flags labelLen label =>
    simp only [Crumb.decode, u64Field, u32Field, u16Field, bytesField, hts, hseq, hlen, hlabel,
      getD_of_field htype, getD_of_field hflags, fromLe_uint64, fromLe_uint32, fromLe_uint16, ofFn_toList]

/-- A breadcrumb of the array. -/
theorem CrashRecord.field_crumb (r : CrashRecord) (i : Fin 32) :
    field r.encode (112 + 64 * i) 64 = r.crumbs[i].encode := by
  have hcrumb : r.crumbs.toList[(i : Nat)]? = some r.crumbs[i] := by simp
  have hbefore : (r.parts.take 21).flatten.length = 112 := by simp [CrashRecord.parts]
  have hsplit : r.encode = (r.parts.take 21).flatten ++ r.crumbs.toList.flatMap Crumb.encode := by
    rw [r.encode_eq]
    simp [CrashRecord.parts]
  rw [hsplit, ← hbefore, field_append_right]
  exact field_flatMap Crumb.length_encode hcrumb

/-- Encoding a record puts its parts one behind another, so each is found at the sum of the lengths
before it. -/
theorem CrashRecord.field_part (r : CrashRecord) (k : Nat) {part : Bytes} {offset width : Nat}
    (hk : r.parts[k]? = some part) (hoffset : (r.parts.take k).flatten.length = offset)
    (hwidth : part.length = width) : field r.encode offset width = part := by
  rw [r.encode_eq]
  exact field_flatten hk hoffset hwidth

/-- **A record is read back as it was written.** -/
theorem CrashRecord.decode_encode (r : CrashRecord) : CrashRecord.decode r.encode = r := by
  -- Each field is where the parts before it put it, with the width it is read at.
  have hmagic : field r.encode 0 4 = _ := r.field_part 0 rfl rfl (length_le _ _)
  have hversion : field r.encode 4 2 = _ := r.field_part 1 rfl (by simp [CrashRecord.parts]) (length_le _ _)
  have hlen : field r.encode 6 2 = _ := r.field_part 2 rfl (by simp [CrashRecord.parts]) (length_le _ _)
  have hsignal : field r.encode 8 4 = _ := r.field_part 3 rfl (by simp [CrashRecord.parts]) (length_le _ _)
  have hcode : field r.encode 12 4 = _ := r.field_part 4 rfl (by simp [CrashRecord.parts]) (length_le _ _)
  have hpid : field r.encode 16 4 = _ := r.field_part 5 rfl (by simp [CrashRecord.parts]) (length_le _ _)
  have hcount : field r.encode 20 4 = _ := r.field_part 6 rfl (by simp [CrashRecord.parts]) (length_le _ _)
  have hrealtime : field r.encode 24 8 = _ := r.field_part 7 rfl (by simp [CrashRecord.parts]) (length_le _ _)
  have hmonotonic : field r.encode 32 8 = _ := r.field_part 8 rfl (by simp [CrashRecord.parts]) (length_le _ _)
  have htrace : field r.encode 40 16 = _ := r.field_part 9 rfl (by simp [CrashRecord.parts]) Vector.length_toList
  have hspan : field r.encode 56 8 = _ := r.field_part 10 rfl (by simp [CrashRecord.parts]) Vector.length_toList
  -- The four single bytes. The padding behind them is part 15, and nothing reads it.
  have hunit : r.encode.getD 64 0 = _ :=
    getD_of_field (r.field_part 11 rfl (by simp [CrashRecord.parts]) rfl)
  have hop : r.encode.getD 65 0 = _ :=
    getD_of_field (r.field_part 12 rfl (by simp [CrashRecord.parts]) rfl)
  have hhasTrace : r.encode.getD 66 0 = _ :=
    getD_of_field (r.field_part 13 rfl (by simp [CrashRecord.parts]) rfl)
  have hhasSpan : r.encode.getD 67 0 = _ :=
    getD_of_field (r.field_part 14 rfl (by simp [CrashRecord.parts]) rfl)
  have hstart : field r.encode 72 8 = _ := r.field_part 16 rfl (by simp [CrashRecord.parts]) (length_le _ _)
  have hopStart : field r.encode 80 8 = _ := r.field_part 17 rfl (by simp [CrashRecord.parts]) (length_le _ _)
  have haddress : field r.encode 88 8 = _ := r.field_part 18 rfl (by simp [CrashRecord.parts]) (length_le _ _)
  have hcounter : field r.encode 96 8 = _ := r.field_part 19 rfl (by simp [CrashRecord.parts]) (length_le _ _)
  have hbase : field r.encode 104 8 = _ := r.field_part 20 rfl (by simp [CrashRecord.parts]) (length_le _ _)
  have hcrumbs : (Vector.ofFn fun i : Fin 32 => Crumb.decode (field r.encode (112 + 64 * i) 64)) = r.crumbs := by
    refine Vector.ext fun i hi => ?_
    rw [Vector.getElem_ofFn, r.field_crumb ⟨i, hi⟩, Crumb.decode_encode]
    rfl
  unfold CrashRecord.decode
  simp only [u64Field, u32Field, u16Field, bytesField, hmagic, hversion, hlen, hsignal, hcode, hpid, hcount,
    hrealtime, hmonotonic, htrace, hspan, hunit, hop, hhasTrace, hhasSpan, hstart, hopStart, haddress, hcounter,
    hbase, hcrumbs, fromLe_uint64, fromLe_uint32, fromLe_uint16, ofFn_toList]

/-! ## Records of this version -/

/-- The header that the recorder prepares at startup, and a number of breadcrumbs that fits. -/
structure CrashRecord.Current (r : CrashRecord) : Prop where
  magic_eq : r.magic = .ofNat crashMagic
  formatVersion_eq : r.formatVersion = .ofNat crashFormatVersion
  recordLen_eq : r.recordLen = .ofNat recordSize
  crumbCount_le : r.crumbCount.toNat ≤ crashCrumbs

/-- Two bytes of the buffer are the number the field decodes to. -/
theorem u16At_eq {b : Bytes} {offset : Nat} (h : offset + 2 ≤ b.length) :
    u16At b offset = fromLe (field b offset 2) := by
  have hfirst : b[offset]? = some b[offset] := List.getElem?_eq_getElem (by omega)
  have hsecond : b[offset + 1]? = some b[offset + 1] := List.getElem?_eq_getElem (by omega)
  have hfield : field b offset 2 = [b[offset], b[offset + 1]] := by
    rw [field, List.drop_eq_getElem_cons (by omega), List.drop_eq_getElem_cons (by omega)]
    rfl
  rw [hfield, u16At, u8At, u8At, List.getD_eq_getElem?_getD, List.getD_eq_getElem?_getD, hfirst, hsecond]
  rfl

/-- The bytes behind count for the higher digits. -/
theorem fromLe_append (a b : Bytes) : fromLe (a ++ b) = fromLe a + 256 ^ a.length * fromLe b := by
  induction a with
  | nil => rw [List.nil_append, fromLe, List.length_nil, Nat.pow_zero, Nat.one_mul, Nat.zero_add]
  | cons x a ih =>
    rw [List.cons_append, fromLe, fromLe, ih, List.length_cons, Nat.pow_succ, Nat.mul_add, Nat.add_assoc,
      Nat.mul_comm (256 ^ a.length) 256, Nat.mul_assoc]

/-- Four bytes of the buffer are the number the field decodes to. -/
theorem u32At_eq {b : Bytes} {offset : Nat} (h : offset + 4 ≤ b.length) :
    u32At b offset = fromLe (field b offset 4) := by
  have hhalves : field b offset 4 = field b offset 2 ++ field b (offset + 2) 2 := by
    rw [field, field, field, ← List.drop_drop, ← List.take_add]
  have hlength : (field b offset 2).length = 2 := by
    rw [field, List.length_take, List.length_drop]
    omega
  rw [hhalves, fromLe_append, hlength, u32At, u16At_eq (by omega), u16At_eq (by omega)]
  rfl

/-- The drain takes it for a record of this version. -/
theorem CrashRecord.Current.valid {r : CrashRecord} (h : r.Current) : crashRecordValid r.encode = true := by
  have hlength : 24 ≤ r.encode.length := by
    rw [r.length_encode]
    decide
  -- The check reads four fields, each with the value that a current record gives it.
  have hmagic : field r.encode 0 4 = le 4 r.magic.toNat := r.field_part 0 rfl rfl (length_le _ _)
  have hversion : field r.encode 4 2 = le 2 r.formatVersion.toNat :=
    r.field_part 1 rfl (by simp [CrashRecord.parts]) (length_le _ _)
  have hlen : field r.encode 6 2 = le 2 r.recordLen.toNat :=
    r.field_part 2 rfl (by simp [CrashRecord.parts]) (length_le _ _)
  have hcount : field r.encode 20 4 = le 4 r.crumbCount.toNat :=
    r.field_part 6 rfl (by simp [CrashRecord.parts]) (length_le _ _)
  have hfits : recordCrumbCount r.encode ≤ crashCrumbs := by
    rw [recordCrumbCount, u32At_eq (by omega), hcount, fromLe_le_of_lt r.crumbCount.toNat_lt]
    exact h.crumbCount_le
  rw [crashRecordValid, recordMagic, recordFormatVersion, Crash.recordLen, u32At_eq (by omega),
    u16At_eq (by omega), u16At_eq (by omega), hmagic, hversion, hlen, fromLe_le, fromLe_le, fromLe_le,
    h.magic_eq, h.formatVersion_eq, h.recordLen_eq, decide_eq_true hfits]
  rfl

/-- A record that can be drained. -/
def CrashRecord.Current.own {r : CrashRecord} (h : r.Current) : OwnRecord := ⟨r.encode, r.length_encode, h.valid⟩

end CboxTelemetry.Crash
