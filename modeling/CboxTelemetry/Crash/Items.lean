import CboxTelemetry.Crash.Drain

/-!
# Sinks made of complete records

A sink that nobody tore is a concatenation of complete records, of this format version or of
another. On such a sink the drain has an abstract meaning: `scanItems` hands over records of this
version until the budget is spent and steps over the others.

`scan_items` connects the two: scanning the bytes of a list of items is `scanItems`, whatever the
records' payloads look like, because the scanner only ever stands at the start of an item.
-/

namespace CboxTelemetry.Crash

open Scan (scan frames)

/-- A complete record of this format version. -/
structure OwnRecord where
  bytes : Bytes
  length_eq : bytes.length = recordSize
  valid : crashRecordValid bytes = true
  deriving DecidableEq

/-- A complete record of another format version. -/
structure ForeignRecord where
  bytes : Bytes
  complete : recordLen bytes = bytes.length
  foreign : crashRecordForeignVersion bytes bytes.length = true
  deriving DecidableEq

inductive Item
  | own (r : OwnRecord)
  | foreign (f : ForeignRecord)
  deriving DecidableEq

def Item.bytes : Item → Bytes
  | .own r => r.bytes
  | .foreign f => f.bytes

/-- The contents of a sink made of these records. -/
def encode (items : List Item) : Bytes := items.flatMap Item.bytes

/-- The records of this version, in file order. -/
def owns (items : List Item) : List OwnRecord :=
  items.filterMap fun | .own r => some r | .foreign _ => none

/-- The records of other versions, in file order. -/
def foreigns (items : List Item) : List ForeignRecord :=
  items.filterMap fun | .own _ => none | .foreign f => some f

@[simp] theorem encode_nil : encode [] = [] := rfl
@[simp] theorem encode_cons (item : Item) (items : List Item) :
    encode (item :: items) = item.bytes ++ encode items := rfl
@[simp] theorem encode_append (a b : List Item) : encode (a ++ b) = encode a ++ encode b :=
  List.flatMap_append

@[simp] theorem owns_nil : owns [] = [] := rfl
@[simp] theorem owns_own (r : OwnRecord) (items : List Item) :
    owns (.own r :: items) = r :: owns items := rfl
@[simp] theorem owns_foreign (f : ForeignRecord) (items : List Item) :
    owns (.foreign f :: items) = owns items := rfl
@[simp] theorem foreigns_nil : foreigns [] = [] := rfl
@[simp] theorem foreigns_own (r : OwnRecord) (items : List Item) :
    foreigns (.own r :: items) = foreigns items := rfl
@[simp] theorem foreigns_foreign (f : ForeignRecord) (items : List Item) :
    foreigns (.foreign f :: items) = f :: foreigns items := rfl

/-- Every foreign record has a whole header. -/
theorem ForeignRecord.headerProbeSize_le (f : ForeignRecord) : headerProbeSize ≤ f.bytes.length := by
  have := crashRecordForeignVersion_len f.foreign
  rw [f.complete] at this
  exact this.1

/-- Every record is long enough for the scanner to look at it. -/
theorem Item.headerProbeSize_le (item : Item) : headerProbeSize ≤ item.bytes.length := by
  cases item with
  | own r => rw [Item.bytes, r.length_eq]; decide
  | foreign f => exact f.headerProbeSize_le

/-- The header of a record without breadcrumbs, and nothing else. -/
def blankRecord : OwnRecord where
  bytes := (le 4 crashMagic ++ le 2 crashFormatVersion ++ le 2 recordSize ++ List.replicate 16 0)
    ++ List.replicate 2136 0
  length_eq := by rw [List.length_append, List.length_replicate]; decide
  valid := by rw [crashRecordValid_append _ (by decide)]; decide

/-- A short record of the version before. -/
def oldRecord : ForeignRecord where
  bytes := le 4 crashMagic ++ le 2 1 ++ le 2 16 ++ List.replicate 8 0
  complete := by decide
  foreign := by decide

/-! ## The abstract drain of a sink -/

/-- What a drain hands over of a list of records, what it has not looked at, and whether it stepped
over a record of another version. -/
structure ItemScan where
  handed : List OwnRecord
  rest : List Item
  skipped : Bool

/-- Hand over `r` first. -/
@[simp] def ItemScan.hand (r : OwnRecord) (s : ItemScan) : ItemScan :=
  { s with handed := r :: s.handed }

/-- Step over a record of another version first. -/
@[simp] def ItemScan.skip (s : ItemScan) : ItemScan := { s with skipped := true }

/-- Hand over records of this version until the budget is spent; step over the others. -/
def scanItems : List Item → Nat → ItemScan
  | [], _ => ⟨[], [], false⟩
  | item :: items, 0 => ⟨[], item :: items, false⟩
  | .own r :: items, b + 1 => (scanItems items b).hand r
  | .foreign _ :: items, b + 1 => (scanItems items (b + 1)).skip

/-- Of the items a scan hands over the first own records, as many as the budget allows. -/
theorem scanItems_handed (items : List Item) (b : Nat) :
    (scanItems items b).handed = (owns items).take b := by
  fun_induction scanItems items b with
  | case1 => simp
  | case2 => rfl
  | case3 r items b ih => simp [ih]
  | case4 f items b ih => simpa using ih

/-- What has not been looked at is the end of the sink, and a scan that stepped over nothing has
handed over all the rest. -/
theorem scanItems_rest {items : List Item} {b : Nat} (h : (scanItems items b).skipped = false) :
    items = (scanItems items b).handed.map .own ++ (scanItems items b).rest := by
  fun_induction scanItems items b with
  | case1 => rfl
  | case2 => rfl
  | case3 r items b ih => exact congrArg (Item.own r :: ·) (ih h)
  | case4 f items b ih => cases h

/-- Records are left unlooked at only when the budget is spent. -/
theorem scanItems_budget (items : List Item) (b : Nat) :
    (scanItems items b).rest = [] ∨ (scanItems items b).handed.length = b := by
  fun_induction scanItems items b with
  | case1 => exact .inl rfl
  | case2 => exact .inr rfl
  | case3 r items b ih => exact ih.imp id (congrArg (· + 1))
  | case4 f items b ih => exact ih

/-! ## The bytes of a sink -/

variable {buffer tail : Bytes} {o : Nat}

/-- The scanner finds a record of this version where one starts. -/
theorem sinkFound_own {r : OwnRecord} (h : buffer.drop o = r.bytes ++ tail)
    (ho : o ≤ buffer.length) : sinkFound buffer o = .frame recordSize := by
  have hlen := congrArg List.length h
  rw [List.length_drop, List.length_append, r.length_eq] at hlen
  have hvalid : crashRecordValid (buffer.drop o) = true := by
    rw [h, crashRecordValid_append _ (by rw [r.length_eq]; decide), r.valid]
  rw [sinkFound, not_foreign_of_valid hvalid, if_neg Bool.false_ne_true, if_neg]
  rintro (hshort | hinvalid)
  · omega
  · rw [hvalid] at hinvalid; cases hinvalid

/-- The scanner steps over a record of another version by its whole length. -/
theorem sinkFound_foreign {f : ForeignRecord} (h : buffer.drop o = f.bytes ++ tail) :
    sinkFound buffer o = .skip f.bytes.length := by
  have hlen := congrArg List.length h
  rw [List.length_drop, List.length_append] at hlen
  have hhead := f.headerProbeSize_le
  have hforeign : crashRecordForeignVersion (buffer.drop o) (buffer.length - o) = true := by
    rw [h, crashRecordForeignVersion_append _ _ hhead]
    exact crashRecordForeignVersion_mono (by omega) f.foreign
  rw [sinkFound, if_pos hforeign, h, recordLen_append _ hhead, f.complete]

/-- **Scanning records.** From the start of a list of records, the scanner hands over what
`scanItems` does, and goes on behind them with what is left of the budget. -/
theorem scan_items (items : List Item) (b : Nat) (h : buffer.drop o = encode items ++ tail)
    (ho : o ≤ buffer.length) :
    ∃ (o' : Nat) (offs : List Nat),
      buffer.drop o' = encode (scanItems items b).rest ++ tail ∧ o ≤ o' ∧ o' ≤ buffer.length ∧
      offs.map (fun p => (visitAt buffer p).record) = (scanItems items b).handed.map OwnRecord.bytes ∧
      ((scanItems items b).skipped = false → consumedAfter o offs = o') ∧
      scan (sinkInput buffer) b o =
        let r := scan (sinkInput buffer) (b - (scanItems items b).handed.length) o'
        ⟨r.offset, offs ++ r.frames, (scanItems items b).skipped || r.skipped⟩ := by
  fun_induction scanItems items b generalizing o with
  -- By cases of the item at the cursor: none, no budget, an own record, a foreign one.
  | case1 b => exact ⟨o, [], h, le_rfl, ho, rfl, fun _ => rfl, by simp⟩
  | case2 item items => exact ⟨o, [], h, le_rfl, ho, rfl, fun _ => rfl, by simp⟩
  | case3 r items b ih =>
    rw [encode_cons, Item.bytes, List.append_assoc] at h
    have hlen := congrArg List.length h
    rw [List.length_drop, List.length_append, r.length_eq] at hlen
    have hnext : buffer.drop (o + recordSize) = encode items ++ tail := by
      rw [← List.drop_drop, h, List.drop_left' r.length_eq]
    obtain ⟨o', offs, hdrop, hle, hend, hrecs, hcons, hscan⟩ := ih hnext (by omega)
    have hhead : o + headerProbeSize ≤ buffer.length := by
      simp only [headerProbeSize, recordSize] at *; omega
    -- What the visitor sees there is the record as it was written.
    have hrec : (visitAt buffer o).record = r.bytes := by
      rw [visitAt, h, List.take_left' r.length_eq]
    refine ⟨o', o :: offs, hdrop, by omega, hend, ?_, ?_, ?_⟩
    · simp only [List.map_cons, ItemScan.hand, hrec, hrecs]
    · intro hskip
      rw [consumedAfter_cons]; exact hcons hskip
    · rw [Scan.scan_frame hhead (sinkFound_own h ho), hscan]
      simp
  -- A foreign record is stepped over by its own length.
  | case4 f items b ih =>
    rw [encode_cons, Item.bytes, List.append_assoc] at h
    have hlen := congrArg List.length h
    rw [List.length_drop, List.length_append] at hlen
    have hnext : buffer.drop (o + f.bytes.length) = encode items ++ tail := by
      rw [← List.drop_drop, h, List.drop_left]
    obtain ⟨o', offs, hdrop, hle, hend, hrecs, hcons, hscan⟩ := ih hnext (by omega)
    have hhead : o + headerProbeSize ≤ buffer.length := by
      have := f.headerProbeSize_le; omega
    refine ⟨o', offs, hdrop, by omega, hend, hrecs, fun hskip => Bool.noConfusion hskip, ?_⟩
    rw [Scan.scan_skip hhead (Nat.succ_pos b) (sinkFound_foreign h), hscan]
    simp

end CboxTelemetry.Crash
