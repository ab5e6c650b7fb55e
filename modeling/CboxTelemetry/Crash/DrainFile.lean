import CboxTelemetry.Crash.Record
import CboxTelemetry.Lib.Scan

/-!
# Draining one sink

`crashScan` is the loop of `cbox_crash_drain_file`, state and all: it walks the buffer by offsets,
steps over records of other versions by their own length, resynchronises a byte at a time over
anything else, and hands over records of its own version until the budget is spent.
`crashScan_eq` says that this is a `Scan.scan` of the buffer, which is what every result about the
drain is proved from.

The operating system's answers (does `open` succeed, how much does `pread` transfer) are
parameters, so an I/O failure is a value of `ReadIo` and not a different function.
-/

namespace CboxTelemetry.Crash

open Scan (Found)

/-! ## The scan loop -/

/-- One call of the visitor: where in the buffer the record stands, and its bytes. -/
structure Visit where
  offset : Nat
  record : Bytes
  deriving DecidableEq, Repr

/-- The local variables of the loop; `visits` is the history behind its counter `visited`. -/
structure ScanState where
  offset : Nat
  visits : List Visit
  consumedBytes : Nat
  foreignSeen : Bool
  stop : Bool
  deriving DecidableEq, Repr

/-- The call of the visitor for a record that starts at `o`. -/
def visitAt (buffer : Bytes) (o : Nat) : Visit := ⟨o, (buffer.drop o).take recordSize⟩

/-- Count the record under the cursor as handed over and step behind it. -/
def ScanState.handOver (s : ScanState) (buffer : Bytes) : ScanState :=
  { s with
    visits := s.visits ++ [visitAt buffer s.offset]
    offset := s.offset + recordSize
    consumedBytes := s.offset + recordSize }

/-- The loop of `cbox_crash_drain_file` over the bytes it has read. The record under the cursor is
`buffer.drop s.offset`: its fields are read there before it is known to fit. -/
def crashScan (visit : Bytes → Bool) (buffer : Bytes) (max : Nat) (s : ScanState) : ScanState :=
  if _h : s.offset + headerProbeSize ≤ buffer.length ∧ s.visits.length < max then
    if hf : crashRecordForeignVersion (buffer.drop s.offset) (buffer.length - s.offset) = true then
      have := crashRecordForeignVersion_len hf
      crashScan visit buffer max
        { s with foreignSeen := true, offset := s.offset + recordLen (buffer.drop s.offset) }
    else if buffer.length < s.offset + recordSize
        ∨ crashRecordValid (buffer.drop s.offset) = false then
      -- Garbage, or a truncated tail: resynchronise a byte at a time.
      crashScan visit buffer max { s with offset := s.offset + 1 }
    else if visit ((buffer.drop s.offset).take recordSize) then
      crashScan visit buffer max (s.handOver buffer)
    else { s.handOver buffer with stop := true }
  else s
termination_by buffer.length - s.offset
decreasing_by all_goals simp only [ScanState.handOver, headerProbeSize, recordSize] at *; omega

/-- What the loop finds at an offset of the buffer. -/
def sinkFound (buffer : Bytes) (o : Nat) : Found :=
  if crashRecordForeignVersion (buffer.drop o) (buffer.length - o) = true then
    .skip (recordLen (buffer.drop o))
  else if buffer.length < o + recordSize ∨ crashRecordValid (buffer.drop o) = false then .noise
  else .frame recordSize

/-- Whatever is found takes at least one byte. -/
theorem sinkFound_len_pos (buffer : Bytes) (o : Nat) (_ : o + headerProbeSize ≤ buffer.length) :
    0 < (sinkFound buffer o).len := by
  unfold sinkFound
  split
  next hf =>
    have := crashRecordForeignVersion_len hf
    simp only [Found.len, headerProbeSize] at *; omega
  next => split <;> simp [Found.len, recordSize]

/-- Nothing that is found reaches beyond the buffer. -/
theorem sinkFound_len_le (buffer : Bytes) (o : Nat) (h : o + headerProbeSize ≤ buffer.length) :
    o + (sinkFound buffer o).len ≤ buffer.length := by
  unfold sinkFound
  simp only [headerProbeSize] at h
  split
  next hf => have := crashRecordForeignVersion_len hf; simp only [Found.len]; omega
  next => split <;> simp only [Found.len] <;> omega

/-- The buffer as an input of a scanner. -/
def sinkInput (buffer : Bytes) : Scan.Input where
  size := buffer.length
  header := headerProbeSize
  found := sinkFound buffer
  len_pos := sinkFound_len_pos buffer
  len_le := sinkFound_len_le buffer

@[simp] theorem sinkInput_size (buffer : Bytes) : (sinkInput buffer).size = buffer.length := rfl
@[simp] theorem sinkInput_header (buffer : Bytes) : (sinkInput buffer).header = headerProbeSize := rfl
@[simp] theorem sinkInput_found (buffer : Bytes) (o : Nat) :
    (sinkInput buffer).found o = sinkFound buffer o := rfl

/-- What is consumed when the records at `frames` have been handed over: everything up to the end of
the last of them. -/
def consumedAfter (consumed : Nat) (frames : List Nat) : Nat :=
  frames.getLast?.elim consumed (· + recordSize)

/-- Each frame consumes everything up to its end, whatever was consumed before. -/
@[simp] theorem consumedAfter_cons (consumed f : Nat) (fs : List Nat) :
    consumedAfter consumed (f :: fs) = consumedAfter (f + recordSize) fs := by
  rw [consumedAfter, consumedAfter, List.getLast?_cons]
  cases fs.getLast? <;> rfl

/-- **The loop is a scan.** With a visitor that never stops the drain, the loop hands over what
`Scan.scan` finds within the rest of the budget. -/
theorem crashScan_eq {visit : Bytes → Bool} (hvisit : ∀ r, visit r = true) (buffer : Bytes)
    (max : Nat) (s : ScanState) :
    crashScan visit buffer max s =
      let r := Scan.scan (sinkInput buffer) (max - s.visits.length) s.offset
      { offset := r.offset
        visits := s.visits ++ r.frames.map (visitAt buffer)
        consumedBytes := consumedAfter s.consumedBytes r.frames
        foreignSeen := s.foreignSeen || r.skipped
        stop := s.stop } := by
  fun_induction crashScan visit buffer max s with
  | case1 s h hf _ ih =>
    have hfound : (sinkInput buffer).found s.offset = .skip (recordLen (buffer.drop s.offset)) := by
      rw [sinkInput_found, sinkFound, if_pos hf]
    rw [ih, Scan.scan_skip h.1 (by omega) hfound]
    simp
  | case2 s h hf hg ih =>
    have hfound : (sinkInput buffer).found s.offset = .noise := by
      rw [sinkInput_found, sinkFound, if_neg hf, if_pos hg]
    rw [ih, Scan.scan_noise h.1 (by omega) hfound]
  -- A record that the visitor takes, so the budget is one less from here on.
  | case3 s h hf hg hv ih =>
    have hfound : (sinkInput buffer).found s.offset = .frame recordSize := by
      rw [sinkInput_found, sinkFound, if_neg hf, if_neg hg]
    have hbudget : max - s.visits.length = (max - (s.visits.length + 1)) + 1 := by omega
    rw [ih, hbudget, Scan.scan_frame h.1 hfound]
    simp [ScanState.handOver]
  | case4 s h hf hg hv => exact absurd (hvisit _) hv
  -- No room for a header, or no budget.
  | case5 s h =>
    have hstop : ¬(s.offset + headerProbeSize ≤ buffer.length ∧ 0 < max - s.visits.length) := by
      omega
    rw [Scan.scan_stop hstop]
    simp [consumedAfter]

/-! ## The file -/

/-- What a directory entry is, as far as `open` and `fstat` tell. -/
inductive FileKind
  | regular
  | symlink
  | other
  deriving DecidableEq, Repr

/-- A file under a sink's name. -/
structure SinkFile where
  kind : FileKind
  uid : Nat
  content : Bytes
  deriving DecidableEq, Repr

/-- The answers of the system calls of one `cbox_crash_drain_file`. `pread` says how many of the
bytes asked for are transferred, or that the call fails. -/
structure ReadIo where
  opens : Bool
  fstats : Bool
  mallocs : Bool
  pread : Nat → Option Nat

/-- Every call succeeds and transfers all it was asked for. -/
def ReadIo.ok : ReadIo := ⟨true, true, true, some⟩

/-- What `cbox_crash_drain_file` returns (`none` for -1) and leaves in its out parameters, with the
calls it made of the visitor. -/
structure DrainFileResult where
  found : Option Nat
  visits : List Visit
  stop : Bool
  consumable : Bool
  consumedBytes : Nat
  deriving DecidableEq, Repr

/-- Any failure before a byte has been looked at. -/
def DrainFileResult.failed (stop : Bool) : DrainFileResult := ⟨none, [], stop, false, 0⟩

/-- The verdict on a sink of `fileSize` bytes of which `buffer` was read, from the state the loop
ended in. -/
def drainVerdict (fileSize : Nat) (buffer : Bytes) (s : ScanState) : DrainFileResult where
  found := some s.visits.length
  visits := s.visits
  stop := s.stop
  consumable := !s.foreignSeen && fileSize == buffer.length
    && decide (buffer.length < s.offset + headerProbeSize)
  -- Keep everything: a version we cannot read is not ours to discard.
  consumedBytes := if s.foreignSeen then 0 else s.consumedBytes

/-- Read one dead process's sink and hand its records over. -/
def crashDrainFile (io : ReadIo) (euid : Nat) (visit : Bytes → Bool) (max : Nat) (stop : Bool)
    (file : Option SinkFile) : DrainFileResult :=
  match file with
  | none => .failed stop
  | some f =>
    -- `O_NOFOLLOW` refuses a symbolic link; a FIFO opens, and is turned away by `fstat`.
    if !io.opens || f.kind == .symlink then .failed stop
    else if !io.fstats || f.kind != .regular || f.uid != euid then .failed stop
    else if f.content.length = 0 then ⟨some 0, [], stop, true, 0⟩
    else if !io.mallocs then .failed stop
    else
      let size := min f.content.length crashDrainMaxBytes
      match io.pread size with
      | none => .failed stop
      | some got =>
        if min got size = 0 then .failed stop
        else
          let buffer := f.content.take (min got size)
          drainVerdict f.content.length buffer (crashScan visit buffer max ⟨0, [], 0, false, stop⟩)

/-! ## One sink, no I/O failure -/

/-- The bytes one drain reads of a sink. -/
def readBuffer (content : Bytes) : Bytes := content.take crashDrainMaxBytes

theorem length_readBuffer (content : Bytes) :
    (readBuffer content).length = min content.length crashDrainMaxBytes := by
  rw [readBuffer, List.length_take, Nat.min_comm]

theorem readBuffer_of_le {content : Bytes} (h : content.length ≤ crashDrainMaxBytes) :
    readBuffer content = content :=
  List.take_of_length_le h

/-- The sink of a process of ours. -/
def sinkFile (euid : Nat) (content : Bytes) : SinkFile := ⟨.regular, euid, content⟩

/-- Draining a readable sink of ours is a scan of the bytes read. -/
theorem crashDrainFile_ok {visit : Bytes → Bool} (hvisit : ∀ r, visit r = true) (euid max : Nat)
    (content : Bytes) :
    crashDrainFile .ok euid visit max false (some (sinkFile euid content)) =
      let buffer := readBuffer content
      let r := Scan.scan (sinkInput buffer) max 0
      { found := some r.frames.length
        visits := r.frames.map (visitAt buffer)
        stop := false
        consumable := !r.skipped && decide (content.length ≤ crashDrainMaxBytes)
          && decide (buffer.length < r.offset + headerProbeSize)
        consumedBytes := if r.skipped then 0 else consumedAfter 0 r.frames } := by
  -- An empty file ends the function before it reads, and the scan over nothing says the same.
  rcases Nat.eq_zero_or_pos content.length with hzero | hpos
  · obtain rfl : content = [] := List.length_eq_zero_iff.mp hzero
    have hscan : Scan.scan (sinkInput (readBuffer [])) max 0 = ⟨0, [], false⟩ :=
      Scan.scan_stop (by simp [readBuffer, headerProbeSize])
    simp only [hscan]
    simp [crashDrainFile, ReadIo.ok, sinkFile, readBuffer, headerProbeSize, consumedAfter]
  · have hsize : min content.length crashDrainMaxBytes ≠ 0 := by
      simp only [crashDrainMaxBytes]; omega
    have hread : content.take (min content.length crashDrainMaxBytes) = readBuffer content := by
      rw [readBuffer, ← List.take_take, List.take_of_length_le (List.length_take_le' _ _)]
    -- The file was read whole when the cap on one read did not cut it.
    have hwhole : (content.length == (readBuffer content).length)
        = decide (content.length ≤ crashDrainMaxBytes) := by
      rw [length_readBuffer, Bool.eq_iff_iff, beq_iff_eq, decide_eq_true_iff]
      exact ⟨fun h => h ▸ Nat.min_le_right _ _, fun h => (Nat.min_eq_left h).symm⟩
    have hregular : (content.length = 0) = False := eq_false (Nat.ne_of_gt hpos)
    simp only [crashDrainFile, ReadIo.ok, sinkFile, hread, Nat.min_self, hsize, hregular,
      crashScan_eq hvisit, drainVerdict, hwhole]
    simp

end CboxTelemetry.Crash
