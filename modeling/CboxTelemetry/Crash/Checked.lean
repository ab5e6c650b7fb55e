import CboxTelemetry.Crash.DrainFile
import CboxTelemetry.Crash.Fields

/-!
# Reading a sink within its bytes

`crashScanChecked` is the loop of `cbox_crash_drain_file` with every access to the buffer checked: it
comes to nothing as soon as a byte is looked at that `pread` has not put there. It never does
(`crashScanChecked_eq`), whatever the bytes are; so the loop reads what it was given, and the results
about `crashScan` are results about it.
-/

namespace CboxTelemetry.Crash

open Layout (field read read_eq)

/-! ## The two tests -/

/-- `cbox_crash_record_foreign_version` at an offset of the buffer. The tests stop at the first that
fails, and so do the accesses. -/
def foreignChecked (buffer : Bytes) (o remaining : Nat) : Option Bool := do
  let magic ← read buffer o 4
  if fromLe magic ≠ crashMagic then return false
  else
    let version ← read buffer (o + 4) 2
    if fromLe version = crashFormatVersion then return false
    else
      let len ← read buffer (o + 6) 2
      return decide (headerProbeSize ≤ fromLe len) && decide (fromLe len ≤ remaining)

/-- `cbox_crash_record_valid`. -/
def validChecked (buffer : Bytes) (o : Nat) : Option Bool := do
  let magic ← read buffer o 4
  if fromLe magic ≠ crashMagic then return false
  else
    let version ← read buffer (o + 4) 2
    if fromLe version ≠ crashFormatVersion then return false
    else
      let len ← read buffer (o + 6) 2
      if fromLe len ≠ recordSize then return false
      else
        let count ← read buffer (o + 20) 4
        return decide (fromLe count ≤ crashCrumbs)

section
variable {buffer : Bytes} {o : Nat}

theorem fromLe_field2 {k : Nat} (h : o + k + 2 ≤ buffer.length) :
    fromLe (field buffer (o + k) 2) = u16At (buffer.drop o) k := by
  rw [u16At_eq (by rw [List.length_drop]; omega), field, field, List.drop_drop]

theorem fromLe_field4 {k : Nat} (h : o + k + 4 ≤ buffer.length) :
    fromLe (field buffer (o + k) 4) = u32At (buffer.drop o) k := by
  rw [u32At_eq (by rw [List.length_drop]; omega), field, field, List.drop_drop]

/-- A header that is in the buffer can be tested. -/
theorem foreignChecked_eq (h : o + headerProbeSize ≤ buffer.length) (remaining : Nat) :
    foreignChecked buffer o remaining = some (crashRecordForeignVersion (buffer.drop o) remaining) := by
  unfold headerProbeSize at h
  have hmagic : fromLe (field buffer o 4) = recordMagic (buffer.drop o) :=
    fromLe_field4 (k := 0) (by omega)
  have hversion : fromLe (field buffer (o + 4) 2) = recordFormatVersion (buffer.drop o) := fromLe_field2 (by omega)
  have hlen : fromLe (field buffer (o + 6) 2) = recordLen (buffer.drop o) := fromLe_field2 (by omega)
  unfold foreignChecked crashRecordForeignVersion
  rw [read_eq (by omega : o + 4 ≤ buffer.length), read_eq (by omega : o + 4 + 2 ≤ buffer.length),
    -- Every read is within the buffer, so the checked probe is the plain one.
    read_eq (by omega : o + 6 + 2 ≤ buffer.length)]
  simp only [Option.bind_eq_bind, Option.bind_some, hmagic, hversion, hlen]
  by_cases hm : recordMagic (buffer.drop o) = crashMagic
  · by_cases hv : recordFormatVersion (buffer.drop o) = crashFormatVersion
    · simp [hm, hv]
    · have hother : (recordFormatVersion (buffer.drop o) != crashFormatVersion) = true := bne_iff_ne.mpr hv
      simp [hm, hv, hother]
  · simp [hm]

/-- A record that is in the buffer can be tested. -/
theorem validChecked_eq (h : o + recordSize ≤ buffer.length) :
    validChecked buffer o = some (crashRecordValid (buffer.drop o)) := by
  unfold recordSize at h
  have hmagic : fromLe (field buffer o 4) = recordMagic (buffer.drop o) :=
    fromLe_field4 (k := 0) (by omega)
  have hversion : fromLe (field buffer (o + 4) 2) = recordFormatVersion (buffer.drop o) := fromLe_field2 (by omega)
  have hlen : fromLe (field buffer (o + 6) 2) = recordLen (buffer.drop o) := fromLe_field2 (by omega)
  have hcount : fromLe (field buffer (o + 20) 4) = recordCrumbCount (buffer.drop o) := fromLe_field4 (by omega)
  unfold validChecked crashRecordValid
  rw [read_eq (by omega : o + 4 ≤ buffer.length), read_eq (by omega : o + 4 + 2 ≤ buffer.length),
    read_eq (by omega : o + 6 + 2 ≤ buffer.length), read_eq (by omega : o + 20 + 4 ≤ buffer.length)]
  simp only [Option.bind_eq_bind, Option.bind_some, hmagic, hversion, hlen, hcount]
  -- The comparisons come in the order of the source, and the first that fails decides.
  by_cases hm : recordMagic (buffer.drop o) = crashMagic
  · by_cases hv : recordFormatVersion (buffer.drop o) = crashFormatVersion
    · by_cases hl : recordLen (buffer.drop o) = recordSize
      · simp [hm, hv, hl]
      · simp [hm, hv, hl]
    · simp [hm, hv]
  · simp [hm]

/-- The length by which a record of another version is stepped over. -/
theorem foreignChecked_len {remaining : Nat} {len : Bytes}
    (h : foreignChecked buffer o remaining = some true) (hlen : read buffer (o + 6) 2 = some len) :
    headerProbeSize ≤ fromLe len ∧ fromLe len ≤ remaining := by
  unfold foreignChecked at h
  rw [hlen] at h
  cases hmagic : read buffer o 4 with
  | none => simp [hmagic] at h
  | some magic =>
    cases hversion : read buffer (o + 4) 2 with
    | none =>
      simp only [hmagic, hversion, Option.bind_eq_bind, Option.bind_some, Option.bind_none] at h
      split at h <;> cases h
    | some version =>
      simp only [hmagic, hversion, Option.bind_eq_bind, Option.bind_some] at h
      split at h
      · cases h
      -- What is left is the comparison the source makes with the length field.
      · split at h
        · cases h
        · simpa using h

end

/-! ## The loop -/

/-- The loop of `cbox_crash_drain_file`, as `crashScan` is, with every access checked. The record is read
as a whole only to be handed to the visitor. -/
def crashScanChecked (visit : Bytes → Bool) (buffer : Bytes) (max : Nat) (s : ScanState) : Option ScanState :=
  if _h : s.offset + headerProbeSize ≤ buffer.length ∧ s.visits.length < max then
    match hf : foreignChecked buffer s.offset (buffer.length - s.offset) with
    | none => none
    | some true =>
      match hl : read buffer (s.offset + 6) 2 with
      | none => none
      | some len =>
        have := foreignChecked_len hf hl
        crashScanChecked visit buffer max { s with foreignSeen := true, offset := s.offset + fromLe len }
    | some false =>
      -- The size is compared before the fields behind the header are looked at.
      if buffer.length < s.offset + recordSize then
        crashScanChecked visit buffer max { s with offset := s.offset + 1 }
      else
        match validChecked buffer s.offset, read buffer s.offset recordSize with
        | some true, some record =>
          let handed : ScanState :=
            { s with
              visits := s.visits ++ [⟨s.offset, record⟩]
              offset := s.offset + recordSize
              consumedBytes := s.offset + recordSize }
          if visit record then crashScanChecked visit buffer max handed
          else some { handed with stop := true }
        | some false, _ => crashScanChecked visit buffer max { s with offset := s.offset + 1 }
        | _, _ => none
  else some s
termination_by buffer.length - s.offset
decreasing_by all_goals simp only [headerProbeSize, recordSize] at *; omega

/-- **The loop looks at no byte outside its buffer.** -/
theorem crashScanChecked_eq (visit : Bytes → Bool) (buffer : Bytes) (max : Nat) (s : ScanState) :
    crashScanChecked visit buffer max s = some (crashScan visit buffer max s) := by
  fun_induction crashScan visit buffer max s with
  -- A foreign record: the length is read once more, and that read is checked as well.
  | case1 s h hf _ ih =>
    have hforeign := foreignChecked_eq h.1 (buffer.length - s.offset)
    have hroom : s.offset + 6 + 2 ≤ buffer.length := h.1
    have hread := read_eq hroom
    rw [hf] at hforeign
    rw [crashScanChecked, dif_pos h]
    split
    next hnone => rw [hforeign] at hnone; cases hnone
    next =>
      split
      next hnone => rw [hread] at hnone; cases hnone
      next len hlen =>
        obtain rfl : field buffer (s.offset + 6) 2 = len := Option.some.inj (hread.symm.trans hlen)
        have hstep : fromLe (field buffer (s.offset + 6) 2) = recordLen (buffer.drop s.offset) :=
          fromLe_field2 hroom
        simp only [hstep]
        exact ih
    next hfalse => rw [hforeign] at hfalse; cases hfalse
  | case2 s h hf hg ih =>
    have hforeign := foreignChecked_eq h.1 (buffer.length - s.offset)
    rw [eq_false_of_ne_true hf] at hforeign
    rw [crashScanChecked, dif_pos h]
    split
    next hnone => rw [hforeign] at hnone; cases hnone
    next htrue => rw [hforeign] at htrue; cases htrue
    next =>
      by_cases hsize : buffer.length < s.offset + recordSize
      · rw [if_pos hsize]
        exact ih
      · rw [if_neg hsize, validChecked_eq (by omega), hg.resolve_left hsize]
        exact ih
  -- A record that the visitor takes: it is read whole before it is handed over.
  | case3 s h hf hg hv ih =>
    obtain ⟨hsize, hvalid⟩ := not_or.mp hg
    have hforeign := foreignChecked_eq h.1 (buffer.length - s.offset)
    rw [eq_false_of_ne_true hf] at hforeign
    rw [crashScanChecked, dif_pos h]
    split
    next hnone => rw [hforeign] at hnone; cases hnone
    next htrue => rw [hforeign] at htrue; cases htrue
    next =>
      rw [if_neg hsize, validChecked_eq (by omega), eq_true_of_ne_false hvalid, read_eq (by omega)]
      simp only [field, hv, if_true]
      exact ih
  | case4 s h hf hg hv =>
    obtain ⟨hsize, hvalid⟩ := not_or.mp hg
    have hforeign := foreignChecked_eq h.1 (buffer.length - s.offset)
    rw [eq_false_of_ne_true hf] at hforeign
    rw [crashScanChecked, dif_pos h]
    split
    next hnone => rw [hforeign] at hnone; cases hnone
    next htrue => rw [hforeign] at htrue; cases htrue
    next =>
      rw [if_neg hsize, validChecked_eq (by omega), eq_true_of_ne_false hvalid, read_eq (by omega)]
      simp only [field, hv]
      rfl
  -- Too little is left for a header, or the budget is spent.
  | case5 s h => rw [crashScanChecked, dif_neg h]

/-! ## What the loop does -/

/-- What holds whenever the loop looks at a header: nothing was consumed that was not read, no more was
visited than the budget allows, and what was visited lies in the buffer and passed the test. -/
structure ScanState.Within (s : ScanState) (buffer : Bytes) (max : Nat) : Prop where
  consumed : s.consumedBytes ≤ buffer.length
  visited : s.visits.length ≤ max
  inside : ∀ v ∈ s.visits, v.offset + recordSize ≤ buffer.length
  bytes : ∀ v ∈ s.visits, v = visitAt buffer v.offset
  valid : ∀ v ∈ s.visits, crashRecordValid v.record = true

/-- Handing one more record over. -/
theorem ScanState.Within.handOver {s : ScanState} {buffer : Bytes} {max : Nat} (hs : s.Within buffer max)
    (hbudget : s.visits.length < max) (hroom : s.offset + recordSize ≤ buffer.length)
    (hvalid : crashRecordValid (buffer.drop s.offset) = true) : (s.handOver buffer).Within buffer max := by
  have hmem : ∀ v ∈ (s.handOver buffer).visits, v ∈ s.visits ∨ v = visitAt buffer s.offset := by
    intro v hv
    simpa [ScanState.handOver] using hv
  refine ⟨hroom, by simp [ScanState.handOver]; omega, fun v hv => ?_, fun v hv => ?_, fun v hv => ?_⟩
  · rcases hmem v hv with hv | rfl
    · exact hs.inside v hv
    · exact hroom
  · rcases hmem v hv with hv | rfl
    · exact hs.bytes v hv
    · rfl
  · rcases hmem v hv with hv | rfl
    · exact hs.valid v hv
    -- The record is valid where it was found, and the check reads nothing behind its first bytes.
    · have hhead : 24 ≤ ((buffer.drop s.offset).take recordSize).length := by
        rw [List.length_take, List.length_drop]
        unfold recordSize at *
        omega
      have hsplit := crashRecordValid_append (b := (buffer.drop s.offset).drop recordSize) hhead
      rw [List.take_append_drop, hvalid] at hsplit
      exact hsplit.symm

/-- **The loop keeps to its buffer and its budget.** -/
theorem crashScan_within (visit : Bytes → Bool) {buffer : Bytes} {max : Nat} {s : ScanState}
    (hs : s.Within buffer max) : (crashScan visit buffer max s).Within buffer max := by
  fun_induction crashScan visit buffer max s with
  | case1 s h hf _ ih => exact ih ⟨hs.consumed, hs.visited, hs.inside, hs.bytes, hs.valid⟩
  | case2 s h hf hg ih => exact ih ⟨hs.consumed, hs.visited, hs.inside, hs.bytes, hs.valid⟩
  | case3 s h hf hg hv ih =>
    obtain ⟨hsize, hvalid⟩ := not_or.mp hg
    exact ih (hs.handOver h.2 (by omega) (eq_true_of_ne_false hvalid))
  | case4 s h hf hg hv =>
    obtain ⟨hsize, hvalid⟩ := not_or.mp hg
    have hnext := hs.handOver h.2 (by omega) (eq_true_of_ne_false hvalid)
    exact ⟨hnext.consumed, hnext.visited, hnext.inside, hnext.bytes, hnext.valid⟩
  | case5 s h => exact hs

/-! ## The file -/

/-- The bytes that `pread` obtains. -/
def ReadIo.bytes (io : ReadIo) (content : Bytes) : Bytes :=
  let size := min content.length crashDrainMaxBytes
  match io.pread size with
  | none => []
  | some got => content.take (min got size)

/-- `cbox_crash_drain_file`, as `crashDrainFile` is, with the checked loop. -/
def crashDrainFileChecked (io : ReadIo) (euid : Nat) (visit : Bytes → Bool) (max : Nat) (stop : Bool)
    (file : Option SinkFile) : Option DrainFileResult :=
  match file with
  | none => some (.failed stop)
  | some f =>
    if !io.opens || f.kind == .symlink then some (.failed stop)
    else if !io.fstats || f.kind != .regular || f.uid != euid then some (.failed stop)
    else if f.content.length = 0 then some ⟨some 0, [], stop, true, 0⟩
    else if !io.mallocs then some (.failed stop)
    else
      match io.pread (min f.content.length crashDrainMaxBytes) with
      | none => some (.failed stop)
      | some got =>
        if min got (min f.content.length crashDrainMaxBytes) = 0 then some (.failed stop)
        else
          (crashScanChecked visit (io.bytes f.content) max ⟨0, [], 0, false, stop⟩).map
            (drainVerdict f.content.length (io.bytes f.content))

/-- The loop as it is entered. -/
theorem within_start (buffer : Bytes) (max : Nat) (stop : Bool) :
    (ScanState.mk 0 [] 0 false stop).Within buffer max :=
  ⟨Nat.zero_le _, Nat.zero_le _, nofun, nofun, nofun⟩

/-- What one drain of a sink may do with the bytes read of it. -/
structure DrainFileResult.Within (r : DrainFileResult) (buffer : Bytes) (max : Nat) : Prop where
  consumed : r.consumedBytes ≤ buffer.length
  visited : ∀ n, r.found = some n → n = r.visits.length ∧ n ≤ max
  unread : r.found = none → r.visits = []
  inside : ∀ v ∈ r.visits, v.offset + recordSize ≤ buffer.length
  bytes : ∀ v ∈ r.visits, v = visitAt buffer v.offset
  valid : ∀ v ∈ r.visits, crashRecordValid v.record = true

theorem DrainFileResult.Within.failed (stop : Bool) (buffer : Bytes) (max : Nat) :
    (DrainFileResult.failed stop).Within buffer max :=
  ⟨Nat.zero_le _, nofun, fun _ => rfl, nofun, nofun, nofun⟩

/-- The verdict hands on what the loop did. -/
theorem ScanState.Within.verdict {s : ScanState} {buffer : Bytes} {max : Nat} (hs : s.Within buffer max)
    (fileSize : Nat) : (drainVerdict fileSize buffer s).Within buffer max where
  consumed := by
    have := hs.consumed
    simp only [drainVerdict]
    split <;> omega
  visited := by
    rintro n ⟨⟩
    exact ⟨rfl, hs.visited⟩
  unread := nofun
  inside := hs.inside
  bytes := hs.bytes
  valid := hs.valid

/-- The bytes that the file is scanned for are those that `pread` obtained. -/
theorem crashDrainFile_within (io : ReadIo) (euid : Nat) (visit : Bytes → Bool) (max : Nat) (stop : Bool)
    (f : SinkFile) :
    (crashDrainFile io euid visit max stop (some f)).Within (io.bytes f.content) max := by
  have hfailed := DrainFileResult.Within.failed stop (io.bytes f.content) max
  unfold crashDrainFile
  simp only
  -- The exits in the order of the source: the open, the stat, an empty file, the allocation, the read.
  split
  · exact hfailed
  · split
    · exact hfailed
    · split
      · exact ⟨Nat.zero_le _, by rintro n ⟨⟩; exact ⟨rfl, Nat.zero_le _⟩, nofun, nofun, nofun, nofun⟩
      · split
        · exact hfailed
        · split
          next => exact hfailed
          next got hgot =>
            have hbytes : io.bytes f.content =
                f.content.take (min got (min f.content.length crashDrainMaxBytes)) := by
              simp only [ReadIo.bytes, hgot]
            split
            · exact hfailed
            · rw [hbytes]
              exact (crashScan_within visit (within_start _ max stop)).verdict _

/-- **Draining a file looks at no byte that `pread` has not obtained.** -/
theorem crashDrainFileChecked_eq (io : ReadIo) (euid : Nat) (visit : Bytes → Bool) (max : Nat) (stop : Bool)
    (file : Option SinkFile) :
    crashDrainFileChecked io euid visit max stop file = some (crashDrainFile io euid visit max stop file) := by
  cases file with
  | none => rfl
  | some f =>
    unfold crashDrainFileChecked crashDrainFile
    simp only [crashScanChecked_eq, Option.map_some, ReadIo.bytes]
    cases hgot : io.pread (min f.content.length crashDrainMaxBytes) with
    | none => simp only [apply_ite some]
    | some got => simp only [apply_ite some]

end CboxTelemetry.Crash
