import CboxTelemetry.Crash.Incremental
import CboxTelemetry.Crash.Decode

/-!
# Torn records

A write that was cut short leaves a proper prefix of a record behind, and the next record starts where
it ends. Nothing in a record but its header says where it ends, so a drain of such a sink finds the
complete records only if its walk happens to come by each of them.

`resyncs_iff` says when it does, by the bytes between the complete records (`Resyncable`): no offset
there may pass for a complete record, and nothing there that passes for a record of another version may
reach into the next complete one. A torn record whose header was written whole is taken for a complete
one as soon as enough bytes follow it (`misread_of_header`).
-/

namespace CboxTelemetry.Crash

open Scan (frames)

/-- What one write leaves in a sink: a complete record, or the first bytes of one. -/
inductive Piece
  | complete (r : OwnRecord)
  | torn (r : OwnRecord) (n : Nat) (h : n < recordSize)

def Piece.bytes : Piece → Bytes
  | .complete r => r.bytes
  | .torn r n _ => r.bytes.take n

/-- The contents of a sink that was written piece by piece. -/
def concat (pieces : List Piece) : Bytes := pieces.flatMap Piece.bytes

/-- The complete records and where they start, when the pieces start at offset `o`. -/
def completes : Nat → List Piece → List Visit
  | _, [] => []
  | o, .complete r :: pieces => ⟨o, r.bytes⟩ :: completes (o + recordSize) pieces
  | o, .torn _ n _ :: pieces => completes (o + n) pieces

/-- **The promise.** One drain that reaches the sink first, with a larger budget than there are
complete records, hands over exactly these. -/
def Resyncs (euid : Nat) (name : Name) (pieces : List Piece) : Prop :=
  ∀ (call : DrainCall) (others : List Name) (c : Sinks), call.Reliable euid →
    call.targets = name :: others → name ∉ others → c name = some (concat pieces) →
    (completes 0 pieces).length < call.max →
      (call.run (c.toDir euid)).visitsFrom name = completes 0 pieces

/-! ## The bytes between the complete records -/

/-- At offset `o` there are the bytes of a whole record, and the test for this version holds of them. -/
def PassesOwn (buffer : Bytes) (o : Nat) : Prop :=
  o + recordSize ≤ buffer.length ∧ crashRecordValid (buffer.drop o) = true

/-- At offset `o` the test for a whole record of another version holds. -/
def PassesForeign (buffer : Bytes) (o : Nat) : Prop :=
  crashRecordForeignVersion (buffer.drop o) (buffer.length - o) = true

/-- Offset `o` lies inside what passes for a record of another version, at an earlier offset from `start`
on that does not lie inside such a one itself. -/
def SteppedOver (buffer : Bytes) (start o : Nat) : Prop :=
  ∃ p, ∃ _ : p < o, start ≤ p ∧ PassesForeign buffer p ∧ o < p + recordLen (buffer.drop p) ∧
    ¬SteppedOver buffer start p
termination_by o

/-- Between two offsets nothing is in the way: what passes for a record of this version is stepped over,
and what passes for one of another version, unless it is stepped over itself, ends there. -/
structure Clear (buffer : Bytes) (start stop : Nat) : Prop where
  own : ∀ o, start ≤ o → o < stop → PassesOwn buffer o → SteppedOver buffer start o
  foreign : ∀ o, start ≤ o → o < stop → PassesForeign buffer o → ¬SteppedOver buffer start o →
    o + recordLen (buffer.drop o) ≤ stop

/-- What is left of a read of `size` bytes, from `start` on, without the records at these offsets: where
each stretch begins and where it ends. -/
def stretches (size : Nat) : Nat → List Nat → List (Nat × Nat)
  | start, [] => [(start, size)]
  | start, f :: fs => (start, f) :: stretches size (f + recordSize) fs

/-- The first bytes of the sink, one read of it, have every complete record whole, and nothing is in the
way between them or behind the last. -/
structure Resyncable (pieces : List Piece) : Prop where
  whole : ∀ v ∈ completes 0 pieces, v.offset + recordSize ≤ (readBuffer (concat pieces)).length
  clear : ∀ stretch ∈ stretches (readBuffer (concat pieces)).length 0 ((completes 0 pieces).map Visit.offset),
    Clear (readBuffer (concat pieces)) stretch.1 stretch.2

@[simp] theorem concat_cons (piece : Piece) (pieces : List Piece) :
    concat (piece :: pieces) = piece.bytes ++ concat pieces := rfl

theorem length_torn (r : OwnRecord) {n : Nat} (h : n < recordSize) :
    (r.bytes.take n).length = n := by
  rw [List.length_take, r.length_eq]; omega

/-- The complete records are where `completes` says. -/
theorem take_of_mem_completes {buffer tail : Bytes} {pieces : List Piece} {o : Nat} {v : Visit}
    (hbuffer : buffer.drop o = concat pieces ++ tail) (hv : v ∈ completes o pieces) :
    o ≤ v.offset ∧ (buffer.drop v.offset).take recordSize = v.record := by
  induction pieces generalizing o with
  | nil => cases hv
  | cons piece pieces ih =>
    rw [concat_cons, List.append_assoc] at hbuffer
    cases piece with
    | complete r =>
      have hnext : buffer.drop (o + recordSize) = concat pieces ++ tail := by
        rw [← List.drop_drop, hbuffer, Piece.bytes, List.drop_left' r.length_eq]
      rcases List.mem_cons.mp hv with rfl | hv
      · refine ⟨le_rfl, ?_⟩
        rw [hbuffer, Piece.bytes, List.take_left' r.length_eq]
      · obtain ⟨hle, htake⟩ := ih hnext hv
        exact ⟨by omega, htake⟩
    -- A torn record takes its bytes and completes nothing.
    | torn r n h =>
      have hnext : buffer.drop (o + n) = concat pieces ++ tail := by
        rw [← List.drop_drop, hbuffer, Piece.bytes, List.drop_left' (length_torn r h)]
      obtain ⟨hle, htake⟩ := ih hnext hv
      exact ⟨by omega, htake⟩

/-- A frame of one read of a file is the same bytes in the file. -/
theorem visitAt_readBuffer {content : Bytes} {o : Nat}
    (h : o + recordSize ≤ (readBuffer content).length) :
    visitAt (readBuffer content) o = visitAt content o := by
  have hlen := length_readBuffer content
  rw [visitAt, visitAt, readBuffer, List.drop_take, List.take_take, Nat.min_eq_left (by omega)]

/-- Where a record is found, there is a whole one. -/
theorem fits_of_frameAt {buffer : Bytes} {o : Nat} (h : Scan.FrameAt (sinkInput buffer) o) :
    o + recordSize ≤ buffer.length := by
  obtain ⟨-, n, hfound⟩ := h
  rw [sinkInput_found, sinkFound] at hfound
  split at hfound
  · cases hfound
  · split at hfound
    · cases hfound
    next hfit => omega

/-! ## The walk over a stretch -/

/-- The records behind a torn one start no earlier than it ends. -/
theorem le_offset_of_mem_completes {pieces : List Piece} {o : Nat} {v : Visit}
    (hv : v ∈ completes o pieces) : o ≤ v.offset := by
  induction pieces generalizing o with
  | nil => cases hv
  | cons piece pieces ih =>
    cases piece with
    | complete r =>
      rcases List.mem_cons.mp hv with rfl | hv
      · exact le_rfl
      · exact (Nat.le_add_right _ _).trans (ih hv)
    | torn r n h => exact (Nat.le_add_right _ _).trans (ih hv)

/-- Where a complete record stands, the read has a frame if and only if it has the record whole. -/
theorem frameAt_complete {content tail : Bytes} {o : Nat} {r : OwnRecord}
    (h : content.drop o = r.bytes ++ tail) :
    Scan.FrameAt (sinkInput (readBuffer content)) o ↔
      o + recordSize ≤ (readBuffer content).length := by
  constructor
  · exact fits_of_frameAt
  · intro hfit
    have hstart : (readBuffer content).drop o = r.bytes ++ ((readBuffer content).drop o).drop recordSize := by
      have hlen := length_readBuffer content
      have htake : ((readBuffer content).drop o).take recordSize = r.bytes := by
        rw [readBuffer, List.drop_take, List.take_take, Nat.min_eq_left (by omega), h,
          List.take_left' r.length_eq]
      rw [← htake, List.take_append_drop]
    refine ⟨?_, recordSize, sinkFound_own hstart (by omega)⟩
    simp only [sinkInput_header, sinkInput_size, headerProbeSize, recordSize] at *
    omega

section stretch
variable {buffer : Bytes} {start stop o : Nat}

/-- A frame is a place that passes the test for a record of this version. -/
theorem frameAt_iff : Scan.FrameAt (sinkInput buffer) o ↔ PassesOwn buffer o := by
  constructor
  · intro hframe
    refine ⟨fits_of_frameAt hframe, ?_⟩
    obtain ⟨-, n, hfound⟩ := hframe
    rw [sinkInput_found, sinkFound] at hfound
    split at hfound
    · cases hfound
    · split at hfound
      · cases hfound
      next hfit =>
        rw [not_or] at hfit
        exact Bool.eq_true_of_not_eq_false hfit.2
  · rintro ⟨hfit, hvalid⟩
    refine ⟨?_, recordSize, ?_⟩
    · simp only [sinkInput_header, sinkInput_size, headerProbeSize, recordSize] at *
      omega
    -- A valid record is of this version, so the foreign test comes first and fails.
    · rw [sinkInput_found, sinkFound, not_foreign_of_valid hvalid, if_neg Bool.false_ne_true, if_neg]
      rw [hvalid]
      rintro (hshort | hinvalid)
      · omega
      · cases hinvalid

theorem found_of_passesForeign (h : PassesForeign buffer o) :
    (sinkInput buffer).found o = .skip (recordLen (buffer.drop o)) := if_pos h

/-- What is stepped over passed the foreign test. -/
theorem passesForeign_of_found {n : Nat} (h : (sinkInput buffer).found o = .skip n) :
    PassesForeign buffer o ∧ n = recordLen (buffer.drop o) := by
  rw [sinkInput_found, sinkFound] at h
  split at h
  next hforeign =>
    cases h
    exact ⟨hforeign, rfl⟩
  · split at h <;> cases h

/-- A whole record of another version has its header and lies inside the buffer. -/
theorem PassesForeign.bounds (h : PassesForeign buffer o) :
    headerProbeSize ≤ recordLen (buffer.drop o) ∧ o + recordLen (buffer.drop o) ≤ buffer.length := by
  have hbounds := crashRecordForeignVersion_len h
  simp only [headerProbeSize] at *
  omega

/-- Nothing before the start is looked at, so the start is not stepped over. -/
theorem not_steppedOver_start : ¬SteppedOver buffer start start := by
  rw [SteppedOver]
  rintro ⟨p, hlt, hle, -⟩
  omega

/-- Starting one byte later makes no difference where no record of another version begins. -/
theorem steppedOver_noise (hnoise : ¬PassesForeign buffer start) (h : start < o) :
    SteppedOver buffer start o ↔ SteppedOver buffer (start + 1) o := by
  induction o using Nat.strong_induction_on with
  | _ o ih =>
    rw [SteppedOver, SteppedOver]
    refine exists_congr fun p => exists_congr fun hlt => ?_
    by_cases hp : p = start
    · subst hp
      exact iff_of_false (fun hover => hnoise hover.2.1) fun hover => absurd hover.1 (by omega)
    · have hstart : start ≤ p ↔ start + 1 ≤ p := by omega
      rw [hstart]
      refine and_congr_right fun hle => ?_
      rw [ih p hlt (by omega)]

/-- Inside a record of another version at the start, all is stepped over. -/
theorem steppedOver_inside (hforeign : PassesForeign buffer start) (h : start < o)
    (hinside : o < start + recordLen (buffer.drop start)) : SteppedOver buffer start o := by
  rw [SteppedOver]
  exact ⟨start, h, le_rfl, hforeign, hinside, not_steppedOver_start⟩

/-- Behind it, the walk starts afresh. -/
theorem steppedOver_behind (hforeign : PassesForeign buffer start)
    (h : start + recordLen (buffer.drop start) ≤ o) :
    SteppedOver buffer start o ↔ SteppedOver buffer (start + recordLen (buffer.drop start)) o := by
  have hpos := hforeign.bounds.1
  simp only [headerProbeSize] at hpos
  induction o using Nat.strong_induction_on with
  | _ o ih =>
    rw [SteppedOver, SteppedOver]
    refine exists_congr fun p => exists_congr fun hlt => ?_
    rcases Nat.lt_or_ge p (start + recordLen (buffer.drop start)) with hbefore | hbehind
    · -- The record at the start ends before `o`, and the offsets inside it are stepped over.
      refine iff_of_false ?_ fun hover => absurd hover.1 (by omega)
      rintro ⟨hle, -, hover, hnot⟩
      rcases Nat.eq_or_lt_of_le hle with rfl | hinside
      · omega
      · exact hnot (steppedOver_inside hforeign hinside hbefore)
    · have hstart : start ≤ p ↔ start + recordLen (buffer.drop start) ≤ p := by omega
      rw [hstart]
      exact and_congr_right fun _ => and_congr_right fun _ => and_congr_right fun _ =>
        not_congr (ih p hlt hbehind)

theorem clear_self : Clear buffer start start :=
  ⟨fun _ _ _ => by omega, fun _ _ _ => by omega⟩

/-- Where no test holds, nothing is in the way. -/
theorem clear_of_none (h : ∀ o, start ≤ o → o < stop → ¬PassesOwn buffer o ∧ ¬PassesForeign buffer o) :
    Clear buffer start stop :=
  ⟨fun o hle hlt hpass => absurd hpass (h o hle hlt).1,
    fun o hle hlt hpass _ => absurd hpass (h o hle hlt).2⟩

/-- A record of this version at the start is in the way. -/
theorem not_clear_of_own (h : PassesOwn buffer start) (hlt : start < stop) : ¬Clear buffer start stop :=
  fun hclear => not_steppedOver_start (hclear.own start le_rfl hlt h)

/-- A stretch that starts with noise is clear when the stretch behind it is. -/
theorem clear_noise (hown : ¬PassesOwn buffer start) (hforeign : ¬PassesForeign buffer start) :
    Clear buffer start stop ↔ Clear buffer (start + 1) stop := by
  constructor
  · intro h
    refine ⟨fun o hle hlt hpass => ?_, fun o hle hlt hpass hnot => ?_⟩
    · exact (steppedOver_noise hforeign hle).mp (h.own o (by omega) hlt hpass)
    · rw [← steppedOver_noise hforeign hle] at hnot
      exact h.foreign o (by omega) hlt hpass hnot
  · intro h
    refine ⟨fun o hle hlt hpass => ?_, fun o hle hlt hpass hnot => ?_⟩
    -- The start itself passes neither test.
    · rcases Nat.eq_or_lt_of_le hle with rfl | hlater
      · exact absurd hpass hown
      · exact (steppedOver_noise hforeign hlater).mpr (h.own o hlater hlt hpass)
    · rcases Nat.eq_or_lt_of_le hle with rfl | hlater
      · exact absurd hpass hforeign
      · rw [steppedOver_noise hforeign hlater] at hnot
        exact h.foreign o hlater hlt hpass hnot

/-- A stretch that starts with a foreign record is clear when that record ends in it and the stretch
behind the record is clear. -/
theorem clear_skip (hforeign : PassesForeign buffer start) (hlt : start < stop) :
    Clear buffer start stop ↔ start + recordLen (buffer.drop start) ≤ stop ∧
      Clear buffer (start + recordLen (buffer.drop start)) stop := by
  -- A place cannot pass both tests, as they ask for different versions.
  have hnotOwn : ¬PassesOwn buffer start := by
    rintro ⟨-, hvalid⟩
    have hnot : crashRecordForeignVersion (buffer.drop start) (buffer.length - start) = false :=
      not_foreign_of_valid hvalid
    rw [PassesForeign, hnot] at hforeign
    cases hforeign
  constructor
  · intro h
    refine ⟨h.foreign start le_rfl hlt hforeign not_steppedOver_start, fun o hle hstop hpass => ?_,
      fun o hle hstop hpass hnot => ?_⟩
    · exact (steppedOver_behind hforeign hle).mp (h.own o (by omega) hstop hpass)
    · rw [← steppedOver_behind hforeign hle] at hnot
      exact h.foreign o (by omega) hstop hpass hnot
  · rintro ⟨hends, h⟩
    refine ⟨fun o hle hstop hpass => ?_, fun o hle hstop hpass hnot => ?_⟩
    -- A place inside the foreign record is stepped over, and one behind it is as before.
    · rcases Nat.lt_or_ge o (start + recordLen (buffer.drop start)) with hinside | hbehind
      · rcases Nat.eq_or_lt_of_le hle with rfl | hlater
        · exact absurd hpass hnotOwn
        · exact steppedOver_inside hforeign hlater hinside
      · exact (steppedOver_behind hforeign hbehind).mpr (h.own o hbehind hstop hpass)
    · rcases Nat.lt_or_ge o (start + recordLen (buffer.drop start)) with hinside | hbehind
      · rcases Nat.eq_or_lt_of_le hle with rfl | hlater
        · exact hends
        · exact absurd (steppedOver_inside hforeign hlater hinside) hnot
      · rw [steppedOver_behind hforeign hbehind] at hnot
        exact h.foreign o hbehind hstop hpass hnot

/-- Where the walk finds noise, neither test holds. -/
theorem not_passes_of_noise (h : (sinkInput buffer).found o = .noise) :
    ¬PassesOwn buffer o ∧ ¬PassesForeign buffer o := by
  refine ⟨fun hown => ?_, fun hforeign => ?_⟩
  · obtain ⟨-, n, hfound⟩ := frameAt_iff.mpr hown
    rw [h] at hfound
    cases hfound
  · rw [found_of_passesForeign hforeign] at h
    cases h

/-- **The walk comes by the next record** iff nothing is in the way. -/
theorem frames_cons_iff {fs : List Nat} (hle : start ≤ stop) :
    frames (sinkInput buffer) start = stop :: fs ↔
      Clear buffer start stop ∧ frames (sinkInput buffer) stop = stop :: fs := by
  -- By cases of what the scan finds at the start of the stretch.
  induction start using Scan.scan_induction (i := sinkInput buffer) with
  | stop o hs =>
    rw [Scan.frames_stop hs, Scan.frames_stop (hs.trans_le (Nat.add_le_add_right hle _))]
    exact iff_of_false nofun fun h => nomatch h.2
  | noise o hs hf ih =>
    rcases Nat.eq_or_lt_of_le hle with rfl | hlt
    · exact (and_iff_right clear_self).symm
    · obtain ⟨hown, hforeign⟩ := not_passes_of_noise hf
      rw [Scan.frames_noise hs hf, clear_noise hown hforeign]
      exact ih hlt
  | skip o n hs hf ih =>
    rcases Nat.eq_or_lt_of_le hle with rfl | hlt
    · exact (and_iff_right clear_self).symm
    · obtain ⟨hforeign, rfl⟩ := passesForeign_of_found hf
      rw [Scan.frames_skip hs hf, clear_skip hforeign hlt, and_assoc]
      constructor
      · intro h
        -- What was found at `stop` is not before the end of what was skipped.
        have hends := (Scan.mem_frames (h ▸ List.mem_cons_self : stop ∈ frames _ _)).1
        exact ⟨hends, (ih hends).mp h⟩
      · rintro ⟨hends, h⟩
        exact (ih hends).mpr h
  | frame o n hs hf ih =>
    rcases Nat.eq_or_lt_of_le hle with rfl | hlt
    · exact (and_iff_right clear_self).symm
    · refine iff_of_false (fun h => ?_) fun h => not_clear_of_own (frameAt_iff.mp ⟨hs, n, hf⟩) hlt h.1
      rw [Scan.frames_frame hs hf, List.cons.injEq] at h
      omega

/-- The walk finds nothing more iff nothing is in the way to the end of the read. -/
theorem frames_nil_iff : frames (sinkInput buffer) start = [] ↔ Clear buffer start buffer.length := by
  induction start using Scan.scan_induction (i := sinkInput buffer) with
  | stop o hs =>
    refine iff_of_true (Scan.frames_stop hs) ⟨fun p hle hlt hpass => ?_, fun p hle hlt hpass _ => ?_⟩
    · have hfit := hpass.1
      simp only [sinkInput_size, sinkInput_header, headerProbeSize, recordSize] at hs hfit
      omega
    · exact hpass.bounds.2
  | noise o hs hf ih =>
    obtain ⟨hown, hforeign⟩ := not_passes_of_noise hf
    rw [Scan.frames_noise hs hf, clear_noise hown hforeign]
    exact ih
  | skip o n hs hf ih =>
    obtain ⟨hforeign, rfl⟩ := passesForeign_of_found hf
    have hends := hforeign.bounds
    simp only [headerProbeSize] at hends
    rw [Scan.frames_skip hs hf, clear_skip hforeign (by omega), and_iff_right hends.2]
    exact ih
  -- A frame passes the test and is not stepped over, so the stretch is not clear.
  | frame o n hs hf ih =>
    have hlt : o < buffer.length := by
      simp only [sinkInput_size, sinkInput_header, headerProbeSize] at hs
      omega
    rw [Scan.frames_frame hs hf]
    exact iff_of_false (List.cons_ne_nil _ _) (not_clear_of_own (frameAt_iff.mp ⟨hs, n, hf⟩) hlt)

/-- What is found at the start of a record is the record. -/
theorem frames_frameAt_iff {fs : List Nat} : frames (sinkInput buffer) o = o :: fs ↔
    Scan.FrameAt (sinkInput buffer) o ∧ frames (sinkInput buffer) (o + recordSize) = fs := by
  have hframes : Scan.FrameAt (sinkInput buffer) o →
      frames (sinkInput buffer) o = o :: frames (sinkInput buffer) (o + recordSize) := by
    rintro ⟨hroom, n, hfound⟩
    cases eq_of_sinkFound_frame hfound
    exact Scan.frames_frame hroom hfound
  constructor
  · intro h
    have hframe := (Scan.quiet_of_frames_cons h).2
    rw [hframes hframe, List.cons.injEq] at h
    exact ⟨hframe, h.2⟩
  · rintro ⟨hframe, hrest⟩
    rw [hframes hframe, hrest]

end stretch

/-- The walk from the start of a stretch, over the torn records up to `o` and the pieces from there on. -/
theorem frames_completes_iff {content : Bytes} {pieces : List Piece} {start o : Nat} (hle : start ≤ o)
    (hstart : content.drop o = concat pieces) :
    frames (sinkInput (readBuffer content)) start = (completes o pieces).map Visit.offset ↔
      (∀ v ∈ completes o pieces, v.offset + recordSize ≤ (readBuffer content).length) ∧
        ∀ stretch ∈ stretches (readBuffer content).length start ((completes o pieces).map Visit.offset),
          Clear (readBuffer content) stretch.1 stretch.2 := by
  -- By the pieces: each complete record ends one stretch and starts the next one.
  induction pieces generalizing start o with
  | nil =>
    simp only [completes, List.map_nil, stretches, List.mem_singleton, forall_eq, List.not_mem_nil,
      false_imp_iff, implies_true, true_and]
    exact frames_nil_iff
  | cons piece pieces ih =>
    rw [concat_cons] at hstart
    cases piece with
    | complete r =>
      have hnext : content.drop (o + recordSize) = concat pieces := by
        rw [← List.drop_drop, hstart, Piece.bytes, List.drop_left' r.length_eq]
      rw [completes, List.map_cons, stretches, List.forall_mem_cons, List.forall_mem_cons,
        frames_cons_iff hle, frames_frameAt_iff, ih le_rfl hnext, frameAt_complete hstart]
      exact ⟨fun ⟨hclear, hwhole, hwholes, hclears⟩ => ⟨⟨hwhole, hwholes⟩, hclear, hclears⟩,
        fun ⟨⟨hwhole, hwholes⟩, hclear, hclears⟩ => ⟨hclear, hwhole, hwholes, hclears⟩⟩
    -- A torn record is a part of the stretch it stands in.
    | torn r n h =>
      have hnext : content.drop (o + n) = concat pieces := by
        rw [← List.drop_drop, hstart, Piece.bytes, List.drop_left' (length_torn r h)]
      exact ih (hle.trans (Nat.le_add_right o n)) hnext

/-- **The scan of one read finds exactly the complete records** iff nothing is in the way. -/
theorem frames_eq_iff_resyncable (pieces : List Piece) :
    frames (sinkInput (readBuffer (concat pieces))) 0 = (completes 0 pieces).map Visit.offset ↔
      Resyncable pieces := by
  rw [frames_completes_iff le_rfl List.drop_zero]
  exact ⟨fun h => ⟨h.1, h.2⟩, fun h => ⟨h.whole, h.clear⟩⟩

/-- A drain with a larger budget than there are complete records finds exactly these iff its scan of one
read does. -/
theorem sinkStep_visits_iff {pieces : List Piece} {b : Nat} (hb : (completes 0 pieces).length < b) :
    (sinkStep b (concat pieces)).visits = completes 0 pieces ↔
      frames (sinkInput (readBuffer (concat pieces))) 0 = (completes 0 pieces).map Visit.offset := by
  have hvisits : (sinkStep b (concat pieces)).visits =
      ((frames (sinkInput (readBuffer (concat pieces))) 0).take b).map
        (visitAt (readBuffer (concat pieces))) := by
    rw [sinkStep, Scan.scan_frames]
  rw [hvisits]
  constructor
  -- The offsets of what was handed over are those of the frames, and the budget cuts none.
  · intro h
    have hoffsets := congrArg (List.map Visit.offset) h
    rw [List.map_map] at hoffsets
    have hid : (Visit.offset ∘ visitAt (readBuffer (concat pieces))) = id := rfl
    rw [hid, List.map_id] at hoffsets
    have hlen := congrArg List.length hoffsets
    rw [List.length_take, List.length_map] at hlen
    rw [← hoffsets, List.take_of_length_le (by omega)]
  · intro h
    rw [h, List.take_of_length_le (by rw [List.length_map]; omega), List.map_map]
    conv_rhs => rw [← List.map_id (completes 0 pieces)]
    -- A frame that stands where a record does is that record.
    refine List.map_congr_left fun v hv => ?_
    have hframe : v.offset ∈ frames (sinkInput (readBuffer (concat pieces))) 0 := by
      rw [h]
      exact List.mem_map_of_mem hv
    obtain ⟨-, hhead, n, hfound⟩ := Scan.mem_frames hframe
    have hfit := fits_of_frameAt ⟨hhead, n, hfound⟩
    have hstart : (concat pieces).drop 0 = concat pieces ++ [] := by
      rw [List.drop_zero, List.append_nil]
    rw [Function.comp_apply, visitAt_readBuffer hfit, visitAt, (take_of_mem_completes hstart hv).2]
    rfl

/-- A drain that keeps the promise tells that nothing is in the way. -/
theorem resyncable_of_resyncs {d : CrashDir} {self p : Pid} (hself : self ≠ p) {pieces : List Piece}
    (hpromise : Resyncs d.uid (sinkName p.toInt) pieces) : Resyncable pieces := by
  have hnew : self ∉ [p] := fun h => hself (List.mem_singleton.mp h)
  have htargets := callOver_targets d ((completes 0 pieces).length + 1) hnew
  have hcall := callOver_reliable d self ((completes 0 pieces).length + 1) [p]
  have hrun := hpromise _ [] (fun _ => some (concat pieces)) hcall htargets List.not_mem_nil rfl
    (Nat.lt_succ_self _)
  rw [(DrainCall.run_first hcall htargets List.not_mem_nil rfl (Nat.le_add_left 1 _)).1] at hrun
  exact (frames_eq_iff_resyncable pieces).mp ((sinkStep_visits_iff (Nat.lt_succ_self _)).mp hrun)

/-- **Resynchronisation after torn records.** A drain finds exactly the complete records of every sink
in which nothing is in the way between them, and of no other. -/
theorem resyncs_iff (d : CrashDir) {self p : Pid} (hself : self ≠ p) (pieces : List Piece) :
    Resyncs d.uid (sinkName p.toInt) pieces ↔ Resyncable pieces := by
  constructor
  · exact resyncable_of_resyncs hself
  · intro hclear call others c hcall htargets honce hfile hbudget
    rw [(DrainCall.run_first hcall htargets honce hfile (by omega)).1]
    exact (sinkStep_visits_iff hbudget).mpr ((frames_eq_iff_resyncable pieces).mpr hclear)

/-- A record, the first five bytes of another, and a third. -/
def tornBetween : List Piece :=
  [.complete blankRecord, .torn blankRecord 5 (by decide), .complete blankRecord]

/-- The five bytes and the magic number behind them pass no test at any offset. -/
theorem tests_tornBetween : ∀ k < 5,
    crashRecordValid ((blankRecord.bytes.take 5 ++ blankRecord.bytes).drop k) = false ∧
      crashRecordForeignVersion ((blankRecord.bytes.take 5 ++ blankRecord.bytes).drop k) (2165 - k) = false := by
  decide +kernel

theorem resyncable_tornBetween : Resyncable tornBetween := by
  have hlength := blankRecord.length_eq
  have hcontent : concat tornBetween =
      blankRecord.bytes ++ (blankRecord.bytes.take 5 ++ blankRecord.bytes) := by
    simp only [concat, tornBetween, Piece.bytes, List.flatMap_cons, List.flatMap_nil, List.append_nil]
  have hsize : (concat tornBetween).length = 4325 := by
    rw [hcontent, List.length_append, List.length_append, List.length_take, hlength]
    decide
  have hread : readBuffer (concat tornBetween) = concat tornBetween :=
    List.take_of_length_le (by rw [hsize]; decide)
  have hcompletes : completes 0 tornBetween = [⟨0, blankRecord.bytes⟩, ⟨2165, blankRecord.bytes⟩] := rfl
  rw [← hread] at hsize
  constructor
  · rw [hcompletes, hsize]
    intro v hv
    rcases List.mem_cons.mp hv with rfl | hv
    · decide
    · rw [List.mem_singleton.mp hv]
      decide
  · rw [hcompletes, hsize]
    intro stretch hstretch
    -- Three stretches: nothing before the first record, the five bytes, and nothing behind the second one.
    have hcases : stretch ∈ [(0, 0), (2160, 2165), (4325, 4325)] := hstretch
    simp only [List.mem_cons, List.not_mem_nil, or_false] at hcases
    rcases hcases with rfl | rfl | rfl
    · exact clear_self
    -- At each of the five bytes neither test passes.
    · refine clear_of_none fun o hle hlt => ?_
      obtain ⟨k, rfl⟩ := Nat.exists_eq_add_of_le hle
      have htests := tests_tornBetween k (by omega)
      have hdrop : (readBuffer (concat tornBetween)).drop (2160 + k) =
          (blankRecord.bytes.take 5 ++ blankRecord.bytes).drop k := by
        rw [hread, hcontent, ← List.drop_drop,
          show (2160 : Nat) = recordSize from rfl, List.drop_left' hlength]
      have hleft : 4325 - (2160 + k) = 2165 - k := by omega
      rw [PassesOwn, PassesForeign, hdrop, hsize, hleft, htests.1, htests.2]
      exact ⟨fun h => Bool.false_ne_true h.2, Bool.false_ne_true⟩
    · exact clear_self

/-- The torn record in the middle is passed over. -/
theorem resyncs_iff_between : Resyncs tmpDir.uid (sinkName gone.toInt) tornBetween :=
  (resyncs_iff tmpDir (by decide : drainer ≠ gone) tornBetween).mpr resyncable_tornBetween

/-! ## The walk without records of other versions -/

/-- The offsets that belong to torn records. -/
def tornOffsets : Nat → List Piece → List Nat
  | _, [] => []
  | o, .complete _ :: pieces => tornOffsets (o + recordSize) pieces
  | o, .torn _ n _ :: pieces => List.range' o n ++ tornOffsets (o + n) pieces

/-- With nothing to step over, the walk goes on to the next byte unless it stands at a record. -/
theorem frames_next {buffer : Bytes} (hforeign : NoForeign buffer) {o : Nat}
    (h : ¬Scan.FrameAt (sinkInput buffer) o) :
    frames (sinkInput buffer) o = frames (sinkInput buffer) (o + 1) := by
  by_cases hroom : o + headerProbeSize ≤ buffer.length
  · cases hfound : (sinkInput buffer).found o with
    | noise => exact Scan.frames_noise hroom hfound
    | skip n => exact absurd hfound (sinkFound_ne_skip hforeign o n)
    | frame n => exact absurd ⟨hroom, n, hfound⟩ h
  · rw [Scan.frames_stop, Scan.frames_stop] <;> simp only [sinkInput_size, sinkInput_header] <;> omega

/-- The walk over a torn record finds nothing iff no offset of it passes for a record. -/
theorem frames_torn_iff {buffer : Bytes} (hforeign : NoForeign buffer) {o n : Nat} {fs : List Nat}
    (hfs : ∀ f ∈ fs, o + n ≤ f) :
    frames (sinkInput buffer) o = fs ↔
      (∀ p ∈ List.range' o n, ¬Scan.FrameAt (sinkInput buffer) p) ∧
        frames (sinkInput buffer) (o + n) = fs := by
  induction n generalizing o with
  | zero => simp
  | succ n ih =>
    rw [List.range'_succ, List.forall_mem_cons]
    by_cases hframe : Scan.FrameAt (sinkInput buffer) o
    · -- A record found here is not one of those further on.
      refine iff_of_false (fun h => ?_) fun h => h.1.1 hframe
      rw [Scan.frames_of_frameAt hframe] at h
      have := hfs o (h ▸ List.mem_cons_self)
      omega
    · rw [frames_next hforeign hframe, ih fun f hf => by have := hfs f hf; omega]
      rw [Nat.add_assoc, Nat.add_comm 1 n]
      exact ⟨fun h => ⟨⟨hframe, h.1⟩, h.2⟩, fun h => ⟨h.1.2, h.2⟩⟩

/-- The walk over pieces finds the complete records among them iff one read holds them all and no
offset of a torn one passes for a record. -/
theorem frames_eq_completes_iff {content : Bytes} (hforeign : NoForeign (readBuffer content))
    {pieces : List Piece} {o : Nat} (hstart : content.drop o = concat pieces) :
    frames (sinkInput (readBuffer content)) o = (completes o pieces).map Visit.offset ↔
      (∀ v ∈ completes o pieces, v.offset + recordSize ≤ (readBuffer content).length) ∧
        ∀ p ∈ tornOffsets o pieces, ¬Scan.FrameAt (sinkInput (readBuffer content)) p := by
  induction pieces generalizing o with
  -- Behind the last piece there is nothing to find.
  | nil =>
    have hend : content.length ≤ o := List.drop_eq_nil_iff.mp hstart
    have hlen := length_readBuffer content
    have hnone : frames (sinkInput (readBuffer content)) o = [] :=
      frames_of_short (by simp only [recordSize]; omega)
    simp [completes, tornOffsets, hnone]
  | cons piece pieces ih =>
    rw [concat_cons] at hstart
    cases piece with
    -- A complete record has to be found, and the walk goes on behind it.
    | complete r =>
      have hnext : content.drop (o + recordSize) = concat pieces := by
        rw [← List.drop_drop, hstart, Piece.bytes, List.drop_left' r.length_eq]
      rw [completes, tornOffsets, List.map_cons, List.forall_mem_cons, and_assoc, ← ih hnext,
        ← frameAt_complete hstart]
      have hlen : ∀ h : Scan.FrameAt (sinkInput (readBuffer content)) o,
          frames (sinkInput (readBuffer content)) o =
            o :: frames (sinkInput (readBuffer content)) (o + recordSize) := by
        rintro ⟨hroom, n, hfound⟩
        have hsize := eq_of_sinkFound_frame hfound
        subst hsize
        exact Scan.frames_frame hroom hfound
      constructor
      · intro h
        have hframe := (Scan.quiet_of_frames_cons h).2
        rw [hlen hframe, List.cons.injEq] at h
        exact ⟨hframe, h.2⟩
      · rintro ⟨hframe, hrest⟩
        rw [hlen hframe, hrest]
    -- A torn record asks that none of its offsets passes.
    | torn r n h =>
      have hnext : content.drop (o + n) = concat pieces := by
        rw [← List.drop_drop, hstart, Piece.bytes, List.drop_left' (length_torn r h)]
      rw [completes, tornOffsets, List.forall_mem_append, frames_torn_iff hforeign, ih hnext]
      · exact and_left_comm
      · intro f hf
        obtain ⟨v, hv, rfl⟩ := List.mem_map.mp hf
        exact le_offset_of_mem_completes hv

/-- **Without records of other versions**: where nothing in a sink passes for one, all depends on whether
one read holds the complete records and an offset of a torn one passes for a complete one. -/
theorem resyncable_iff {pieces : List Piece} (hforeign : NoForeign (concat pieces)) :
    Resyncable pieces ↔
      (∀ v ∈ completes 0 pieces, v.offset + recordSize ≤ (readBuffer (concat pieces)).length) ∧
        ∀ p ∈ tornOffsets 0 pieces, ¬PassesOwn (readBuffer (concat pieces)) p := by
  rw [← frames_eq_iff_resyncable, frames_eq_completes_iff (noForeign_readBuffer hforeign) List.drop_zero]
  simp only [frameAt_iff]

/-! ## Torn behind the header -/

/-- A torn record whose header was written whole is taken for a complete one, mixed with what follows,
as soon as enough bytes follow. -/
theorem misread_of_header {r : OwnRecord} {n : Nat} (h : n < recordSize) (hheader : 24 ≤ n)
    {pieces : List Piece} (hlen : recordSize ≤ n + (concat pieces).length) :
    ¬Resyncable (.torn r n h :: pieces) := by
  have htorn := length_torn r h
  have hvalid : crashRecordValid (concat (.torn r n h :: pieces)) = true := by
    have hwhole : crashRecordValid (r.bytes.take n ++ r.bytes.drop n) = true := by
      rw [List.take_append_drop]; exact r.valid
    rw [concat_cons, Piece.bytes, crashRecordValid_append _ (by omega)]
    rwa [crashRecordValid_append _ (by omega)] at hwhole
  have hread : recordSize ≤ (readBuffer (concat (.torn r n h :: pieces))).length := by
    rw [length_readBuffer, concat_cons, List.length_append, Piece.bytes, htorn]
    simp only [crashDrainMaxBytes, recordSize] at *; omega
  -- The read sees the header and a record's length behind it, so the walk stops at the very start.
  have hframe : Scan.FrameAt (sinkInput (readBuffer (concat (.torn r n h :: pieces)))) 0 := by
    refine frameAt_iff.mpr ⟨by omega, ?_⟩
    have hsplit := List.take_append_drop crashDrainMaxBytes (concat (.torn r n h :: pieces))
    rw [← hsplit, crashRecordValid_append _ (by
      rw [← readBuffer]
      simp only [recordSize] at hread
      omega)] at hvalid
    rw [List.drop_zero]
    exact hvalid
  rw [← frames_eq_iff_resyncable, Scan.frames_of_frameAt hframe]
  -- A frame at the offset 0 would have to be the offset of a complete record.
  intro hfound
  have hmem : 0 ∈ (completes 0 (.torn r n h :: pieces)).map Visit.offset := by
    rw [← hfound]
    exact List.mem_cons_self
  obtain ⟨v, hv, hzero⟩ := List.mem_map.mp hmem
  have hrest : v ∈ completes (0 + n) pieces := hv
  -- The first piece is the torn record, so the complete ones come later.
  have := le_offset_of_mem_completes hrest
  omega

/-- A record torn behind its header hides the complete one that follows. -/
theorem not_resyncs_torn : ¬Resyncs tmpDir.uid (sinkName gone.toInt)
    [.torn blankRecord 24 (by decide), .complete blankRecord] := by
  intro hpromise
  have hclear := resyncable_of_resyncs (by decide : drainer ≠ gone) hpromise
  refine misread_of_header (by decide) le_rfl ?_ hclear
  rw [concat_cons, List.length_append, Piece.bytes, blankRecord.length_eq]
  omega

end CboxTelemetry.Crash
