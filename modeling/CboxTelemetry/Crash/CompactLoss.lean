import CboxTelemetry.Crash.Compact
import CboxTelemetry.Crash.Items

/-!
# What compacting loses

A `pread` that fails ends the copy loop of `cbox_crash_compact` like the end of the file does, and the
file is then cut off at what has been moved. A `pwrite` that falls short, or an `ftruncate` that fails,
leaves the file long, with its end where it was: then only a record that is longer than what was
discarded can be torn. `CompactIo.Harmless` is when neither happens.
-/

namespace CboxTelemetry.Crash

open InPlace

/-! ## Records in a file -/

/-- The bytes are one whole record, of this version or of another. -/
def IsRecord (record : Bytes) : Prop :=
  record.length = recordSize ∧ crashRecordValid record = true ∨
    crashRecordForeignVersion record record.length = true ∧ recordLen record = record.length

/-- Every record that lies in `content` from `consumed` on is contiguous in `left`. -/
def KeepsRecords (content : Bytes) (consumed : Nat) (left : Bytes) : Prop :=
  ∀ i n, consumed ≤ i → i + n ≤ content.length → IsRecord ((content.drop i).take n) →
    (content.drop i).take n <:+: left

/-- A record has a header, and a length that fits its field. -/
theorem IsRecord.length_bounds {record : Bytes} (h : IsRecord record) :
    headerProbeSize ≤ record.length ∧ record.length ≤ 65535 := by
  rcases h with ⟨hsize, -⟩ | ⟨hforeign, hlen⟩
  · rw [hsize]
    decide
  · have hbounds := crashRecordForeignVersion_len hforeign
    have hlt := recordLen_lt record
    omega

/-- A record starts with the magic. -/
theorem IsRecord.magic {record : Bytes} (h : IsRecord record) : recordMagic record = crashMagic := by
  rcases h with ⟨-, hvalid⟩ | ⟨hforeign, -⟩
  · simp only [crashRecordValid, Bool.and_eq_true, beq_iff_eq] at hvalid
    exact hvalid.1.1.1
  · simp only [crashRecordForeignVersion, Bool.and_eq_true, beq_iff_eq] at hforeign
    exact hforeign.1.1.1

/-! ## What the calls move -/

/-- How many bytes the calls move in a file of `len` bytes, from the `k`-th on, and whether it is a
`pread` that ends the loop. -/
def CompactIo.progress (io : CompactIo) (len k readAt writeAt : Nat) : Nat × Bool :=
  let chunk := min (min compactChunk (len - readAt)) ((io.pread k compactChunk).getD 0)
  if _hchunk : chunk = 0 then (writeAt, true)
  else
    let written := min chunk ((io.pwrite k chunk).getD 0)
    if written = chunk then io.progress len (k + 1) (readAt + chunk) (writeAt + chunk)
    else (writeAt + written, false)
termination_by len - readAt

/-- A read returns what there is at the offset, at most what was asked for and what the call gives. -/
theorem CompactIo.length_chunk (io : CompactIo) (k : Nat) (content : Bytes) (readAt : Nat) :
    (io.chunk k content readAt).length =
      min (min compactChunk (content.length - readAt)) ((io.pread k compactChunk).getD 0) := by
  rw [CompactIo.chunk, List.length_take, List.length_take, List.length_drop]
  omega

theorem CompactIo.length_written (io : CompactIo) (k : Nat) (chunk : Bytes) :
    (io.written k chunk).length = min chunk.length ((io.pwrite k chunk.length).getD 0) := by
  rw [CompactIo.written, List.length_take, Nat.min_comm]

/-- What is written of the next chunk is moved. -/
theorem CompactIo.overwrite_written (io : CompactIo) {f : Bytes} {c w : Nat} (hw : c + w ≤ f.length) (k : Nat) :
    overwrite (shifted f c w) w (io.written k (io.chunk k (shifted f c w) (c + w))) =
      shifted f c (w + (io.written k (io.chunk k (shifted f c w) (c + w))).length) := by
  generalize hd : io.written k (io.chunk k (shifted f c w) (c + w)) = d
  have hprefix : d <+: (shifted f c w).drop (c + w) := by
    rw [← hd]
    exact ((List.take_prefix _ _).trans (List.take_prefix _ _)).trans (List.take_prefix _ _)
  have hpart : d = ((shifted f c w).drop (c + w)).take d.length := List.prefix_iff_eq_take.mp hprefix
  have hmove := overwrite_shifted hw d.length
  rwa [← hpart] at hmove

/-- An empty chunk ends the loop with everything before it moved. -/
theorem CompactIo.progress_ended {io : CompactIo} {len k readAt writeAt : Nat}
    (hchunk : min (min compactChunk (len - readAt)) ((io.pread k compactChunk).getD 0) = 0) :
    io.progress len k readAt writeAt = (writeAt, true) := by
  rw [CompactIo.progress]
  exact dif_pos hchunk

/-- A chunk that is written whole is moved, and one that is not ends the loop. -/
theorem CompactIo.progress_moved {io : CompactIo} {len k readAt writeAt chunk : Nat}
    (hchunk : min (min compactChunk (len - readAt)) ((io.pread k compactChunk).getD 0) = chunk)
    (hpos : chunk ≠ 0) : io.progress len k readAt writeAt =
      if min chunk ((io.pwrite k chunk).getD 0) = chunk then
        io.progress len (k + 1) (readAt + chunk) (writeAt + chunk)
      else (writeAt + min chunk ((io.pwrite k chunk).getD 0), false) := by
  subst hchunk
  rw [CompactIo.progress]
  exact dif_neg hpos

/-- **The loop moves what the calls move**, whatever the file holds. -/
theorem crashCompactLoop_eq (io : CompactIo) (f : Bytes) (c : Nat) {k w : Nat} {content : Bytes}
    {readAt : Nat} (hcontent : content = shifted f c w) (hread : readAt = c + w) (hw : c + w ≤ f.length)
    (h : w ≤ readAt) :
    c + (io.progress f.length k readAt w).1 ≤ f.length ∧
      crashCompactLoop io k content readAt w h = ⟨shifted f c (io.progress f.length k readAt w).1,
        if (io.progress f.length k readAt w).2 then some (io.progress f.length k readAt w).1 else none⟩ := by
  fun_induction crashCompactLoop io k content readAt w h with
  | case1 k content readAt w h hchunk =>
    subst hcontent hread
    have hlength := io.length_chunk k (shifted f c w) (c + w)
    rw [hchunk, length_shifted hw] at hlength
    rw [CompactIo.progress_ended hlength.symm]
    exact ⟨hw, rfl⟩
  | case2 k content readAt w h hchunk _ _ _ _ hwhole ih =>
    -- Invariant: the first `w` bytes are those from `c` on, and the rest is as it was.
    subst hcontent hread
    have hlength := io.length_chunk k (shifted f c w) (c + w)
    have hwritten := io.length_written k (io.chunk k (shifted f c w) (c + w))
    rw [length_shifted hw] at hlength
    rw [hwhole] at hwritten
    have hpos := List.length_pos_of_ne_nil hchunk
    have hmove := io.overwrite_written hw k
    rw [hwhole] at hmove
    rw [CompactIo.progress_moved hlength.symm hpos.ne', if_pos hwritten.symm]
    exact ih hmove (Nat.add_assoc _ _ _) (by omega)
  | case3 k content readAt w h hchunk _ _ _ _ hshort =>
    -- A short write: the part that was written stays, and the function gives up.
    subst hcontent hread
    have hlength := io.length_chunk k (shifted f c w) (c + w)
    have hwritten := io.length_written k (io.chunk k (shifted f c w) (c + w))
    rw [length_shifted hw] at hlength
    have hpos := List.length_pos_of_ne_nil hchunk
    have hmove := io.overwrite_written hw k
    have hle := io.length_written_le k (io.chunk k (shifted f c w) (c + w))
    rw [hwritten] at hshort
    rw [CompactIo.progress_moved hlength.symm hpos.ne', if_neg hshort, ← hwritten, hmove]
    exact ⟨by omega, rfl⟩

/-- What compacting leaves: a file cut off at what has been moved, or one that is as long as before. -/
theorem crashCompact_eq (io : CompactIo) (f : Bytes) {c : Nat} (hc : c ≤ f.length) (hopens : io.opens = true) :
    c + (io.progress f.length 0 c 0).1 ≤ f.length ∧
      crashCompact io f c =
        if (io.progress f.length 0 c 0).2 && io.ftruncates then
          (f.drop c).take (io.progress f.length 0 c 0).1
        else shifted f c (io.progress f.length 0 c 0).1 := by
  obtain ⟨hle, hloop⟩ := crashCompactLoop_eq io f c (shifted_zero f c).symm (Nat.add_zero c).symm
    (by omega : c + 0 ≤ f.length) (Nat.zero_le c) (k := 0)
  refine ⟨hle, ?_⟩
  -- The file is truncated only behind a finished loop, and to what was moved.
  rw [crashCompact, if_pos hopens]
  simp only [hloop]
  cases (io.progress f.length 0 c 0).2 with
  | false => rfl
  | true =>
    cases io.ftruncates with
    | false => rfl
    | true =>
      simp only [if_true, Bool.and_self, shifted]
      rw [List.take_left' (length_moved hle)]

/-! ## When nothing is lost -/

/-- There is room for a record of which only the beginning has been moved, and which has lost its
beginning where it was. The magic begins and ends with the same byte, so a first byte that is written
over with the last of the magic is none the worse. -/
def Tears (len c moved : Nat) : Prop :=
  ∃ i n, 0 < c ∧ c ≤ i ∧ i < moved ∧ c + moved < i + n ∧ i + n ≤ len ∧ headerProbeSize ≤ n ∧ n ≤ 65535 ∧
    ¬(c = 3 ∧ moved = i + 1)

/-- The answers of the calls do no harm to a file of `len` bytes, of which `c` are discarded: the file is
cut off only when all has been moved, or when there is no record to lose; and where it is left long, no
record can be torn. -/
def CompactIo.Harmless (io : CompactIo) (len c : Nat) : Prop :=
  io.opens = true →
    if (io.progress len 0 c 0).2 && io.ftruncates then
      c + (io.progress len 0 c 0).1 = len ∨ len < c + headerProbeSize
    else ¬Tears len c (io.progress len 0 c 0).1

/-- The first and the last byte of the magic. -/
theorem IsRecord.magic_ends {record : Bytes} (h : IsRecord record) : record[0]? = record[3]? := by
  have hlength : 8 ≤ record.length := h.length_bounds.1
  have hmagic := h.magic
  have h0 := u8At_lt record 0
  have h1 := u8At_lt record (0 + 1)
  have h2 := u8At_lt record (0 + 2)
  have h3 := u8At_lt record (0 + 2 + 1)
  unfold recordMagic u32At u16At crashMagic at hmagic
  have hsame : u8At record 0 = u8At record (0 + 2 + 1) := by omega
  have hfirst : record[0]? = some record[0] := List.getElem?_eq_getElem (by omega)
  have hlast : record[3]? = some record[3] := List.getElem?_eq_getElem (by omega)
  rw [u8At, u8At, List.getD_eq_getElem?_getD, List.getD_eq_getElem?_getD, hfirst, hlast] at hsame
  rw [hfirst, hlast]
  exact congrArg some (UInt8.toNat_inj.mp hsame)

/-- A file that is left long keeps the records that are not torn. -/
theorem keepsRecords_shifted {f : Bytes} {c moved : Nat} (hle : c + moved ≤ f.length)
    (hwhole : ¬Tears f.length c moved) : KeepsRecords f c (shifted f c moved) := by
  intro i n hi hend hrecord
  have hlength : ((f.drop i).take n).length = n := by
    rw [List.length_take, List.length_drop]; omega
  have hbounds := hrecord.length_bounds
  rw [hlength] at hbounds
  -- A record is moved, or lies behind all that was moved, or is in the part written over.
  by_cases hmoved : i + n ≤ c + moved
  · exact (infix_moved hi hmoved).trans (List.prefix_append _ _).isInfix
  · by_cases huntouched : moved ≤ i
    · exact (infix_untouched huntouched).trans (List.suffix_append _ _).isInfix
    -- In the part written over, a record survives when shifting it changes none of its bytes.
    · apply infix_periodic hle
      intro j hij hj
      by_cases hzero : c = 0
      · rw [hzero, Nat.add_zero]
      · -- Only the first byte has been written over, with the last of the magic.
        have hthree : c = 3 ∧ moved = i + 1 := by
          by_contra hnot
          exact hwhole ⟨i, n, by omega, hi, by omega, by omega, hend, hbounds.1, hbounds.2, hnot⟩
        obtain ⟨rfl, rfl⟩ := hthree
        obtain rfl : j = i := by omega
        have hends := hrecord.magic_ends
        have hlong : 3 < n := by
          have hmin := hbounds.1
          unfold headerProbeSize at hmin
          omega
        rw [List.getElem?_take_of_lt (by omega), List.getElem?_take_of_lt hlong, List.getElem?_drop,
          List.getElem?_drop] at hends
        exact hends.symm

/-- A compaction whose calls fail harmlessly keeps every record behind the consumed ones. -/
theorem keepsRecords_of_harmless {io : CompactIo} {f : Bytes} {c : Nat} (hc : c ≤ f.length)
    (h : io.Harmless f.length c) : KeepsRecords f c (crashCompact io f c) := by
  cases hopens : io.opens with
  | false =>
    intro i n _ _ _
    rw [crashCompact, hopens, if_neg Bool.false_ne_true]
    exact (List.take_prefix n _).isInfix.trans (List.drop_suffix i f).isInfix
  | true =>
    obtain ⟨hle, heq⟩ := crashCompact_eq io f hc hopens
    have hcut := h hopens
    rw [heq]
    cases hends : (io.progress f.length 0 c 0).2 && io.ftruncates with
    | false =>
      -- Not truncated: the moved bytes are written over the front of the file.
      rw [hends] at hcut
      simp only [Bool.false_eq_true, if_false] at hcut ⊢
      exact keepsRecords_shifted hle hcut
    | true =>
      rw [hends] at hcut
      -- Truncated: the file is what was moved, and records in the rest of it are lost.
      simp only [if_true] at hcut ⊢
      intro i n hi hend hrecord
      rcases hcut with hall | hnone
      · exact infix_moved hi (by omega)
      · have hlength : ((f.drop i).take n).length = n := by
          rw [List.length_take, List.length_drop]; omega
        have hbounds := hrecord.length_bounds.1
        omega

/-! ## Files that lose a record -/

/-- The beginning of a record of another version: its header, and all of its body but the last byte. -/
def foreignFront (n : Nat) : Bytes :=
  if n = headerProbeSize then [0x43, 0x58, 0x42, 0x43, 1, 1, 8]
  else [0x43, 0x58, 0x42, 0x43, 1, 1, .ofNat n, .ofNat (n / 256)] ++ List.replicate (n - 9) 1

/-- The front lacks exactly the record's last byte. -/
theorem length_foreignFront {n : Nat} (hn : headerProbeSize ≤ n) : (foreignFront n).length + 1 = n := by
  unfold foreignFront
  split
  next heq => exact heq.symm
  next hne =>
    unfold headerProbeSize at hn hne
    simp only [List.length_append, List.length_cons, List.length_nil, List.length_replicate]
    omega

/-- A byte that is neither of two, nor one of those that every record starts with. -/
theorem exists_lastByte (a b : UInt8) :
    ∃ last : UInt8, last ≠ a ∧ last ≠ b ∧ last ≠ 1 ∧ last ≠ 0x43 ∧ last ≠ 0x58 ∧ last ≠ 0x42 := by
  by_cases h : (255 : UInt8) = a ∨ (255 : UInt8) = b
  · by_cases h' : (254 : UInt8) = a ∨ (254 : UInt8) = b
    · refine ⟨253, ?_, ?_, by decide, by decide, by decide, by decide⟩
      · rintro rfl
        rcases h with h | rfl
        · exact absurd h (by decide)
        · rcases h' with h' | h' <;> exact absurd h' (by decide)
      · rintro rfl
        rcases h with rfl | h
        · rcases h' with h' | h' <;> exact absurd h' (by decide)
        · exact absurd h (by decide)
    · exact ⟨254, fun h => h' (.inl h), fun h => h' (.inr h), by decide, by decide, by decide, by decide⟩
  · exact ⟨255, fun h' => h (.inl h'), fun h' => h (.inr h'), by decide, by decide, by decide, by decide⟩

/-- It can be completed to a record whose last byte stands nowhere else in it. -/
theorem exists_foreignRecord {n : Nat} (hn : headerProbeSize ≤ n) (hle : n ≤ 65535) :
    ∃ last, IsRecord (foreignFront n ++ [last]) ∧ last ∉ foreignFront n ∧ last ≠ 1 := by
  -- The shortest record is all header. A longer one has its length in two bytes and is filled up with ones.
  by_cases heq : n = headerProbeSize
  · subst heq
    refine ⟨0, ?_, by decide, by decide⟩
    right
    decide
  · obtain ⟨last, hlow, hhigh, hone, hmagic⟩ := exists_lastByte (.ofNat n) (.ofNat (n / 256))
    refine ⟨last, ?_, ?_, hone⟩
    · have hlength := length_foreignFront hn
      have hfront : foreignFront n =
          [0x43, 0x58, 0x42, 0x43, 1, 1, .ofNat n, .ofNat (n / 256)] ++ List.replicate (n - 9) 1 := if_neg heq
      have hlen : recordLen (foreignFront n ++ [last]) = n := by
        rw [hfront]
        show (UInt8.ofNat n).toNat + 256 * (UInt8.ofNat (n / 256)).toNat = n
        simp only [UInt8.toNat_ofNat']
        omega
      have hsize : (foreignFront n ++ [last]).length = n := by
        rw [List.length_append, List.length_singleton, hlength]
      right
      refine ⟨?_, hlen.trans hsize.symm⟩
      -- The header is that of a foreign version, and the length is the record's own.
      have hfirst : recordMagic (foreignFront n ++ [last]) = crashMagic := by
        simp [hfront, recordMagic, u32At, u16At, u8At, crashMagic]
      have hversion : recordFormatVersion (foreignFront n ++ [last]) = 257 := by
        simp [hfront, recordFormatVersion, u16At, u8At]
      rw [crashRecordForeignVersion, hfirst, hversion, hlen, hsize]
      simpa [crashFormatVersion] using hn
    · simp [foreignFront, heq, hlow, hhigh, hone, hmagic]

/-- A file with one record in it. -/
def fileWith (i : Nat) (record : Bytes) (rest : Nat) : Bytes :=
  List.replicate i 1 ++ record ++ List.replicate rest 1

section fileWith
variable {i n rest : Nat} {last : UInt8}

theorem drop_fileWith (record : Bytes) : ((fileWith i record rest).drop i).take record.length = record := by
  rw [fileWith, List.append_assoc, List.drop_left' List.length_replicate, List.take_left]

/-- Where the record stands, its file has the bytes of the record. -/
theorem getElem?_fileWith (hn : headerProbeSize ≤ n) {t : Nat} (ht : t + 1 < n) :
    (fileWith i (foreignFront n ++ [last]) rest)[i + t]? = (foreignFront n)[t]? := by
  have hlength := length_foreignFront hn
  rw [fileWith, List.append_assoc, List.getElem?_append_right (by simp), List.length_replicate,
    Nat.add_sub_cancel_left, List.append_assoc, List.getElem?_append_left (by omega)]

/-- The last byte of the record stands nowhere else in the file. -/
theorem lastByte_fileWith (hn : headerProbeSize ≤ n) (hlast : last ∉ foreignFront n) (hone : last ≠ 1)
    {j : Nat} (hj : (fileWith i (foreignFront n ++ [last]) rest)[j]? = some last) : j = i + n - 1 := by
  have hlength := length_foreignFront hn
  -- The last byte is in neither part before the record's end.
  by_cases hbefore : j < i + (foreignFront n).length
  · exfalso
    have hfront : (fileWith i (foreignFront n ++ [last]) rest)[j]? =
        (List.replicate i 1 ++ foreignFront n)[j]? := by
      rw [fileWith, ← List.append_assoc, List.append_assoc, List.getElem?_append_left (by simp; omega)]
    rw [hfront] at hj
    rcases List.mem_append.mp (List.mem_of_getElem? hj) with hmem | hmem
    · exact hone (List.eq_of_mem_replicate hmem)
    · exact hlast hmem
  · by_contra hne
    have htail : (fileWith i (foreignFront n ++ [last]) rest)[j]? =
        (List.replicate rest (1 : UInt8))[j - (i + n)]? := by
      rw [fileWith, List.getElem?_append_right (by simp; omega)]
      congr 1
      simp
      omega
    rw [htail] at hj
    exact hone (List.eq_of_mem_replicate (List.mem_of_getElem? hj))

end fileWith

/-- What the front of a record looks like from `c` bytes on. -/
theorem foreignFront_differs {c n : Nat} (hpos : 0 < c) (hn : n = max headerProbeSize (c + 2)) :
    ∃ t, t + c + 1 < n ∧ (c ≠ 3 → t = 0) ∧ (c = 3 → t = 1) ∧ (foreignFront n)[t + c]? ≠ (foreignFront n)[t]? := by
  -- Up to six bytes the shift moves the header onto itself, and each case is looked at.
  by_cases hsmall : c ≤ 6
  · obtain rfl : n = headerProbeSize := by
      rw [hn]
      unfold headerProbeSize
      omega
    by_cases hthree : c = 3
    · subst hthree
      exact ⟨1, by decide, by decide, by decide, by decide⟩
    · refine ⟨0, by unfold headerProbeSize; omega, fun _ => rfl, fun h => absurd h hthree, ?_⟩
      have hcases : c = 1 ∨ c = 2 ∨ c = 4 ∨ c = 5 ∨ c = 6 := by omega
      rcases hcases with rfl | rfl | rfl | rfl | rfl <;> decide
  -- Beyond that the record is two bytes longer than the shift, and its filling meets the magic.
  · obtain rfl : n = c + 2 := by
      rw [hn]
      unfold headerProbeSize
      omega
    have hlarge : c + 2 ≠ headerProbeSize := by
      unfold headerProbeSize
      omega
    refine ⟨0, by omega, fun _ => rfl, by omega, ?_⟩
    rw [foreignFront, if_neg hlarge, Nat.zero_add]
    by_cases hseven : c = 7
    · subst hseven
      decide
    · rw [List.getElem?_append_right (by simp; omega), List.getElem?_replicate_of_lt (by simp; omega)]
      exact nofun

/-- Where such a record tears. -/
theorem Tears.exists_start {len c moved : Nat} (h : Tears len c moved) :
    0 < c ∧ max headerProbeSize (c + 2) ≤ 65535 ∧ ∃ i, c ≤ i ∧ (c ≠ 3 → i < moved) ∧ (c = 3 → i + 1 < moved) ∧
      c + moved < i + max headerProbeSize (c + 2) ∧ i + max headerProbeSize (c + 2) ≤ len := by
  obtain ⟨i, n, hpos, hi, hmoved, hcross, hend, hmin, hmax, hmagic⟩ := h
  unfold headerProbeSize at hmin ⊢
  refine ⟨hpos, by omega, ?_⟩
  by_cases hthree : c = 3
  · exact ⟨min (moved - 2) (i + n - 8), by omega, by omega, by omega, by omega, by omega⟩
  · by_cases hsmall : c ≤ 6
    · exact ⟨min (moved - 1) (i + n - 8), by omega, by omega, by omega, by omega, by omega⟩
    · exact ⟨moved - 1, by omega, by omega, by omega, by omega, by omega⟩

/-- **A file that is left long can have a torn record.** -/
theorem not_keepsRecords_shifted {len c moved : Nat} (hle : c + moved ≤ len) (h : Tears len c moved) :
    ∃ f : Bytes, f.length = len ∧ ¬KeepsRecords f c (shifted f c moved) := by
  obtain ⟨hpos, hmax, i, hi, hmoved, hmoved', hcross, hend⟩ := h.exists_start
  generalize hn : max headerProbeSize (c + 2) = n at hmax hcross hend
  have hmin : headerProbeSize ≤ n := hn ▸ Nat.le_max_left _ _
  -- A record as long as the shift allows, put where the moved bytes end within it.
  obtain ⟨last, hrecord, hlast, hone⟩ := exists_foreignRecord hmin hmax
  obtain ⟨t, ht, hzero, hsecond, hdiffers⟩ := foreignFront_differs hpos hn.symm
  have hsize : (foreignFront n ++ [last]).length = n := by
    rw [List.length_append, List.length_singleton, length_foreignFront hmin]
  refine ⟨fileWith i (foreignFront n ++ [last]) (len - (i + n)), ?_, ?_⟩
  · rw [fileWith, List.length_append, List.length_append, List.length_replicate, List.length_replicate, hsize]
    omega
  · have hlength : (fileWith i (foreignFront n ++ [last]) (len - (i + n))).length = len := by
      rw [fileWith, List.length_append, List.length_append, List.length_replicate, List.length_replicate, hsize]
      omega
    intro hkeeps
    have hdrop := @drop_fileWith i (len - (i + n)) (foreignFront n ++ [last])
    rw [hsize] at hdrop
    have hkept := hkeeps i n hi (by omega) (by rw [hdrop]; exact hrecord)
    -- Its last byte occurs nowhere else, so the record could only survive at its own place.
    have hfinal : (fileWith i (foreignFront n ++ [last]) (len - (i + n)))[i + n - 1]? = some last := by
      have hget : _ = (foreignFront n ++ [last])[n - 1]? := congrArg (fun b => b[n - 1]?) hdrop
      rw [List.getElem?_take_of_lt (by unfold headerProbeSize at hmin; omega), List.getElem?_drop,
        show i + (n - 1) = i + n - 1 by unfold headerProbeSize at hmin; omega] at hget
      rw [hget, List.getElem?_append_right (by have := length_foreignFront hmin; omega)]
      have := length_foreignFront hmin
      rw [show n - 1 - (foreignFront n).length = 0 by omega]
      rfl
    refine not_infix_shifted (by omega) hcross (by omega) ?_ (Nat.le_add_right i t) ?_ ?_ hkept
    · intro j hj
      rw [hfinal] at hj
      exact lastByte_fileWith hmin hlast hone hj
    -- The record starts at the place where its first bytes differ, which depends on the shift.
    · by_cases hthree : c = 3
      · have := hsecond hthree
        have := hmoved' hthree
        omega
      · have := hzero hthree
        have := hmoved hthree
        omega
    · rw [Nat.add_assoc, getElem?_fileWith hmin (by omega), getElem?_fileWith hmin (by omega)]
      exact hdiffers

/-- **A file that is cut off too early can have lost a record.** -/
theorem not_keepsRecords_cut {len c moved : Nat} (hmoved : c + moved < len) (hroom : c + headerProbeSize ≤ len) :
    ∃ f : Bytes, f.length = len ∧ ¬KeepsRecords f c ((f.drop c).take moved) := by
  -- The smallest record, at the very end of the file.
  obtain ⟨last, hrecord, hlast, hone⟩ := exists_foreignRecord (Nat.le_refl headerProbeSize) (by decide)
  have hsize : (foreignFront headerProbeSize ++ [last]).length = headerProbeSize := by
    rw [List.length_append, List.length_singleton, length_foreignFront (Nat.le_refl _)]
  have hlength : (fileWith (len - headerProbeSize) (foreignFront headerProbeSize ++ [last]) 0).length = len := by
    rw [fileWith, List.length_append, List.length_append, List.length_replicate, List.length_replicate, hsize]
    omega
  refine ⟨_, hlength, ?_⟩
  intro hkeeps
  have hdrop := @drop_fileWith (len - headerProbeSize) 0 (foreignFront headerProbeSize ++ [last])
  rw [hsize] at hdrop
  have hkept := hkeeps (len - headerProbeSize) headerProbeSize (by omega) (by omega) (by rw [hdrop]; exact hrecord)
  rw [hdrop] at hkept
  -- The last byte of the record is beyond what is left.
  have hmem : last ∈ (fileWith (len - headerProbeSize) (foreignFront headerProbeSize ++ [last]) 0).take (c + moved) := by
    rw [List.take_add]
    have hin := hkept.subset (List.mem_append_right _ (List.mem_singleton_self last))
    exact List.mem_append_right _ hin
  obtain ⟨j, hj⟩ := List.mem_iff_getElem?.mp hmem
  rw [List.getElem?_take] at hj
  split at hj
  · have := lastByte_fileWith (Nat.le_refl _) hlast hone hj
    unfold headerProbeSize at this hroom
    omega
  · cases hj

/-- **Compacting keeps every record of every file**, exactly when the answers of the calls do no harm. -/
theorem crashCompact_keeps_iff (io : CompactIo) {len c : Nat} (hc : c ≤ len) :
    (∀ content : Bytes, content.length = len → KeepsRecords content c (crashCompact io content c)) ↔
      io.Harmless len c := by
  constructor
  -- Each way to fail the condition gives a file that loses a record.
  · intro hkeeps hopens
    have hmoved : c + (io.progress len 0 c 0).1 ≤ len := by
      have hle := (crashCompact_eq io (List.replicate len 0) (c := c) (by simpa using hc) hopens).1
      simpa using hle
    cases hends : (io.progress len 0 c 0).2 && io.ftruncates with
    | false =>
      simp only [Bool.false_eq_true, if_false]
      intro htears
      obtain ⟨f, hlength, hlost⟩ := not_keepsRecords_shifted hmoved htears
      have hkept := hkeeps f hlength
      rw [(crashCompact_eq io f (hlength ▸ hc) hopens).2, hlength, hends] at hkept
      exact hlost hkept
    | true =>
      simp only [if_true]
      by_contra hnot
      obtain ⟨f, hlength, hlost⟩ :=
        @not_keepsRecords_cut len c (io.progress len 0 c 0).1 (by omega) (by omega)
      have hkept := hkeeps f hlength
      rw [(crashCompact_eq io f (hlength ▸ hc) hopens).2, hlength, hends] at hkept
      exact hlost hkept
  -- Under the condition every file keeps its records.
  · rintro hharmless content rfl
    exact keepsRecords_of_harmless hc hharmless

/-- A `pwrite` that falls short, where the others succeed. -/
def CompactIo.short : CompactIo := { CompactIo.ok with pwrite := fun _ _ => some 1000 }

/-- Of two records one is discarded, and the `pwrite` of the other falls short: it is left where it was. -/
theorem crashCompact_keeps_short :
    CompactIo.short.progress (2 * recordSize) 0 recordSize 0 = (1000, false) ∧
      KeepsRecords (blankRecord.bytes ++ blankRecord.bytes) recordSize
        (crashCompact .short (blankRecord.bytes ++ blankRecord.bytes) recordSize) := by
  have hmoved : CompactIo.short.progress (2 * recordSize) 0 recordSize 0 = (1000, false) := by
    unfold CompactIo.progress
    rfl
  have hlength : (blankRecord.bytes ++ blankRecord.bytes).length = 2 * recordSize := by
    rw [List.length_append, blankRecord.length_eq]
    rfl
  refine ⟨hmoved, (crashCompact_keeps_iff .short (by decide)).mpr (fun _ => ?_) _ hlength⟩
  rw [hmoved]
  -- The moved part ends within the first record, which is not one of those to be kept.
  rintro ⟨i, n, -, hi, hlt, -⟩
  simp only [recordSize] at hi
  omega

/-- A `pread` that fails, between calls that succeed. -/
def CompactIo.readError : CompactIo := { CompactIo.ok with pread := fun _ _ => none }

/-- **A read error empties the file.** Of two records the first is to be discarded; the second is lost. -/
theorem not_keepsRecords_readError : ¬∀ (io : CompactIo) (content : Bytes) (consumed : Nat),
    consumed ≤ content.length → KeepsRecords content consumed (crashCompact io content consumed) := by
  intro hall
  have hsize := blankRecord.length_eq
  have hlength : (blankRecord.bytes ++ blankRecord.bytes).length = recordSize + recordSize := by
    rw [List.length_append, hsize]
  have hsecond : ((blankRecord.bytes ++ blankRecord.bytes).drop recordSize).take recordSize = blankRecord.bytes := by
    rw [List.drop_left' hsize, List.take_of_length_le hsize.le]
  -- The failing read ends the loop like the end of the file would, and the file is truncated to nothing.
  have hempty : crashCompact .readError (blankRecord.bytes ++ blankRecord.bytes) recordSize = [] := by
    obtain ⟨-, heq⟩ := crashCompact_eq .readError (blankRecord.bytes ++ blankRecord.bytes)
      (c := recordSize) (by rw [hlength]; exact Nat.le_add_right _ _) rfl
    rw [heq, CompactIo.progress_ended (Nat.min_zero _)]
    rfl
  have hkept := hall .readError (blankRecord.bytes ++ blankRecord.bytes) recordSize
    (by rw [hlength]; exact Nat.le_add_right _ _) recordSize recordSize (Nat.le_refl _) hlength.ge
    (by rw [hsecond]; exact .inl ⟨hsize, blankRecord.valid⟩)
  rw [hsecond, hempty, List.infix_nil] at hkept
  rw [hkept] at hsize
  cases hsize

end CboxTelemetry.Crash
