import CboxTelemetry.Crash.Record
import CboxTelemetry.Lib.InPlace

/-!
# Compacting a sink

`crashCompact` discards the first `consumed` bytes of a sink by copying the rest down in 8 KiB
chunks and truncating the file. Every `pread`, `pwrite` and `ftruncate` answers for itself, so the
half-moved files that a failing call leaves behind are values of the model too.
-/

namespace CboxTelemetry.Crash

open InPlace

/-- The size of the copy buffer. -/
def compactChunk : Nat := 8192

/-- The answers of the system calls of one `cbox_crash_compact`. The `k`-th `pread` and `pwrite` say
how many of the bytes asked for are transferred, or that the call fails. -/
structure CompactIo where
  opens : Bool
  pread : Nat → Nat → Option Nat
  pwrite : Nat → Nat → Option Nat
  ftruncates : Bool

/-- Every call succeeds and transfers all it was asked for. -/
def CompactIo.ok : CompactIo := ⟨true, fun _ => some, fun _ => some, true⟩

/-- The bytes the `k`-th `pread` yields at `readAt`: none at the end of the file or on an error. -/
def CompactIo.chunk (io : CompactIo) (k : Nat) (content : Bytes) (readAt : Nat) : Bytes :=
  ((content.drop readAt).take compactChunk).take ((io.pread k compactChunk).getD 0)

theorem CompactIo.length_chunk_le (io : CompactIo) (k : Nat) (content : Bytes) (readAt : Nat) :
    (io.chunk k content readAt).length ≤ content.length - readAt := by
  simp only [CompactIo.chunk, List.length_take, List.length_drop]; omega

/-- The bytes the `k`-th `pwrite` gets written of a chunk. -/
def CompactIo.written (io : CompactIo) (k : Nat) (chunk : Bytes) : Bytes :=
  chunk.take ((io.pwrite k chunk.length).getD 0)

theorem CompactIo.length_written_le (io : CompactIo) (k : Nat) (chunk : Bytes) :
    (io.written k chunk).length ≤ chunk.length := by
  rw [CompactIo.written, List.length_take]; omega

/-- How the copy loop ended: at the end of the file (or on a failing `pread`) with `write_at`, or by
an early return out of a `pwrite` that did not write its whole chunk. -/
structure CompactLoopResult where
  content : Bytes
  writeAt : Option Nat
  deriving DecidableEq, Repr

/-- The copy loop of `cbox_crash_compact` from its `k`-th iteration on. -/
def crashCompactLoop (io : CompactIo) (k : Nat) (content : Bytes) (readAt writeAt : Nat)
    (h : writeAt ≤ readAt) : CompactLoopResult :=
  if hchunk : io.chunk k content readAt = [] then ⟨content, some writeAt⟩
  else
    have := io.length_chunk_le k content readAt
    have := List.length_pos_of_ne_nil hchunk
    have := io.length_written_le k (io.chunk k content readAt)
    have := length_overwrite (f := content) (d := io.written k (io.chunk k content readAt))
      (i := writeAt) (by omega)
    if (io.written k (io.chunk k content readAt)).length = (io.chunk k content readAt).length then
      crashCompactLoop io (k + 1) (overwrite content writeAt (io.written k (io.chunk k content readAt)))
        (readAt + (io.chunk k content readAt).length) (writeAt + (io.chunk k content readAt).length)
        (by omega)
    else ⟨overwrite content writeAt (io.written k (io.chunk k content readAt)), none⟩
termination_by content.length - readAt

/-- Discard the first `consumed` bytes of a sink, keeping the rest. -/
def crashCompact (io : CompactIo) (content : Bytes) (consumed : Nat) : Bytes :=
  if io.opens then
    let r := crashCompactLoop io 0 content consumed 0 (Nat.zero_le _)
    match r.writeAt with
    | none => r.content
    -- A failing `ftruncate` leaves the file long.
    | some writeAt => if io.ftruncates then r.content.take writeAt else r.content
  else content

/-! ## No I/O failure -/

theorem CompactIo.chunk_ok (k : Nat) (content : Bytes) (readAt : Nat) :
    CompactIo.ok.chunk k content readAt = (content.drop readAt).take compactChunk := by
  rw [CompactIo.chunk, CompactIo.ok, Option.getD_some, List.take_take, Nat.min_self]

theorem CompactIo.written_ok (k : Nat) (chunk : Bytes) : CompactIo.ok.written k chunk = chunk := by
  rw [CompactIo.written, CompactIo.ok, Option.getD_some, List.take_length]

/-- Whatever has been moved so far, the loop moves the rest of the file. -/
theorem crashCompactLoop_ok (f : Bytes) (c : Nat) {k w : Nat} {content : Bytes} {readAt : Nat}
    (hcontent : content = shifted f c w) (hread : readAt = c + w) (hw : c + w ≤ f.length)
    (h : w ≤ readAt) :
    crashCompactLoop .ok k content readAt w h = ⟨shifted f c (f.length - c), some (f.length - c)⟩ := by
  fun_induction crashCompactLoop .ok k content readAt w h with
  | case1 k content readAt w h hchunk =>
    subst hcontent hread
    -- Nothing is left to read, so everything has been moved.
    have hend : w = f.length - c := by
      rw [CompactIo.chunk_ok, drop_shifted hw (Nat.le_add_left w c)] at hchunk
      have hlen := congrArg List.length hchunk
      simp only [List.length_take, List.length_drop, compactChunk, List.length_nil] at hlen
      omega
    rw [← hend]
  | case2 k content readAt w h hchunk _ _ _ _ hwhole ih =>
    subst hcontent hread
    have hmove := overwrite_shifted hw compactChunk
    have hle := CompactIo.ok.length_chunk_le k (shifted f c w) (c + w)
    rw [length_shifted hw] at hle
    refine ih ?_ (Nat.add_assoc _ _ _) (by omega)
    rw [CompactIo.written_ok, CompactIo.chunk_ok]
    exact hmove
  | case3 k content readAt w h hchunk _ _ _ _ hshort =>
    exact absurd (by rw [CompactIo.written_ok]) hshort

/-- With no I/O failure exactly the consumed bytes are gone. -/
theorem crashCompact_ok (content : Bytes) (consumed : Nat) :
    crashCompact .ok content consumed = content.drop consumed := by
  by_cases hle : consumed ≤ content.length
  · have hloop := crashCompactLoop_ok content consumed (k := 0) (shifted_zero content consumed).symm
      (Nat.add_zero consumed).symm (by omega) (Nat.zero_le consumed)
    rw [crashCompact, if_pos (show CompactIo.ok.opens = true from rfl)]
    simp only [hloop]
    exact (if_pos rfl).trans (take_shifted (by omega))
  · have hchunk : CompactIo.ok.chunk 0 content consumed = [] := by
      rw [CompactIo.chunk_ok, List.drop_eq_nil_of_le (by omega), List.take_nil]
    rw [crashCompact, crashCompactLoop, dif_pos hchunk, List.drop_eq_nil_of_le (by omega)]
    simp [CompactIo.ok]

end CboxTelemetry.Crash
