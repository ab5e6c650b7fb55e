import CboxTelemetry.Lib.OpenAddressing
import CboxTelemetry.Profiler.Arena

/-!
# The hash buckets of the profiler's tables

The frame table and the call tree find their entries the same way: a power of two of buckets, at
least twice the capacity, a hash cut down to a slot by a mask, and linear probing. This module is the
part of `frames.c` and `stacktree.c` that is the same in both.
-/

namespace CboxTelemetry.Profiler

/-- The loop of `cbox_bucket_count`. The bucket count doubles at every turn, so there are no more than
26 of them. -/
def growBuckets (capacity : Nat) : Nat → Nat → Nat
  | 0, buckets => buckets
  | turns + 1, buckets =>
    if buckets < u32 (capacity * 2) ∧ buckets < 2 ^ 30 then growBuckets capacity turns (buckets * 2)
    else buckets

/-- `cbox_bucket_count`. -/
def bucketCount (capacity : Nat) : Nat := growBuckets capacity 26 16

/-- The loop ends because its condition is false, not for want of turns. -/
theorem growBuckets_done (capacity : Nat) {turns buckets : Nat} (h : 2 ^ 30 ≤ buckets * 2 ^ turns) :
    ¬(growBuckets capacity turns buckets < u32 (capacity * 2) ∧
      growBuckets capacity turns buckets < 2 ^ 30) := by
  induction turns generalizing buckets with
  | zero =>
    rintro ⟨-, hlt⟩
    rw [growBuckets] at hlt
    omega
  | succ turns ih =>
    rw [growBuckets]
    split
    · exact ih (by rw [Nat.pow_succ] at h; rw [Nat.mul_assoc, Nat.mul_comm 2]; exact h)
    next hstop => exact hstop

/-- The buckets are a power of two. -/
theorem growBuckets_pow (capacity turns e : Nat) :
    ∃ e', growBuckets capacity turns (2 ^ e) = 2 ^ e' := by
  induction turns generalizing e with
  | zero => exact ⟨e, rfl⟩
  | succ turns ih =>
    rw [growBuckets]
    split
    · rw [← Nat.pow_succ]
      exact ih (e + 1)
    · exact ⟨e, rfl⟩

/-- The largest capacity for which twice the capacity is still covered by buckets. -/
def capacityMax : Nat := 2 ^ 29

/-- The bucket count is a power of two and at least twice the capacity. -/
theorem bucketCount_spec {capacity : Nat} (h : capacity ≤ capacityMax) :
    (∃ e, bucketCount capacity = 2 ^ e) ∧ capacity * 2 ≤ bucketCount capacity := by
  constructor
  · obtain ⟨e, he⟩ := growBuckets_pow capacity 26 4
    exact ⟨e, he⟩
  · have hturns : 2 ^ 30 ≤ 16 * 2 ^ 26 := by decide
    have hdone := growBuckets_done capacity hturns
    have hcap : u32 (capacity * 2) = capacity * 2 := u32_of_lt (by
      unfold capacityMax at h
      omega)
    rw [hcap] at hdone
    unfold bucketCount capacityMax at *
    omega

/-- `(slot + 1) & bucket_mask`. -/
def nextSlot (mask slot : Nat) : Nat := (slot + 1) &&& mask

/-- A table's buckets: there is a power of two of them, and more than there are entries. -/
structure BucketsValid (mask capacity : Nat) : Prop where
  pow : ∃ e, mask + 1 = 2 ^ e
  load : capacity < mask + 1

variable {mask capacity : Nat}

/-- The mask is the remainder by the number of buckets. -/
theorem BucketsValid.and_mask (h : BucketsValid mask capacity) (n : Nat) :
    n &&& mask = n % (mask + 1) := by
  obtain ⟨e, he⟩ := h.pow
  have hmask : mask = 2 ^ e - 1 := by omega
  rw [he, hmask, Nat.and_two_pow_sub_one_eq_mod]

theorem BucketsValid.nextSlot_eq (h : BucketsValid mask capacity) (s : Nat) :
    nextSlot mask s = (s + 1) % (mask + 1) :=
  h.and_mask (s + 1)

/-- A table of buckets that was just sized is valid. -/
theorem bucketsValid_bucketCount (hpos : 0 < capacity) (h : capacity ≤ capacityMax) :
    BucketsValid (bucketCount capacity - 1) capacity := by
  obtain ⟨⟨e, he⟩, hle⟩ := bucketCount_spec h
  have hone : 0 < 2 ^ e := Nat.two_pow_pos e
  have hmask : bucketCount capacity - 1 + 1 = bucketCount capacity := by omega
  exact ⟨⟨e, by rw [hmask, he]⟩, by omega⟩

end CboxTelemetry.Profiler
