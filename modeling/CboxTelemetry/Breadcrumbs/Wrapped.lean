import CboxTelemetry.Breadcrumbs.Ring

/-!
# The turn of the sequence number

A sequence number of zero marks an entry that is being written, and every `2 ^ 32`th push is given just
that one. A snapshot leaves this entry out for as long as it is among the last; before and after, it has
all that it should have (`snapshot_complete_iff`).
-/

namespace CboxTelemetry.Breadcrumbs

open Profiler (u64)
open CrumbRing (published)

/-- The number of entries that a snapshot should have. -/
def CrumbRing.wanted (r : CrumbRing) (pushes max : Nat) : Nat := min pushes (min r.capacity max)

/-- No push among the last `wanted` has a number that is a multiple of `2 ^ 32`. -/
def NoTurn (pushes wanted : Nat) : Prop := pushes < 2 ^ 32 ∨ wanted ≤ pushes % 2 ^ 32

instance (pushes wanted : Nat) : Decidable (NoTurn pushes wanted) :=
  inferInstanceAs (Decidable (pushes < 2 ^ 32 ∨ wanted ≤ pushes % 2 ^ 32))

namespace CrumbRing
variable {r : CrumbRing} {ps : List Push} {max : Nat}

/-- A snapshot without the entries that are numbered zero. -/
theorem snapshot_length_le (h : r.Shape) (max : Nat) : (r.snapshot max).length ≤ r.count max := by
  rw [h.snapshot_eq]
  refine (List.length_filterMap_le _ _).trans ?_
  rw [RingBuffer.window, List.length_map, List.length_range]

theorem count_eq (h : r.Holds ps) (max : Nat) : r.count max = min (min r.capacity (ps.length % 2 ^ 64)) max := by
  rw [count, h.written_eq]
  rfl

/-- The snapshot of a ring that looks at as many entries as it should. -/
theorem Holds.snapshot_filterMap (h : r.Holds ps) (hcount : r.count max = r.wanted ps.length max) :
    r.snapshot max =
      (((crumbs ps).drop (ps.length - r.wanted ps.length max)).map some).filterMap published := by
  have hle : r.count max ≤ ps.length := by
    rw [hcount]
    exact Nat.min_le_left _ _
  have hwindow := h.last.window (r.count_le max) (r.count_le max) (by rw [length_crumbs]; exact hle)
  rw [length_crumbs, ← h.head_eq] at hwindow
  rw [h.toShape.snapshot_eq, hwindow, hcount]

/-- The entries of the last pushes are numbered one after the other. -/
theorem getElem?_drop_crumbs (ps : List Push) (from' i : Nat) :
    ((crumbs ps).drop from')[i]? = ps[from' + i]?.map fun p => p.crumb (.ofNat (from' + i + 1)) := by
  rw [List.getElem?_drop, getElem?_crumbs]

theorem ofNat_eq_zero_iff (n : Nat) : UInt32.ofNat n = 0 ↔ n % 2 ^ 32 = 0 := by
  rw [← UInt32.toNat_inj, UInt32.toNat_ofNat']
  rfl

/-- **What a snapshot has.** It is complete unless the push that is numbered zero is among the last. -/
theorem Holds.snapshot_of_noTurn (h : r.Holds ps) (hturn : NoTurn ps.length (r.wanted ps.length max)) :
    r.snapshot max = (crumbs ps).drop (ps.length - r.wanted ps.length max) := by
  -- Few pushes so that no number has gone round, or the turn lies before the window.
  rcases hturn with hfew | hlate
  · exact h.snapshot_eq hfew max
  · have hcap := h.capacity_le
    have hcount : r.count max = r.wanted ps.length max := by
      rw [count_eq h, wanted]
      rw [wanted] at hlate
      omega
    rw [h.snapshot_filterMap hcount, filterMap_published]
    -- No number in the window is zero.
    intro e he
    obtain ⟨i, hi, rfl⟩ := List.mem_iff_getElem.mp he
    rw [List.length_drop, length_crumbs] at hi
    have hget := getElem?_drop_crumbs ps (ps.length - r.wanted ps.length max) i
    rw [List.getElem?_eq_getElem (by rw [List.length_drop, length_crumbs]; exact hi),
      List.getElem?_eq_getElem (by omega)] at hget
    rw [Option.some.inj hget]
    intro hzero
    have hmod := (ofNat_eq_zero_iff _).mp hzero
    omega

/-- With the push that is numbered zero among the last, an entry is missing. -/
theorem Holds.snapshot_lt (h : r.Holds ps) (hturn : ¬NoTurn ps.length (r.wanted ps.length max)) :
    (r.snapshot max).length < r.wanted ps.length max := by
  rw [NoTurn, not_or, Nat.not_lt, Nat.not_le] at hturn
  obtain ⟨hmany, hlate⟩ := hturn
  have hcap := h.capacity_le
  by_cases hcount : r.count max = r.wanted ps.length max
  · have hwanted : r.wanted ps.length max ≤ ps.length := Nat.min_le_left _ _
    generalize hk : r.wanted ps.length max = k at *
    rw [h.snapshot_filterMap (hcount.trans hk.symm), hk, List.filterMap_map]
    have hindex : k - 1 - ps.length % 2 ^ 32 < ((crumbs ps).drop (ps.length - k)).length := by
      rw [List.length_drop, length_crumbs]
      omega
    -- The push with the number zero, counted from the start of the window.
    have hget := getElem?_drop_crumbs ps (ps.length - k) (k - 1 - ps.length % 2 ^ 32)
    have hnumber : ps.length - k + (k - 1 - ps.length % 2 ^ 32) + 1 = ps.length - ps.length % 2 ^ 32 := by omega
    rw [hnumber, List.getElem?_eq_getElem hindex, List.getElem?_eq_getElem (by omega), Option.map_some] at hget
    have hzero : ((crumbs ps).drop (ps.length - k))[k - 1 - ps.length % 2 ^ 32].seq = 0 := by
      rw [Option.some.inj hget]
      exact (ofNat_eq_zero_iff _).mpr (by omega)
    have hlength : ((crumbs ps).drop (ps.length - k)).length = k := by
      rw [List.length_drop, length_crumbs]
      omega
    -- That push is left out, so the snapshot is shorter than the window.
    have hshorter := (List.length_filterMap_lt_length_iff_exists (f := published ∘ some)).mpr
      ⟨_, List.getElem_mem hindex, published_retracted hzero⟩
    rwa [hlength] at hshorter
  · refine Nat.lt_of_le_of_lt (snapshot_length_le h.toShape max) ?_
    rw [count_eq h, wanted] at hcount ⊢
    omega

/-- **A snapshot is complete if and only if no push among the last is numbered zero.** -/
theorem Holds.snapshot_complete_iff (h : r.Holds ps) :
    (r.snapshot max).length = r.wanted ps.length max ↔ NoTurn ps.length (r.wanted ps.length max) := by
  constructor
  · intro hlength
    by_contra hturn
    exact absurd hlength (h.snapshot_lt hturn).ne
  · intro hturn
    rw [h.snapshot_of_noTurn hturn, List.length_drop, length_crumbs]
    have hwanted : r.wanted ps.length max ≤ ps.length := Nat.min_le_left _ _
    omega

end CrumbRing

end CboxTelemetry.Breadcrumbs
