import CboxTelemetry.Crash.Record
import CboxTelemetry.Lib.RingBuffer
import CboxTelemetry.Profiler.Arena

/-!
# The breadcrumb ring

The ring keeps the last operations for the crash record. A push is a sequence of stores to the slot at
`head` and to the ring itself, in program order (`pushStores`), because a crash can land between any two
of them. Here is what a whole push does (`push_eq`) and what a snapshot returns between pushes
(`snapshot_quiescent`); the points in between are in `Interrupted`.
-/

namespace CboxTelemetry.Breadcrumbs

open Crash (Crumb crumbLabelMax)
open Profiler (u32 u64 u64_of_lt)
open RingBuffer (HoldsLast)

/-! ## The ring -/

/-- `cbox_crumb_ring`. A ring without entries has an empty list of them. -/
structure CrumbRing where
  entries : List Crumb
  capacity : Nat
  mask : Nat
  head : Nat
  seq : UInt32
  written : Nat

/-- An entry of `calloc`. -/
def blankCrumb : Crumb := ⟨0, 0, 0, 0, 0, Vector.replicate 48 0⟩

/-- The loop of `cbox_round_pow2`. The result doubles at every turn, so there are no more than 16 of
them. -/
def growCapacity (value : Nat) : Nat → Nat → Nat
  | 0, result => result
  | turns + 1, result =>
    if result < value ∧ result < 2 ^ 20 then growCapacity value turns (result * 2) else result

/-- `cbox_round_pow2`. -/
def roundPow2 (value : Nat) : Nat := growCapacity value 16 16

namespace CrumbRing

/-- A ring that `memset` has cleared. -/
def cleared : CrumbRing := ⟨[], 0, 0, 0, 0, 0⟩

/-- `cbox_crumbs_init`, with the outcome of `calloc`. -/
def init (capacity : Nat) (calloc : Bool) : Bool × CrumbRing :=
  if capacity = 0 then (false, cleared)
  else if !calloc then (false, cleared)
  else
    let capacity := roundPow2 capacity
    (true, ⟨List.replicate capacity blankCrumb, capacity, capacity - 1, 0, 0, 0⟩)

/-- `cbox_crumbs_reset`. -/
def reset (r : CrumbRing) : CrumbRing :=
  if r.entries = [] then r
  else { r with entries := List.replicate r.capacity blankCrumb, head := 0, seq := 0, written := 0 }

end CrumbRing

/-! ## Pushing -/

/-- The arguments of `cbox_crumbs_push`. A label that is `NULL` is `none`. -/
structure Push where
  type : UInt8
  flags : UInt8
  label : Option Bytes
  nowNs : UInt64

/-- The label as it is cut. -/
def Push.cutLabel (p : Push) : Bytes := (p.label.getD []).take crumbLabelMax

/-- The label as it is stored: padded with zeros. -/
def Push.padLabel (p : Push) : Vector UInt8 48 := Vector.ofFn fun i => p.cutLabel.getD i 0

/-- The entry that a push leaves, with its sequence number. -/
def Push.crumb (p : Push) (seq : UInt32) : Crumb where
  tsNs := p.nowNs
  seq := seq
  type := p.type
  flags := p.flags
  labelLen := .ofNat p.cutLabel.length
  label := p.padLabel

/-- One store of a push. -/
inductive Store
  | retract
  | tsNs
  | type
  | flags
  | labelLen
  | label (i : Fin 48)
  | ringSeq
  | publish
  | head
  | written

/-- The stores to the fields of the entry; `memcpy` and `memset` go byte by byte. -/
def fieldStores : List Store :=
  [.tsNs, .type, .flags, .labelLen] ++ (List.finRange 48).map .label

/-- The stores of a push in program order. -/
def pushStores : List Store :=
  .retract :: fieldStores ++ [.ringSeq, .publish, .head, .written]

namespace CrumbRing

/-- A store to the entry at `head`. -/
def setEntry (r : CrumbRing) (f : Crumb → Crumb) : CrumbRing :=
  { r with entries := r.entries.modify r.head f }

/-- The effect of one store. -/
def store (p : Push) (r : CrumbRing) : Store → CrumbRing
  | .retract => r.setEntry fun e => { e with seq := 0 }
  | .tsNs => r.setEntry fun e => { e with tsNs := p.nowNs }
  | .type => r.setEntry fun e => { e with type := p.type }
  | .flags => r.setEntry fun e => { e with flags := p.flags }
  | .labelLen => r.setEntry fun e => { e with labelLen := .ofNat p.cutLabel.length }
  | .label i => r.setEntry fun e => { e with label := e.label.set i p.padLabel[i] }
  | .ringSeq => { r with seq := r.seq + 1 }
  | .publish => r.setEntry fun e => { e with seq := r.seq }
  | .head => { r with head := u32 (r.head + 1) &&& r.mask }
  | .written => { r with written := u64 (r.written + 1) }

/-- The ring after the first `k` stores of a push. -/
def interrupted (r : CrumbRing) (p : Push) (k : Nat) : CrumbRing :=
  (pushStores.take k).foldl (store p) r

/-- `cbox_crumbs_push`. -/
def push (r : CrumbRing) (p : Push) : CrumbRing :=
  if r.entries = [] then r else pushStores.foldl (store p) r

/-- The entries that `cbox_crumbs_snapshot` copies. The thread that pushes is the one that is
interrupted, so nothing changes while it reads, and it finds every sequence number as it was. -/
def snapshot (r : CrumbRing) (max : Nat) : List Crumb :=
  if r.entries = [] ∨ max = 0 then []
  else
    let available := if r.capacity < r.written then r.capacity else r.written
    let count := if available < max then available else max
    (List.range count).filterMap fun i =>
      match r.entries[u32 (r.head + r.capacity + (2 ^ 32 - count) + i) &&& r.mask]? with
      | some e => if e.seq = 0 then none else some e
      | none => none

end CrumbRing

/-! ## Capacities -/

/-- Growing a power of two gives a power of two. -/
theorem growCapacity_pow (value turns e : Nat) :
    ∃ e', e ≤ e' ∧ e' ≤ e + turns ∧ growCapacity value turns (2 ^ e) = 2 ^ e' := by
  induction turns generalizing e with
  | zero => exact ⟨e, Nat.le_refl _, Nat.le_refl _, rfl⟩
  | succ turns ih =>
    rw [growCapacity]
    split
    · rw [← Nat.pow_succ]
      obtain ⟨e', hle, hturns, heq⟩ := ih (e + 1)
      exact ⟨e', by omega, by omega, heq⟩
    · exact ⟨e, Nat.le_refl _, Nat.le_add_right _ _, rfl⟩

/-- Capacities are powers of two from 16 to 2 ^ 20. -/
theorem roundPow2_pow (value : Nat) : ∃ e, 4 ≤ e ∧ e ≤ 20 ∧ roundPow2 value = 2 ^ e := by
  obtain ⟨e, hle, hturns, heq⟩ := growCapacity_pow value 16 4
  exact ⟨e, hle, hturns, heq⟩

/-! ## What a push does -/

namespace CrumbRing
variable {r : CrumbRing} {p : Push}

/-- Two changes of one entry are one change. -/
theorem setEntry_setEntry (r : CrumbRing) (f g : Crumb → Crumb) :
    (r.setEntry f).setEntry g = r.setEntry (g ∘ f) := by
  unfold setEntry
  simp only [List.modify_modify_eq]

/-- Copying a vector index by index: an index that has been copied, or was the same before, is the same. -/
theorem foldl_set_get {n : Nat} (w : Vector UInt8 n) (l : List (Fin n)) (v : Vector UInt8 n) (j : Fin n)
    (hcopied : j ∈ l ∨ v[j] = w[j]) : (l.foldl (fun v i => v.set i w[i]) v)[j] = w[j] := by
  induction l generalizing v with
  | nil =>
    rcases hcopied with hmem | hsame
    · cases hmem
    · exact hsame
  | cons i l ih =>
    rw [List.foldl_cons]
    apply ih
    -- The byte copied now, or another one.
    by_cases hij : i = j
    · subst hij
      exact .inr (by simp)
    · have hne : (i : Nat) ≠ j := fun h => hij (Fin.ext h)
      rcases hcopied with hmem | hsame
      · exact .inl ((List.mem_cons.mp hmem).resolve_left fun h => hij h.symm)
      · exact .inr (by simpa [hne] using hsame)

/-- Copying every byte of a label copies the label. -/
theorem foldl_set_finRange {n : Nat} (w v : Vector UInt8 n) :
    (List.finRange n).foldl (fun v i => v.set i w[i]) v = w := by
  refine Vector.ext fun j hj => ?_
  exact foldl_set_get w (List.finRange n) v ⟨j, hj⟩ (.inl (List.mem_finRange _))

/-- The label stores, together. -/
theorem foldl_label (l : List (Fin 48)) (r : CrumbRing) :
    (l.map Store.label).foldl (store p) r = r.setEntry fun e =>
      { e with label := l.foldl (fun (v : Vector UInt8 48) (i : Fin 48) => v.set i p.padLabel[i]) e.label } := by
  induction l generalizing r with
  | nil =>
    have hid : r.entries.modify r.head (fun e => e) = r.entries := List.modify_id r.head r.entries
    show r = { r with entries := r.entries.modify r.head fun e => e }
    rw [hid]
  | cons i l ih =>
    rw [List.map_cons, List.foldl_cons, ih]
    exact setEntry_setEntry r _ _

/-- The retraction and the field stores, with the label bytes in any order. -/
theorem foldl_fields_of (l : List (Fin 48)) (r : CrumbRing) :
    (Store.retract :: ([.tsNs, .type, .flags, .labelLen] ++ l.map .label)).foldl (store p) r =
      r.setEntry fun e => { p.crumb 0 with
        label := l.foldl (fun (v : Vector UInt8 48) (i : Fin 48) => v.set i p.padLabel[i]) e.label } := by
  rw [List.foldl_cons, List.foldl_append, foldl_label]
  simp only [List.foldl_cons, List.foldl_nil, store, setEntry_setEntry]
  rfl

/-- The retraction and the field stores, together. -/
theorem foldl_fields (r : CrumbRing) :
    (Store.retract :: fieldStores).foldl (store p) r = r.setEntry fun _ => p.crumb 0 := by
  rw [fieldStores, foldl_fields_of]
  refine congrArg r.setEntry (funext fun e => ?_)
  rw [foldl_set_finRange p.padLabel]
  rfl

/-- Up to and with the store that publishes. -/
theorem foldl_publish (r : CrumbRing) :
    (Store.retract :: fieldStores ++ [Store.ringSeq, Store.publish]).foldl (store p) r =
      { r with entries := r.entries.modify r.head fun _ => p.crumb (r.seq + 1), seq := r.seq + 1 } := by
  rw [List.foldl_append, foldl_fields]
  simp only [List.foldl_cons, List.foldl_nil, store, setEntry, List.modify_modify_eq]
  rfl

/-- **What a push does.** -/
theorem push_eq (r : CrumbRing) (p : Push) (hentries : r.entries ≠ []) : r.push p = { r with
    entries := r.entries.modify r.head fun _ => p.crumb (r.seq + 1)
    seq := r.seq + 1
    head := u32 (r.head + 1) &&& r.mask
    written := u64 (r.written + 1) } := by
  have hsplit : pushStores =
      (Store.retract :: fieldStores ++ [Store.ringSeq, Store.publish]) ++ [Store.head, Store.written] := by
    unfold pushStores
    rw [List.append_assoc]
    rfl
  rw [push, if_neg hentries, hsplit, List.foldl_append, foldl_publish]
  rfl

theorem push_entries_nil (p : Push) (h : r.entries = []) : r.push p = r := if_pos h

/-! ## What a ring holds -/

end CrumbRing

/-- The entries of the pushes `ps`, numbered from one. -/
def crumbs (ps : List Push) : List Crumb := ps.mapIdx fun i p => p.crumb (.ofNat (i + 1))

@[simp] theorem length_crumbs (ps : List Push) : (crumbs ps).length = ps.length := List.length_mapIdx

theorem crumbs_append (ps : List Push) (p : Push) :
    crumbs (ps ++ [p]) = crumbs ps ++ [p.crumb (.ofNat (ps.length + 1))] := by
  simp only [crumbs, List.mapIdx_append, List.mapIdx_singleton, Nat.zero_add]

theorem getElem?_crumbs (ps : List Push) (i : Nat) :
    (crumbs ps)[i]? = ps[i]?.map fun p => p.crumb (.ofNat (i + 1)) := List.getElem?_mapIdx

/-- The part of a ring that never changes. -/
structure CrumbRing.Shape (r : CrumbRing) : Prop where
  capacity_pow : ∃ e, 4 ≤ e ∧ e ≤ 20 ∧ r.capacity = 2 ^ e
  mask_eq : r.mask = r.capacity - 1
  length_eq : r.entries.length = r.capacity

/-- **The invariant.** The ring holds the last of the pushes since it was cleared, and every entry that
shows a sequence number is the whole entry of a push. -/
structure CrumbRing.Holds (r : CrumbRing) (ps : List Push) : Prop extends r.Shape where
  head_eq : r.head = ps.length % r.capacity
  seq_eq : r.seq = .ofNat ps.length
  written_eq : r.written = u64 ps.length
  last : HoldsLast r.capacity r.capacity r.entries (crumbs ps)
  whole : ∀ e ∈ r.entries, e.seq ≠ 0 → e ∈ crumbs ps

namespace CrumbRing
variable {r : CrumbRing} {p : Push} {ps : List Push}

/-- A ring has at most 2^20 entries. -/
theorem Shape.capacity_le (h : r.Shape) : r.capacity ≤ 2 ^ 20 := by
  obtain ⟨e, _, hle, heq⟩ := h.capacity_pow
  rw [heq]
  exact Nat.pow_le_pow_right (by decide) hle

/-- It has at least 16. -/
theorem Shape.le_capacity (h : r.Shape) : 16 ≤ r.capacity := by
  obtain ⟨e, hle, _, heq⟩ := h.capacity_pow
  rw [heq]
  exact (Nat.pow_le_pow_right (by decide) hle : 2 ^ 4 ≤ 2 ^ e)

/-- So it has some. -/
theorem Shape.entries_ne (h : r.Shape) : r.entries ≠ [] := by
  have hpos := h.le_capacity
  rw [← h.length_eq] at hpos
  exact List.ne_nil_of_length_pos (by omega)

/-- The mask takes the remainder. -/
theorem Shape.and_mask (h : r.Shape) (n : Nat) : n &&& r.mask = n % r.capacity := by
  obtain ⟨e, _, _, heq⟩ := h.capacity_pow
  rw [h.mask_eq, heq, Nat.and_two_pow_sub_one_eq_mod]

/-- The turn of 2 ^ 32 is a turn of the ring too. -/
theorem Shape.u32_mod (h : r.Shape) (n : Nat) : u32 n % r.capacity = n % r.capacity := by
  obtain ⟨e, _, hle, heq⟩ := h.capacity_pow
  rw [heq]
  exact Nat.mod_mod_of_dvd n (Nat.pow_dvd_pow 2 (by omega))

/-- The head is inside the ring. -/
theorem Holds.head_lt (h : r.Holds ps) : r.head < r.entries.length := by
  have hcap := h.le_capacity
  rw [h.head_eq, h.length_eq]
  exact Nat.mod_lt _ (by omega)

/-- A ring that was just made holds no pushes. -/
theorem Holds.init {capacity : Nat} (hinit : init capacity true = (true, r)) : r.Holds [] := by
  unfold CrumbRing.init at hinit
  split at hinit
  · exact absurd (congrArg Prod.fst hinit) Bool.false_ne_true
  · obtain rfl : _ = r := congrArg Prod.snd hinit
    have hlength : (List.replicate (roundPow2 capacity) blankCrumb).length = roundPow2 capacity :=
      List.length_replicate
    exact {
      capacity_pow := roundPow2_pow capacity
      mask_eq := rfl
      length_eq := hlength
      head_eq := (Nat.zero_mod _).symm
      seq_eq := rfl
      written_eq := rfl
      last := .nil hlength
      whole := fun e he hseq => absurd (congrArg Crumb.seq (List.eq_of_mem_replicate he)) hseq }

/-- A reset ring holds no pushes. -/
theorem Holds.reset (h : r.Holds ps) : r.reset.Holds [] := by
  have hlength : (List.replicate r.capacity blankCrumb).length = r.capacity := List.length_replicate
  rw [CrumbRing.reset, if_neg h.entries_ne]
  exact {
    capacity_pow := h.capacity_pow
    mask_eq := h.mask_eq
    length_eq := hlength
    head_eq := (Nat.zero_mod _).symm
    seq_eq := rfl
    written_eq := rfl
    last := .nil hlength
    whole := fun e he hseq => absurd (congrArg Crumb.seq (List.eq_of_mem_replicate he)) hseq }

/-- Replacing the entry at `head`. -/
theorem modify_head_eq_set (h : r.head < r.entries.length) (e : Crumb) :
    (r.entries.modify r.head fun _ => e) = r.entries.set r.head e := by
  rw [List.modify_eq_set_getElem? , List.getElem?_eq_getElem h]
  rfl

theorem Holds.next_seq (h : r.Holds ps) : r.seq + 1 = .ofNat (ps.length + 1) := by
  rw [h.seq_eq, UInt32.ofNat_add]
  rfl

theorem Holds.next_head (h : r.Holds ps) : u32 (r.head + 1) &&& r.mask = (ps.length + 1) % r.capacity := by
  rw [h.and_mask, h.u32_mod, h.head_eq, Nat.mod_add_mod]

/-- With the entry published the ring holds the push too. -/
theorem Holds.last_push (h : r.Holds ps) (p : Push) : HoldsLast r.capacity r.capacity
    (r.entries.set r.head (p.crumb (r.seq + 1))) (crumbs (ps ++ [p])) := by
  have hcap := h.le_capacity
  have hpush := h.last.push (by omega) (p.crumb (.ofNat (ps.length + 1)))
  rw [length_crumbs, ← h.head_eq] at hpush
  rw [crumbs_append, h.next_seq]
  exact hpush

/-- One push adds one to what the ring holds. -/
theorem Holds.push (h : r.Holds ps) (p : Push) : (r.push p).Holds (ps ++ [p]) := by
  have hlength : (ps ++ [p]).length = ps.length + 1 := List.length_append
  rw [push_eq r p h.entries_ne, modify_head_eq_set h.head_lt]
  refine {
    capacity_pow := h.capacity_pow
    mask_eq := h.mask_eq
    length_eq := List.length_set.trans h.length_eq
    head_eq := ?_
    seq_eq := by rw [hlength, h.next_seq]
    written_eq := ?_
    last := h.last_push p
    whole := ?_ }
  · show u32 (r.head + 1) &&& r.mask = _
    rw [h.next_head, hlength]
  · show u64 (r.written + 1) = _
    rw [h.written_eq, hlength, u64, u64, u64, Nat.mod_add_mod]
  -- An entry with a number is an old one or the new one.
  · intro e he hne
    rw [crumbs_append, List.mem_append, List.mem_singleton, ← h.next_seq]
    rcases List.mem_or_eq_of_mem_set he with hold | rfl
    · exact .inl (h.whole e hold hne)
    · exact .inr rfl

/-! ## What a snapshot reads -/

/-- The number of entries that a snapshot looks at. -/
def count (r : CrumbRing) (max : Nat) : Nat := min (min r.capacity r.written) max

/-- A copy of an entry, unless it is being written. -/
def published (e : Option Crumb) : Option Crumb := e.bind fun e => if e.seq = 0 then none else some e

theorem published_some {e : Crumb} (h : e.seq ≠ 0) : published (some e) = some e := if_neg h

theorem published_retracted {e : Crumb} (h : e.seq = 0) : published (some e) = none := if_pos h

theorem count_le (r : CrumbRing) (max : Nat) : r.count max ≤ r.capacity :=
  Nat.le_trans (Nat.min_le_left _ _) (Nat.min_le_left _ _)

/-- The index of a snapshot, without its 32-bit arithmetic. -/
theorem Shape.index_eq (h : r.Shape) {count : Nat} (hcount : count ≤ r.capacity) (i : Nat) :
    u32 (r.head + r.capacity + (2 ^ 32 - count) + i) &&& r.mask =
      (r.head + r.capacity - count + i) % r.capacity := by
  have hturn : r.capacity ∣ 2 ^ 32 := by
    obtain ⟨e, _, hle, heq⟩ := h.capacity_pow
    rw [heq]
    exact Nat.pow_dvd_pow 2 (by omega)
  obtain ⟨m, hm⟩ := hturn
  have hle := h.capacity_le
  have hsum : r.head + r.capacity + (2 ^ 32 - count) + i =
      r.head + r.capacity - count + i + r.capacity * m := by omega
  rw [h.and_mask, h.u32_mod, hsum, Nat.add_mul_mod_self_left]

/-- A snapshot is the window of the last `count` slots without the entry being written. -/
theorem Shape.snapshot_eq (h : r.Shape) (max : Nat) : r.snapshot max =
    (RingBuffer.window r.capacity r.head (r.count max) r.entries).filterMap published := by
  have havailable : (if r.capacity < r.written then r.capacity else r.written) = min r.capacity r.written := by
    rcases Nat.lt_or_ge r.capacity r.written with hlt | hge
    · rw [if_pos hlt, Nat.min_eq_left (Nat.le_of_lt hlt)]
    · rw [if_neg (Nat.not_lt.mpr hge), Nat.min_eq_right hge]
  have hcount : (if min r.capacity r.written < max then min r.capacity r.written else max) = r.count max := by
    rcases Nat.lt_or_ge (min r.capacity r.written) max with hlt | hge
    · rw [if_pos hlt, count, Nat.min_eq_left (Nat.le_of_lt hlt)]
    · rw [if_neg (Nat.not_lt.mpr hge), count, Nat.min_eq_right hge]
  by_cases hmax : max = 0
  · have hzero : r.count max = 0 := by rw [count, hmax, Nat.min_zero]
    rw [snapshot, if_pos (.inr hmax), hzero]
    rfl
  · rw [snapshot, if_neg (not_or.mpr ⟨h.entries_ne, hmax⟩)]
    simp only [havailable, hcount]
    rw [RingBuffer.window, List.filterMap_map]
    -- The index of the source is that of the window, and an entry without a number is left out.
    refine List.filterMap_congr fun i _ => ?_
    rw [h.index_eq (r.count_le max), Function.comp]
    cases r.entries[(r.head + r.capacity - r.count max + i) % r.capacity]? <;> rfl

/-- A window of entries that are all published is copied whole. -/
theorem filterMap_published {es : List Crumb} (h : ∀ e ∈ es, e.seq ≠ 0) :
    (es.map some).filterMap published = es := by
  rw [List.filterMap_map]
  have hsome : ∀ e ∈ es, (published ∘ some) e = some e := fun e he => published_some (h e he)
  rw [List.filterMap_congr hsome, List.filterMap_some]

/-- While the numbers have not gone round, none of them is zero. -/
theorem seq_ne_zero_of_mem_crumbs (hfew : ps.length < 2 ^ 32) : ∀ e ∈ crumbs ps, e.seq ≠ 0 := by
  intro e he
  obtain ⟨i, hi, rfl⟩ := List.mem_mapIdx.mp he
  have hnat : (UInt32.ofNat (i + 1)).toNat = i + 1 := by
    rw [UInt32.toNat_ofNat', Nat.mod_eq_of_lt (by omega)]
  intro hzero
  have hseq : UInt32.ofNat (i + 1) = 0 := hzero
  rw [hseq] at hnat
  exact absurd hnat (Nat.succ_ne_zero i).symm

/-- Between pushes a snapshot has the last entries. -/
theorem Holds.snapshot_eq (h : r.Holds ps) (hfew : ps.length < 2 ^ 32) (max : Nat) :
    r.snapshot max = (crumbs ps).drop (ps.length - min ps.length (min r.capacity max)) := by
  have hwritten : r.written = ps.length := by rw [h.written_eq, u64_of_lt (by omega)]
  have hcount : r.count max = min ps.length (min r.capacity max) := by
    rw [count, hwritten, Nat.min_comm r.capacity, Nat.min_assoc]
  have hwindow := h.last.window (r.count_le max) (r.count_le max)
    (by rw [length_crumbs, hcount]; exact Nat.min_le_left _ _)
  rw [length_crumbs, ← h.head_eq] at hwindow
  rw [h.toShape.snapshot_eq, hwindow, hcount, filterMap_published]
  exact fun e he => seq_ne_zero_of_mem_crumbs hfew e (List.mem_of_mem_drop he)

end CrumbRing

/-! ## Histories -/

/-- What is done to a ring after `init`. -/
inductive RingOp
  | push (p : Push)
  | reset

/-- The ring after an operation. -/
def CrumbRing.apply (r : CrumbRing) : RingOp → CrumbRing
  | .push p => r.push p
  | .reset => r.reset

/-- The ring after a history. -/
def CrumbRing.after (r : CrumbRing) (history : List RingOp) : CrumbRing := history.foldl CrumbRing.apply r

/-- The pushes since the last reset. -/
def pushesSince (history : List RingOp) : List Push :=
  history.foldl (fun ps op => match op with | .push p => ps ++ [p] | .reset => []) []

/-- A ring that `init` made holds the pushes of its history. -/
theorem CrumbRing.Holds.after {r : CrumbRing} {ps : List Push} (h : r.Holds ps) (history : List RingOp) :
    (r.after history).Holds
      (history.foldl (fun ps op => match op with | .push p => ps ++ [p] | .reset => []) ps) := by
  induction history generalizing r ps with
  | nil => exact h
  | cons op history ih =>
    cases op with
    | push p => exact ih (h.push p)
    | reset => exact ih h.reset

theorem CrumbRing.holds_after {r : CrumbRing} {capacity : Nat} (hinit : init capacity true = (true, r))
    (history : List RingOp) : (r.after history).Holds (pushesSince history) :=
  (Holds.init hinit).after history

/-- No operation changes the capacity. -/
theorem CrumbRing.apply_capacity (r : CrumbRing) (op : RingOp) : (r.apply op).capacity = r.capacity := by
  cases op with
  | push p =>
    by_cases hentries : r.entries = []
    · rw [apply, push_entries_nil p hentries]
    · rw [apply, push_eq r p hentries]
  | reset =>
    rw [apply, reset]
    split <;> rfl

/-- Nor does a history. -/
theorem CrumbRing.after_capacity (r : CrumbRing) (history : List RingOp) :
    (r.after history).capacity = r.capacity := by
  induction history generalizing r with
  | nil => rfl
  | cons op history ih => exact (ih (r.apply op)).trans (r.apply_capacity op)

/-- `out` is the last `count` of the pushes `ps`, in push order, with consecutive sequence numbers and the
labels cut to 48 bytes and padded with zeros. -/
structure IsWindow (ps : List Push) (count : Nat) (out : List Crumb) : Prop where
  length_eq : out.length = count
  entry : ∀ i < count, ∃ p e, ps[ps.length - count + i]? = some p ∧ out[i]? = some e ∧
    e.tsNs = p.nowNs ∧ e.seq.toNat = ps.length - count + i + 1 ∧ e.type = p.type ∧ e.flags = p.flags ∧
    e.labelLen.toNat = min 48 (p.label.getD []).length ∧
    e.label.toList = (p.label.getD []).take 48 ++ List.replicate (48 - (p.label.getD []).length) 0

theorem Push.length_cutLabel (p : Push) : p.cutLabel.length = min 48 (p.label.getD []).length :=
  List.length_take

theorem Push.getElem_padLabel (p : Push) (i : Nat) (hi : i < 48) : p.padLabel[i] = p.cutLabel.getD i 0 := by
  rw [padLabel, Vector.getElem_ofFn]

/-- The padded label is the first 48 bytes of the label and zeros behind them. -/
theorem Push.toList_padLabel (p : Push) : p.padLabel.toList =
    (p.label.getD []).take 48 ++ List.replicate (48 - (p.label.getD []).length) 0 := by
  have hcut := p.length_cutLabel
  refine List.ext_getElem ?_ fun i hi _ => ?_
  · rw [Vector.length_toList, List.length_append, List.length_take, List.length_replicate]
    omega
  · rw [Vector.getElem_toList, Push.getElem_padLabel, List.getElem_append]
    split
    -- A byte of the cut label, or padding.
    · next hlt =>
      have hget : p.cutLabel[i]? = some p.cutLabel[i] := List.getElem?_eq_getElem hlt
      rw [List.getD_eq_getElem?_getD, hget]
      rfl
    · next hge =>
      rw [List.length_take] at hge
      have hpast : p.cutLabel.length ≤ i := by omega
      rw [List.getElem_replicate, List.getD_eq_getElem?_getD, List.getElem?_eq_none hpast]
      rfl

/-- The last entries of a history are a window of it. -/
theorem isWindow_drop {ps : List Push} (hfew : ps.length < 2 ^ 32) {count : Nat} (hcount : count ≤ ps.length) :
    IsWindow ps count ((crumbs ps).drop (ps.length - count)) where
  length_eq := by
    rw [List.length_drop, length_crumbs]
    omega
  entry i hi := by
    have hin : ps.length - count + i < ps.length := by omega
    have hp : ps[ps.length - count + i]? = some ps[ps.length - count + i] := List.getElem?_eq_getElem hin
    -- The entry of the i-th push of the window, with its number one higher than its place.
    have hout : ((crumbs ps).drop (ps.length - count))[i]? =
        some (ps[ps.length - count + i].crumb (.ofNat (ps.length - count + i + 1))) := by
      rw [List.getElem?_drop, getElem?_crumbs, hp]
      rfl
    generalize ps[ps.length - count + i] = p at hp hout
    have hseq : (UInt32.ofNat (ps.length - count + i + 1)).toNat = ps.length - count + i + 1 := by
      rw [UInt32.toNat_ofNat', Nat.mod_eq_of_lt (by omega)]
    have hlabel : (UInt16.ofNat p.cutLabel.length).toNat = min 48 (p.label.getD []).length := by
      have hcut := p.length_cutLabel
      rw [UInt16.toNat_ofNat', Nat.mod_eq_of_lt (by omega), hcut]
    exact ⟨p, p.crumb (.ofNat (ps.length - count + i + 1)), hp, hout, rfl, hseq, rfl, rfl, hlabel,
      p.toList_padLabel⟩

/-- **The window between pushes.** After any history of fewer than 2 ^ 32 pushes since the ring was made or
reset, a snapshot returns exactly the last of them, as many as there are, fit the ring and are asked for. -/
theorem snapshot_of_history {capacity : Nat} {r : CrumbRing} (hinit : CrumbRing.init capacity true = (true, r))
    (history : List RingOp) (hfew : (pushesSince history).length < 2 ^ 32) (max : Nat) :
    IsWindow (pushesSince history) (min (pushesSince history).length (min r.capacity max))
      ((r.after history).snapshot max) := by
  have hholds := CrumbRing.holds_after hinit history
  rw [hholds.snapshot_eq hfew, r.after_capacity history]
  exact isWindow_drop hfew (Nat.min_le_left _ _)

/-- Twenty pushes into a ring of sixteen: the snapshot is the window of the last sixteen. -/
theorem snapshot_of_history_wrapped :
    (pushesSince (List.replicate 20 (.push ⟨3, 0, some (ascii "PDO::query"), 7⟩))).length = 20 ∧
      IsWindow (pushesSince (List.replicate 20 (.push ⟨3, 0, some (ascii "PDO::query"), 7⟩))) 16
        (((CrumbRing.init 9 true).2.after
          (List.replicate 20 (.push ⟨3, 0, some (ascii "PDO::query"), 7⟩))).snapshot 32) :=
  ⟨rfl, snapshot_of_history (rfl : CrumbRing.init 9 true = (true, (CrumbRing.init 9 true).2))
    (List.replicate 20 (.push ⟨3, 0, some (ascii "PDO::query"), 7⟩)) (by decide) 32⟩

end CboxTelemetry.Breadcrumbs
