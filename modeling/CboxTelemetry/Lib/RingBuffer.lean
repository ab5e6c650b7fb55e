import Mathlib.Data.List.Basic

/-!
# Ring buffers

A ring of `cap` slots takes the entries `xs` in turn, entry `i` in slot `i % cap`. What matters of the
slots is which of the last entries they still hold (`HoldsLast`): overwriting the next slot costs the
oldest of `cap` entries, and filling it with the next entry makes the ring whole again. Reading `count`
slots up to the next one gives the last `count` entries, oldest first (`HoldsLast.window`).
-/

namespace RingBuffer
variable {α : Type*} {cap k : Nat} {slots xs : List α}

/-- The last `k` of the entries `xs` are in their slots. -/
structure HoldsLast (cap k : Nat) (slots xs : List α) : Prop where
  length_eq : slots.length = cap
  get_eq : ∀ i < xs.length, xs.length ≤ i + k → slots[i % cap]? = xs[i]?

theorem HoldsLast.nil (h : slots.length = cap) : HoldsLast cap k slots [] where
  length_eq := h
  get_eq _ hi := absurd hi (Nat.not_lt_zero _)

/-- Two entries less than a turn apart are in different slots. -/
theorem mod_ne_of_lt {i n : Nat} (hlt : i < n) (hnear : n < i + cap) : i % cap ≠ n % cap := by
  intro heq
  have hmod : (n - i) % cap = 0 := Nat.sub_mod_eq_zero_of_mod_eq heq.symm
  have hzero := Nat.eq_zero_of_dvd_of_lt (Nat.dvd_of_mod_eq_zero hmod) (by omega)
  omega

/-- Whatever is put into the next slot, the entries that were not the oldest are still held. -/
theorem HoldsLast.set_next (h : HoldsLast cap cap slots xs) (y : α) :
    HoldsLast cap (cap - 1) (slots.set (xs.length % cap) y) xs where
  length_eq := by rw [List.length_set, h.length_eq]
  get_eq i hi hlast := by
    have hother : xs.length % cap ≠ i % cap := (mod_ne_of_lt hi (by omega)).symm
    rw [List.getElem?_set_ne hother]
    exact h.get_eq i hi (by omega)

/-- With the next entry in the next slot the ring is whole. -/
theorem HoldsLast.fill (h : HoldsLast cap (cap - 1) slots xs) {x : α}
    (hx : slots[xs.length % cap]? = some x) : HoldsLast cap cap slots (xs ++ [x]) where
  length_eq := h.length_eq
  get_eq i hi hlast := by
    rw [List.length_append, List.length_singleton] at hi hlast
    rcases Nat.lt_succ_iff_lt_or_eq.mp hi with hold | rfl
    · rw [List.getElem?_append_left hold]
      exact h.get_eq i hold (by omega)
    · rw [List.getElem?_concat_length, hx]

/-- Putting the next entry into the next slot. -/
theorem HoldsLast.push (h : HoldsLast cap cap slots xs) (hcap : 0 < cap) (x : α) :
    HoldsLast cap cap (slots.set (xs.length % cap) x) (xs ++ [x]) := by
  refine (h.set_next x).fill ?_
  have hlt : xs.length % cap < slots.length := by
    rw [h.length_eq]
    exact Nat.mod_lt _ hcap
  rw [List.getElem?_set_self hlt]

/-- The slots of the last `count` entries before slot `head`, oldest first. -/
def window (cap head count : Nat) (slots : List α) : List (Option α) :=
  (List.range count).map fun i => slots[(head + cap - count + i) % cap]?

/-- **Reading up to the next slot** gives the last entries, in the order they came. -/
theorem HoldsLast.window (h : HoldsLast cap k slots xs) {count : Nat} (hk : count ≤ k)
    (hcap : count ≤ cap) (hcount : count ≤ xs.length) :
    window cap (xs.length % cap) count slots = (xs.drop (xs.length - count)).map some := by
  refine List.ext_getElem? fun i => ?_
  rw [RingBuffer.window, List.getElem?_map, List.getElem?_map, List.getElem?_drop]
  rcases Nat.lt_or_ge i count with hi | hi
  -- The slot, reckoned from the next free one, is that of the element counted from the end.
  · have hslot : (xs.length % cap + cap - count + i) % cap = (xs.length - count + i) % cap := by
      have hsplit := Nat.mod_add_div xs.length cap
      calc (xs.length % cap + cap - count + i) % cap
          = (xs.length % cap + cap - count + i + cap * (xs.length / cap)) % cap :=
            (Nat.add_mul_mod_self_left _ _ _).symm
        _ = (xs.length - count + i + cap) % cap := by congr 1; omega
        _ = (xs.length - count + i) % cap := Nat.add_mod_right _ _
    have hin : xs.length - count + i < xs.length := by omega
    rw [List.getElem?_range hi, Option.map_some, hslot, h.get_eq _ hin (by omega),
      List.getElem?_eq_getElem hin]
    rfl
  · rw [List.getElem?_eq_none (by rw [List.length_range]; exact hi),
      List.getElem?_eq_none (by omega)]
    rfl

/-- The window of one slot more begins with that slot. -/
theorem window_succ {head count : Nat} (hcap : count + 1 ≤ cap) :
    RingBuffer.window cap head (count + 1) slots =
      slots[(head + cap - (count + 1)) % cap]? :: RingBuffer.window cap head count slots := by
  rw [RingBuffer.window, RingBuffer.window, List.range_succ_eq_map, List.map_cons, List.map_map, Nat.add_zero]
  congr 1
  refine List.map_congr_left fun i _ => ?_
  have hindex : head + cap - (count + 1) + (i + 1) = head + cap - count + i := by omega
  show slots[(head + cap - (count + 1) + (i + 1)) % cap]? = _
  rw [hindex]

end RingBuffer
