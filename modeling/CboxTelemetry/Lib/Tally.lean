import Mathlib.Algebra.BigOperators.Group.List.Basic
import Mathlib.Algebra.GroupWithZero.Nat
import Mathlib.Algebra.Order.BigOperators.Group.List

/-!
# Tallies

A tally is a list of weighted entries, `(key, weight)` each, in the order they were made. What matters
of it is the weight at each key (`weightAt`). Tallies over keys below a bound can be kept as a table and
summed up (`sum_weightAt_range`), and the largest totals of a table can be cut off at some number without
loss only when there are no more than that (`sum_take_eq_iff`).
-/

namespace Tally
variable {Key : Type*}

/-- The whole weight. -/
def total (entries : List (Key × Nat)) : Nat := (entries.map Prod.snd).sum

@[simp] theorem total_nil : total ([] : List (Key × Nat)) = 0 := rfl

theorem total_cons (e : Key × Nat) (entries : List (Key × Nat)) :
    total (e :: entries) = e.2 + total entries := by
  rw [total, List.map_cons, List.sum_cons, total]

theorem total_append (a b : List (Key × Nat)) : total (a ++ b) = total a + total b := by
  rw [total, List.map_append, List.sum_append, total, total]

variable [DecidableEq Key]

/-- The whole weight that was entered at `k`. -/
def weightAt (entries : List (Key × Nat)) (k : Key) : Nat :=
  ((entries.filter fun e => e.1 = k).map Prod.snd).sum

@[simp] theorem weightAt_nil (k : Key) : weightAt [] k = 0 := rfl

/-- The first entry counts for its own key. -/
theorem weightAt_cons (e : Key × Nat) (entries : List (Key × Nat)) (k : Key) :
    weightAt (e :: entries) k = (if e.1 = k then e.2 else 0) + weightAt entries k := by
  unfold weightAt
  by_cases hk : e.1 = k
  · rw [List.filter_cons_of_pos (by simpa using hk), if_pos hk, List.map_cons, List.sum_cons]
  · rw [List.filter_cons_of_neg (by simpa using hk), if_neg hk, Nat.zero_add]

/-- Weights add up over two lists. -/
theorem weightAt_append (a b : List (Key × Nat)) (k : Key) :
    weightAt (a ++ b) k = weightAt a k + weightAt b k := by
  unfold weightAt
  rw [List.filter_append, List.map_append, List.sum_append]

theorem weightAt_singleton (k : Key) (w : Nat) (k' : Key) :
    weightAt [(k, w)] k' = if k = k' then w else 0 := by
  rw [weightAt_cons, weightAt_nil, Nat.add_zero]

/-- One key has at most the total. -/
theorem weightAt_le_total (entries : List (Key × Nat)) (k : Key) :
    weightAt entries k ≤ total entries := by
  induction entries with
  | nil => exact Nat.le_refl _
  | cons e entries ih =>
    rw [weightAt_cons, total_cons]
    split <;> omega

/-- A key has weight when one of its entries has. -/
theorem weightAt_pos_iff {entries : List (Key × Nat)} {k : Key} :
    0 < weightAt entries k ↔ ∃ w, (k, w) ∈ entries ∧ 0 < w := by
  unfold weightAt
  rw [List.sum_pos_iff_exists_pos_nat]
  constructor
  · rintro ⟨w, hw, hpos⟩
    obtain ⟨⟨k', w'⟩, hmem, rfl⟩ := List.mem_map.mp hw
    obtain ⟨hmem, hk⟩ := List.mem_filter.mp hmem
    have hk : k' = k := by simpa using hk
    exact ⟨w', hk ▸ hmem, hpos⟩
  · rintro ⟨w, hmem, hpos⟩
    exact ⟨w, List.mem_map.mpr ⟨(k, w), List.mem_filter.mpr ⟨hmem, by simp⟩, rfl⟩, hpos⟩

/-- When all keys are below a bound, the weights at the keys add up to the whole. -/
theorem sum_weightAt_range {entries : List (Nat × Nat)} {n : Nat} (h : ∀ e ∈ entries, e.1 < n) :
    ((List.range n).map (weightAt entries)).sum = total entries := by
  induction entries with
  | nil =>
    refine List.sum_eq_zero ?_
    intro w hw
    obtain ⟨k, -, rfl⟩ := List.mem_map.mp hw
    rfl
  | cons e entries ih =>
    have hrest := ih fun e' he' => h e' (List.mem_cons_of_mem _ he')
    -- The first entry counts once, as its key is below `n`.
    have hone : ((List.range n).map fun k => if e.1 = k then e.2 else 0).sum = e.2 := by
      have hlt := h e List.mem_cons_self
      clear ih hrest h
      induction n with
      | zero => exact absurd hlt (Nat.not_lt_zero _)
      | succ n ih =>
        rw [List.range_succ, List.map_append, List.sum_append, List.map_singleton, List.sum_singleton]
        rcases Nat.lt_succ_iff_lt_or_eq.mp hlt with hlt | heq
        · rw [ih hlt, if_neg hlt.ne, Nat.add_zero]
        · have hzero : ((List.range n).map fun k => if e.1 = k then e.2 else 0).sum = 0 := by
            refine List.sum_eq_zero ?_
            intro w hw
            obtain ⟨k, hk, rfl⟩ := List.mem_map.mp hw
            rw [if_neg (by have := List.mem_range.mp hk; omega)]
          rw [hzero, if_pos heq, Nat.zero_add]
    -- The weights of the first entry and of the others, key by key.
    have hsplit : ∀ ks : List Nat, (ks.map (weightAt (e :: entries))).sum =
        (ks.map fun k => if e.1 = k then e.2 else 0).sum + (ks.map (weightAt entries)).sum := by
      intro ks
      induction ks with
      | nil => rfl
      | cons k ks ihk =>
        rw [List.map_cons, List.map_cons, List.map_cons, List.sum_cons, List.sum_cons, List.sum_cons,
          ihk, weightAt_cons]
        omega
    rw [hsplit, hone, hrest, total_cons]

/-- Cutting off a list of positive numbers loses something, unless it is not longer than that. -/
theorem sum_take_eq_iff {l : List Nat} (hpos : ∀ x ∈ l, 0 < x) (k : Nat) :
    (l.take k).sum = l.sum ↔ l.length ≤ k := by
  constructor
  -- Something positive would be missing from the sum.
  · intro heq
    by_contra hlong
    rw [Nat.not_le] at hlong
    have hsplit := congrArg List.sum (List.take_append_drop k l)
    rw [List.sum_append, heq] at hsplit
    have hrest : 0 < (l.drop k).sum := by
      rw [List.sum_pos_iff_exists_pos_nat]
      obtain ⟨x, hx⟩ := List.exists_mem_of_ne_nil (l.drop k) (by
        intro hnil
        rw [List.drop_eq_nil_iff] at hnil
        omega)
      exact ⟨x, hx, hpos x (List.mem_of_mem_drop hx)⟩
    omega
  · intro hle
    rw [List.take_of_length_le hle]

/-- What is left out of a sum because it is zero does not change it. -/
theorem sum_filter_pos {α : Type*} (size : α → Nat) (l : List α) :
    ((l.filter fun a => 0 < size a).map size).sum = (l.map size).sum := by
  induction l with
  | nil => rfl
  | cons a l ih =>
    by_cases ha : 0 < size a
    · rw [List.filter_cons_of_pos (by simpa using ha), List.map_cons, List.map_cons, List.sum_cons,
        List.sum_cons, ih]
    · rw [List.filter_cons_of_neg (by simpa using ha), List.map_cons, List.sum_cons, ih]
      omega

/-- In a list that goes down, the positive numbers are in front. -/
theorem takeWhile_eq_filter {α : Type*} {size : α → Nat} {l : List α}
    (h : l.Pairwise fun a b => size b ≤ size a) :
    l.takeWhile (fun a => 0 < size a) = l.filter fun a => 0 < size a := by
  induction l with
  | nil => rfl
  | cons a l ih =>
    obtain ⟨hle, hrest⟩ := List.pairwise_cons.mp h
    by_cases ha : 0 < size a
    · rw [List.takeWhile_cons_of_pos (by simpa using ha), List.filter_cons_of_pos (by simpa using ha),
        ih hrest]
    · have hnone : (a :: l).filter (fun a => 0 < size a) = [] := by
        refine List.filter_eq_nil_iff.mpr ?_
        intro b hb
        rcases List.mem_cons.mp hb with rfl | hb
        · simpa using ha
        · have := hle b hb
          simp
          omega
      rw [List.takeWhile_cons_of_neg (by simpa using ha), hnone]

end Tally
