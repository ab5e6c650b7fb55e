import Mathlib.Data.List.Infix

/-!
# Moving the tail of a file to its front, in place

Discarding the first `c` elements of a file without a second file means copying the rest down in
chunks and cutting the file off. `shifted f c w` is the file when `w` elements have been moved: its
first `w` elements already hold what stood `c` later, the rest is still the old file. Source and
target of a chunk may overlap, so what a half-moved file still holds is a question of its own: a stretch of
the tail is contiguous in it when it has been moved whole (`infix_moved`) or not been touched (`infix_untouched`).
-/

namespace InPlace
variable {α : Type*}

/-- Write `d` over the elements of `f` from position `i` on. -/
def overwrite (f : List α) (i : Nat) (d : List α) : List α :=
  f.take i ++ d ++ f.drop (i + d.length)

/-- The file `f` with `w` elements moved down by `c`. -/
def shifted (f : List α) (c w : Nat) : List α :=
  (f.drop c).take w ++ f.drop w

theorem length_overwrite {f d : List α} {i : Nat} (h : i + d.length ≤ f.length) :
    (overwrite f i d).length = f.length := by
  simp only [overwrite, List.length_append, List.length_take, List.length_drop]; omega

@[simp] theorem shifted_zero (f : List α) (c : Nat) : shifted f c 0 = f := by
  simp [shifted]

variable {f : List α} {c w : Nat}

theorem length_moved (h : c + w ≤ f.length) : ((f.drop c).take w).length = w := by
  rw [List.length_take, List.length_drop]; omega

theorem length_shifted (h : c + w ≤ f.length) : (shifted f c w).length = f.length := by
  rw [shifted, List.length_append, length_moved h, List.length_drop]; omega

/-- Beyond the moved part the file is the old one. -/
theorem drop_shifted (h : c + w ≤ f.length) {i : Nat} (hi : w ≤ i) :
    (shifted f c w).drop i = f.drop i := by
  have hlen := length_moved h
  rw [shifted, List.drop_append, hlen, List.drop_eq_nil_of_le (by omega), List.nil_append,
    List.drop_drop]
  congr 1; omega

/-- Copying the next chunk down moves that much more of the file. -/
theorem overwrite_shifted (h : c + w ≤ f.length) (k : Nat) :
    overwrite (shifted f c w) w (((shifted f c w).drop (c + w)).take k) =
      shifted f c (w + (((shifted f c w).drop (c + w)).take k).length) := by
  rw [drop_shifted h (Nat.le_add_left w c)]
  generalize hd : (f.drop (c + w)).take k = d
  have hdtake : (f.drop (c + w)).take d.length = d := by
    rw [← hd]; exact (List.prefix_iff_eq_take.mp (List.take_prefix k _)).symm
  have hfront : (shifted f c w).take w = (f.drop c).take w := by
    rw [shifted, List.take_left' (length_moved h)]
  have hmore : (f.drop c).take (w + d.length) = (f.drop c).take w ++ d := by
    rw [List.take_add, List.drop_drop, hdtake]
  rw [overwrite, hfront, drop_shifted h (Nat.le_add_right w _), shifted, hmore]

/-- With everything moved, cutting the file off leaves exactly the tail. -/
theorem take_shifted (h : c + w = f.length) : (shifted f c w).take w = f.drop c := by
  rw [shifted, List.take_left' (length_moved (Nat.le_of_eq h)), List.take_of_length_le]
  rw [List.length_drop]; omega

/-- A stretch that has been moved whole. -/
theorem infix_moved {i n : Nat} (hi : c ≤ i) (hmoved : i + n ≤ c + w) :
    (f.drop i).take n <:+: (f.drop c).take w := by
  have hpart : (f.drop i).take n = (((f.drop c).take w).drop (i - c)).take n := by
    rw [List.drop_take, List.drop_drop, List.take_take, Nat.min_eq_left (by omega)]
    congr 2; omega
  rw [hpart]
  exact (List.take_prefix n _).isInfix.trans (List.drop_suffix _ _).isInfix

/-- A stretch that nothing has been written over. -/
theorem infix_untouched {i n : Nat} (hi : w ≤ i) : (f.drop i).take n <:+: f.drop w := by
  have hpart : (f.drop i).take n = ((f.drop w).drop (i - w)).take n := by
    rw [List.drop_drop]; congr 2; omega
  rw [hpart]
  exact (List.take_prefix n _).isInfix.trans (List.drop_suffix _ _).isInfix

/-- What stands at a position of the half-moved file. -/
theorem getElem?_shifted (h : c + w ≤ f.length) (j : Nat) :
    (shifted f c w)[j]? = if j < w then f[j + c]? else f[j]? := by
  have hlen := length_moved h
  unfold shifted
  split
  next hj =>
    rw [List.getElem?_append_left (by omega), List.getElem?_take_of_lt hj, List.getElem?_drop, Nat.add_comm]
  next hj =>
    rw [List.getElem?_append_right (by omega), List.getElem?_drop, hlen]
    congr 1; omega

/-- An infix, element by element. -/
theorem exists_start_of_infix {l l' : List α} (h : l <:+: l') :
    ∃ s, s + l.length ≤ l'.length ∧ ∀ t < l.length, l'[s + t]? = l[t]? := by
  obtain ⟨before, after, rfl⟩ := h
  refine ⟨before.length, by simp, ?_⟩
  intro t ht
  rw [List.append_assoc, List.getElem?_append_right (by omega), Nat.add_sub_cancel_left,
    List.getElem?_append_left ht]

/-- The half-moved file from `i` on is the old one, where what has been moved over it looks alike. -/
theorem infix_periodic (h : c + w ≤ f.length) {i n : Nat}
    (hsame : ∀ j, i ≤ j → j < w → f[j + c]? = f[j]?) : (f.drop i).take n <:+: shifted f c w := by
  have hdrop : (shifted f c w).drop i = f.drop i := by
    apply List.ext_getElem?
    intro t
    rw [List.getElem?_drop, List.getElem?_drop, getElem?_shifted h]
    split
    next hlt => exact hsame _ (Nat.le_add_right i t) hlt
    · rfl
  rw [← hdrop]
  exact (List.take_prefix n _).isInfix.trans (List.drop_suffix _ _).isInfix

/-- A stretch across the end of what has been moved is lost, if its last element stands nowhere else and
what has been moved over its beginning looks different. -/
theorem not_infix_shifted (h : c + w ≤ f.length) {i n : Nat} (hcross : c + w < i + n)
    (hend : i + n ≤ f.length) (hlast : ∀ j, f[j]? = f[i + n - 1]? → j = i + n - 1) {j : Nat}
    (hij : i ≤ j) (hj : j < w) (hdiff : f[j + c]? ≠ f[j]?) : ¬(f.drop i).take n <:+: shifted f c w := by
  intro hinfix
  have hlength : ((f.drop i).take n).length = n := by
    rw [List.length_take, List.length_drop]; omega
  obtain ⟨s, -, hget⟩ := exists_start_of_infix hinfix
  rw [hlength] at hget
  have hat : ∀ t < n, (shifted f c w)[s + t]? = f[i + t]? := by
    intro t ht
    rw [hget t ht, List.getElem?_take_of_lt ht, List.getElem?_drop]
  -- The last element tells where the stretch would have to start.
  have hstart : s = i := by
    have hfinal := hat (n - 1) (by omega)
    rw [getElem?_shifted h, show i + (n - 1) = i + n - 1 by omega] at hfinal
    split at hfinal
    · have := hlast _ hfinal
      omega
    · have := hlast _ hfinal
      omega
  have hfront := hat (j - i) (by omega)
  rw [hstart, show i + (j - i) = j by omega, getElem?_shifted h, if_pos hj] at hfront
  exact hdiff hfront

/-- Growing the file at its end and moving it are independent. -/
theorem shifted_append (h : c + w ≤ f.length) (d : List α) :
    shifted f c w ++ d = shifted (f ++ d) c w := by
  have hlen := length_moved h
  rw [shifted, shifted, List.drop_append_of_le_length (by omega : c ≤ f.length),
    List.drop_append_of_le_length (by omega : w ≤ f.length),
    List.take_append_of_le_length (by rw [List.length_drop]; omega), List.append_assoc]

end InPlace
