import Mathlib.Data.List.Basic

/-!
# Fields of a record in memory

A record is its parts one behind the other. `field` reads what stands at an offset; a reader that knows the
widths of the parts before it gets a part back as it was written (`field_flatten`), and so does one that
counts through an array of entries of one width (`field_flatMap`).
-/

namespace Layout
variable {α β : Type*}

/-- The `width` elements from `offset` on. -/
def field (memory : List α) (offset width : Nat) : List α := (memory.drop offset).take width

/-- Reading them one by one; `none` when one of them is not in the memory. -/
def read (memory : List α) (offset : Nat) : Nat → Option (List α)
  | 0 => some []
  | width + 1 => do
    let x ← memory[offset]?
    let rest ← read memory (offset + 1) width
    return x :: rest

/-- What lies in the memory can be read. -/
theorem read_eq {memory : List α} {offset width : Nat} (h : offset + width ≤ memory.length) :
    read memory offset width = some (field memory offset width) := by
  induction width generalizing offset with
  | zero => simp [read, field]
  | succ width ih =>
    have hfirst : memory[offset]? = some memory[offset] := List.getElem?_eq_getElem (by omega)
    rw [read, hfirst, ih (by omega), field, field, List.drop_eq_getElem_cons (by omega : offset < memory.length)]
    rfl

/-- A field of a field. -/
theorem field_field {memory : List α} {base size offset width : Nat} (h : offset + width ≤ size) :
    field (field memory base size) offset width = field memory (base + offset) width := by
  rw [field, field, field, List.drop_take, List.take_take, List.drop_drop, Nat.min_eq_left (by omega)]

theorem field_append (before part after : List α) :
    field (before ++ (part ++ after)) before.length part.length = part := by
  rw [field, List.drop_left, List.take_left]

/-- Behind the parts before it. -/
theorem field_append_right (before memory : List α) (offset width : Nat) :
    field (before ++ memory) (before.length + offset) width = field memory offset width := by
  rw [field, field, ← List.drop_drop, List.drop_left]

/-- Parts of different widths. -/
theorem field_flatten {parts : List (List α)} {k : Nat} {part : List α} (hpart : parts[k]? = some part)
    {offset width : Nat} (hoffset : (parts.take k).flatten.length = offset) (hwidth : part.length = width) :
    field parts.flatten offset width = part := by
  have hsplit : parts = parts.take k ++ part :: parts.drop (k + 1) := by
    obtain ⟨hlt, heq⟩ := List.getElem?_eq_some_iff.mp hpart
    rw [← heq, List.getElem_cons_drop, List.take_append_drop]
  have hflatten : parts.flatten = (parts.take k).flatten ++ (part ++ (parts.drop (k + 1)).flatten) := by
    conv_lhs => rw [hsplit]
    rw [List.flatten_append, List.flatten_cons]
  rw [hflatten, ← hoffset, ← hwidth]
  exact field_append _ _ _

/-- Entries of one width. -/
theorem field_flatMap {write : β → List α} {width : Nat} (hwidth : ∀ x, (write x).length = width) {xs : List β}
    {i : Nat} {x : β} (hx : xs[i]? = some x) : field (xs.flatMap write) (width * i) width = write x := by
  induction xs generalizing i with
  | nil => cases hx
  | cons y xs ih =>
    rw [List.flatMap_cons]
    -- The element asked for is the first one, or one of the others behind it.
    cases i with
    | zero =>
      cases hx
      have hfirst := field_append [] (write x) (xs.flatMap write)
      rw [hwidth] at hfirst
      exact hfirst
    | succ i =>
      have hnext := field_append_right (write y) (xs.flatMap write) (width * i) width
      rw [hwidth] at hnext
      rw [Nat.mul_succ, Nat.add_comm (width * i), hnext]
      exact ih hx

end Layout
