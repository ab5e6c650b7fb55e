import CboxTelemetry.Crash.Record
import CboxTelemetry.Lib.InPlace

/-!
# The bump arena

One slab for the variable-length bytes of the profiler. It is handed out from the front, every
handout at an address that is a multiple of `arenaAlign`, and given back only as a whole. What has
been handed out keeps its bytes until then (`Arena.read_put`).
-/

namespace CboxTelemetry.Profiler

/-! ## Machine integers -/

/-- A value stored in a `uint32_t`. -/
def u32 (n : Nat) : Nat := n % 2 ^ 32

/-- A value stored in a `uint64_t` or a `size_t`. -/
def u64 (n : Nat) : Nat := n % 2 ^ 64

theorem u32_of_lt {n : Nat} (h : n < 2 ^ 32) : u32 n = n := Nat.mod_eq_of_lt h

theorem u64_of_lt {n : Nat} (h : n < 2 ^ 64) : u64 n = n := Nat.mod_eq_of_lt h

theorem u32_lt (n : Nat) : u32 n < 2 ^ 32 := Nat.mod_lt n (by decide)

theorem u64_lt (n : Nat) : u64 n < 2 ^ 64 := Nat.mod_lt n (by decide)

/-! ## The arena -/

/-- `cbox_arena`. The slab has `size` bytes; an arena without a slab has an empty one. -/
structure Arena where
  base : Bytes
  used : Nat
  peak : Nat
  exhausted : Nat
  deriving DecidableEq

def arenaAlign : Nat := 8

namespace Arena

/-- An arena that `cbox_arena_destroy` has cleared. -/
def cleared : Arena := ⟨[], 0, 0, 0⟩

def size (a : Arena) : Nat := a.base.length

/-- `cbox_arena_init`, when `malloc` returns the block `slab`. -/
def init (slab : Bytes) : Option Arena :=
  if slab.length = 0 then .none else some ⟨slab, 0, 0, 0⟩

/-- `cbox_arena_alloc`: the offset from `base` of the bytes handed out. -/
def alloc (a : Arena) (bytes : Nat) : Option Nat × Arena :=
  if a.base = [] then (.none, a)
  else
    let offset := u64 (a.used + (arenaAlign - 1)) / arenaAlign * arenaAlign
    let aligned := u64 (offset + bytes)
    if aligned < offset ∨ a.size < aligned then (.none, { a with exhausted := u32 (a.exhausted + 1) })
    else (some offset, { a with used := aligned, peak := max a.peak aligned })

/-- `cbox_arena_put`. -/
def put (a : Arena) (bytes : Bytes) : Option Nat × Arena :=
  match a.alloc (bytes.length + 1) with
  | (.none, a') => (.none, a')
  | (some slot, a') =>
    (some (u32 slot), { a' with base := InPlace.overwrite a'.base slot (bytes ++ [0]) })

/-- The `len` bytes at `cbox_arena_at(offset)`. -/
def read (a : Arena) (offset len : Nat) : Bytes := (a.base.drop offset).take len

/-- `cbox_arena_reset`. -/
def reset (a : Arena) : Arena := { a with used := 0, exhausted := 0 }

/-- The cursor is inside the slab, whose offsets fit in 32 bits. -/
structure Valid (a : Arena) : Prop where
  used_le : a.used ≤ a.size
  size_le : a.size < 2 ^ 32 - arenaAlign

variable {a : Arena}

theorem Valid.reset (h : a.Valid) : a.reset.Valid where
  used_le := Nat.zero_le _
  size_le := h.size_le

/-- The next address that is handed out. -/
def cursor (a : Arena) : Nat := (a.used + (arenaAlign - 1)) / arenaAlign * arenaAlign

/-- Where the last of these strings ends, when they are put one after the other into an arena of which
`used` bytes are handed out: each begins at the next multiple of `arenaAlign` and has a zero byte behind
it. -/
def filled (used : Nat) : List Bytes → Nat
  | [] => used
  | bytes :: strings =>
    filled ((used + (arenaAlign - 1)) / arenaAlign * arenaAlign + (bytes.length + 1)) strings

theorem used_le_cursor (a : Arena) : a.used ≤ a.cursor := by
  simp only [cursor, arenaAlign]
  omega

/-- Filling never lowers the level. -/
theorem le_filled (used : Nat) (strings : List Bytes) : used ≤ filled used strings := by
  induction strings generalizing used with
  | nil => exact Nat.le_refl _
  | cons bytes strings ih =>
    refine le_trans ?_ (ih _)
    simp only [arenaAlign]
    omega

/-- Strings are filled in one behind the other. -/
theorem filled_append (used : Nat) (strings more : List Bytes) :
    filled used (strings ++ more) = filled (filled used strings) more := by
  induction strings generalizing used with
  | nil => rfl
  | cons bytes strings ih => exact ih _

/-- What `alloc` does to a valid arena: nothing but counting, for want of room, or a move of the cursor
to the end of the bytes that it hands out. -/
theorem alloc_cases (h : a.Valid) {bytes : Nat} (hpos : 0 < bytes) (hbytes : bytes < 2 ^ 32) :
    (a.size < a.cursor + bytes ∧ ∃ n, a.alloc bytes = (.none, { a with exhausted := n })) ∨
    (a.cursor + bytes ≤ a.size ∧ ∃ peak,
      a.alloc bytes = (some a.cursor, { a with used := a.cursor + bytes, peak := peak })) := by
  have hused := h.used_le
  have hsize := h.size_le
  unfold alloc
  split
  next hnone =>
    refine .inl ⟨?_, a.exhausted, rfl⟩
    rw [size, hnone, List.length_nil]
    omega
  next hslab =>
    have hcursor : u64 (a.used + (arenaAlign - 1)) = a.used + (arenaAlign - 1) := u64_of_lt (by
      -- No overflow, for the slab is well below the width of its offsets.
      simp only [arenaAlign] at hsize ⊢
      omega)
    have haligned : u64 (a.cursor + bytes) = a.cursor + bytes := u64_of_lt (by
      simp only [cursor, arenaAlign] at hsize ⊢
      omega)
    rw [cursor] at haligned
    simp only [hcursor, haligned]
    split
    next hfull =>
      refine .inl ⟨?_, _, rfl⟩
      rw [cursor]
      omega
    next hfits =>
      refine .inr ⟨?_, _, rfl⟩
      rw [cursor]
      omega

/-- What `put` does to a valid arena: nothing but counting, for want of room, or bytes at the cursor. -/
theorem put_cases (h : a.Valid) {bytes : Bytes} (hbytes : bytes.length + 1 < 2 ^ 32) :
    (a.size < a.cursor + (bytes.length + 1) ∧ ∃ n, a.put bytes = (.none, { a with exhausted := n })) ∨
    (a.cursor + (bytes.length + 1) ≤ a.size ∧ ∃ peak,
      a.put bytes = (some a.cursor, { a with
        base := InPlace.overwrite a.base a.cursor (bytes ++ [0])
        used := a.cursor + (bytes.length + 1)
        peak := peak })) := by
  unfold put
  obtain ⟨hnone, n, hfull⟩ | ⟨hfits, peak, hroom⟩ := alloc_cases h (Nat.succ_pos _) hbytes
  · rw [hfull]
    exact .inl ⟨hnone, n, rfl⟩
  · have hslot : u32 a.cursor = a.cursor := u32_of_lt (by
      have := h.size_le
      omega)
    rw [hroom]
    exact .inr ⟨hfits, peak, by simp only [hslot]⟩

/-! ## What the arena keeps -/

/-- `a'` is `a` after some handouts: everything handed out before is still there. -/
structure Grows (a a' : Arena) : Prop where
  valid : a'.Valid
  size_eq : a'.size = a.size
  used_le : a.used ≤ a'.used
  read_eq : ∀ offset len, offset + len ≤ a.used → a'.read offset len = a.read offset len

/-- An arena grows into itself. -/
theorem Grows.refl (h : a.Valid) : Grows a a where
  valid := h
  size_eq := rfl
  used_le := Nat.le_refl _
  read_eq _ _ _ := rfl

/-- Growing twice is growing. -/
theorem Grows.trans {a b c : Arena} (hab : Grows a b) (hbc : Grows b c) : Grows a c where
  valid := hbc.valid
  size_eq := hbc.size_eq.trans hab.size_eq
  used_le := hab.used_le.trans hbc.used_le
  read_eq offset len hle := by
    rw [hbc.read_eq offset len (hle.trans hab.used_le), hab.read_eq offset len hle]

/-- Bytes written at or after `n` leave what lies before `n`. -/
theorem read_overwrite_before {file bytes : Bytes} {slot offset len : Nat}
    (hfits : slot ≤ file.length) (hle : offset + len ≤ slot) :
    ((InPlace.overwrite file slot bytes).drop offset).take len = (file.drop offset).take len := by
  have hlen : (file.take slot).length = slot := List.length_take_of_le hfits
  rw [List.take_drop, List.take_drop, InPlace.overwrite, List.append_assoc,
    List.take_append_of_le_length (by omega), List.take_take, Nat.min_eq_left (by omega)]

/-- Bytes written are read back. -/
theorem read_overwrite_self {file bytes more : Bytes} {slot : Nat} (hfits : slot ≤ file.length) :
    ((InPlace.overwrite file slot (bytes ++ more)).drop slot).take bytes.length = bytes := by
  have hlen : (file.take slot).length = slot := List.length_take_of_le hfits
  rw [InPlace.overwrite, List.append_assoc, List.drop_left' hlen, List.append_assoc,
    List.take_left' rfl]

/-- A string that `put` has stored is read back from its slot, and is inside the part handed out. -/
structure Stored (a : Arena) (slot : Nat) (bytes : Bytes) : Prop where
  inside : slot + bytes.length ≤ a.used
  read_eq : a.read slot bytes.length = bytes

/-- A stored string stays where it is while the arena grows. -/
theorem Stored.grows {a' : Arena} {slot : Nat} {bytes : Bytes} (h : a.Stored slot bytes)
    (hgrows : Grows a a') : a'.Stored slot bytes where
  inside := h.inside.trans hgrows.used_le
  read_eq := by rw [hgrows.read_eq slot _ h.inside, h.read_eq]

/-- `put` refuses for want of room, and then only counts, or stores the string at the cursor. -/
theorem put_spec (h : a.Valid) {bytes : Bytes} (hbytes : bytes.length + 1 < 2 ^ 32) :
    (a.size < a.cursor + (bytes.length + 1) ∧ ∃ n, a.put bytes = (.none, { a with exhausted := n })) ∨
    ∃ a', a.put bytes = (some a.cursor, a') ∧ Grows a a' ∧ a'.Stored a.cursor bytes ∧
      a'.used = a.cursor + (bytes.length + 1) := by
  obtain hfull | ⟨hfits, peak, hput⟩ := put_cases h hbytes
  · exact .inl hfull
  · have hcursor := a.used_le_cursor
    have hslot : a.cursor ≤ a.base.length := by
      unfold size at hfits
      omega
    have hsize : (InPlace.overwrite a.base a.cursor (bytes ++ [0])).length = a.base.length :=
      InPlace.length_overwrite (by
        rw [List.length_append]
        exact hfits)
    refine .inr ⟨_, hput, ?_, ?_, rfl⟩
    -- The new string lies behind all the old ones, so these are read as before.
    · refine ⟨⟨?_, ?_⟩, hsize, ?_, ?_⟩
      · show a.cursor + (bytes.length + 1) ≤ (InPlace.overwrite a.base a.cursor (bytes ++ [0])).length
        rw [hsize]
        exact hfits
      · show (InPlace.overwrite a.base a.cursor (bytes ++ [0])).length < _
        rw [hsize]
        exact h.size_le
      · show a.used ≤ a.cursor + (bytes.length + 1)
        omega
      · intro offset len hbefore
        exact read_overwrite_before hslot (hbefore.trans hcursor)
    · refine ⟨?_, read_overwrite_self hslot⟩
      show a.cursor + bytes.length ≤ a.cursor + (bytes.length + 1)
      omega

/-- Counting a refusal keeps what is stored. -/
theorem Grows.exhausted (h : a.Valid) (n : Nat) : Grows a { a with exhausted := n } where
  valid := ⟨h.used_le, h.size_le⟩
  size_eq := rfl
  used_le := Nat.le_refl _
  read_eq _ _ _ := rfl

end Arena

end CboxTelemetry.Profiler
