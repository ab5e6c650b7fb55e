import CboxTelemetry.Profiler.Conservation

/-!
# Interning is identity

A frame table is used by one call of `cbox_frames_intern` after another, and is reset together with the arena
of its names. `Interner` is the pair with the calls since the last reset as its history. Whatever is interned
in whatever order (`identified_of_useAll`), two calls get one number just when they ask for one identity, the
numbers are those below the count, and what was interned is read back.
-/

namespace CboxTelemetry.Profiler

/-! ## A run -/

/-- One call of `cbox_frames_intern` and the number it returned. -/
structure Interning where
  name : Bytes
  file : Bytes
  line : UInt32
  id : Option Nat
  deriving DecidableEq

def Interning.key (call : Interning) : FrameKey := FrameTable.keyOf call.name call.file call.line

/-- What is done with a table. -/
inductive Use
  | intern (name file : Bytes) (line : UInt32)
  | reset

/-- A frame table with its arena, and the calls since they were last reset. -/
structure Interner where
  table : FrameTable
  arena : Arena
  calls : List Interning

namespace Interner

/-- One use; `none` when the probe loop does not end. -/
def use (s : Interner) : Use → Option Interner
  | .intern name file line =>
    match s.table.intern s.arena name file line with
    | none => none
    | some (id, table, arena) => some ⟨table, arena, s.calls ++ [⟨name, file, line, id⟩]⟩
  | .reset => some ⟨s.table.reset, s.arena.reset, []⟩

def useAll (s : Interner) : List Use → Option Interner
  | [] => some s
  | u :: us => (s.use u).bind (useAll · us)

/-- Uses one behind the other are one list of uses. -/
theorem useAll_append (s : Interner) (us more : List Use) :
    s.useAll (us ++ more) = (s.useAll us).bind (useAll · more) := by
  induction us generalizing s with
  | nil => rfl
  | cons u us ih =>
    rw [List.cons_append, useAll, useAll, Option.bind_assoc]
    congr 1
    funext s'
    exact ih s'

end Interner

/-! ## Identity -/

/-- What interning is for, as it shows in the numbers that the calls were given. -/
structure Interner.Identified (s : Interner) : Prop where
  same_iff : ∀ a ∈ s.calls, ∀ b ∈ s.calls, ∀ i j, a.id = some i → b.id = some j →
    (i = j ↔ a.name.take frameNameMax = b.name.take frameNameMax ∧
      a.file.take frameNameMax = b.file.take frameNameMax ∧ a.line = b.line)
  ids : ∀ i, (∃ a ∈ s.calls, a.id = some i) ↔ i < s.table.frames.length
  read_back : ∀ a ∈ s.calls, ∀ i, a.id = some i → ∃ frame, s.table.frames[i]? = some frame ∧
    (frame.key s.arena).name = a.name.take frameNameMax ∧
    (frame.key s.arena).file = a.file.take frameNameMax ∧ (frame.key s.arena).line = a.line
  /-- Full or not, the table finds what it has. -/
  found : ∀ a ∈ s.calls, ∀ i, a.id = some i → ∀ name file line,
    name.take frameNameMax = a.name.take frameNameMax → file.take frameNameMax = a.file.take frameNameMax →
    line = a.line → s.table.intern s.arena name file line = some (some i, s.table, s.arena)

/-- The table holds the identities that got a number, each under its number. -/
structure Interner.Ok (s : Interner) : Prop where
  valid : s.table.Valid s.arena
  named : ∀ a ∈ s.calls, ∀ i, a.id = some i → a.name ≠ [] ∧ (s.table.keys s.arena)[i]? = some a.key
  given : ∀ i < s.table.frames.length, ∃ a ∈ s.calls, a.id = some i

namespace Interner.Ok
variable {s s' : Interner}

/-- **The invariant is what interning is for.** -/
theorem identified (h : s.Ok) : s.Identified where
  same_iff := by
    intro a ha b hb i j hi hj
    obtain ⟨-, hkeyA⟩ := h.named a ha i hi
    obtain ⟨-, hkeyB⟩ := h.named b hb j hj
    have hkey : a.key = b.key ↔ a.name.take frameNameMax = b.name.take frameNameMax ∧
        a.file.take frameNameMax = b.file.take frameNameMax ∧ a.line = b.line := by
      unfold Interning.key FrameTable.keyOf
      exact FrameKey.mk.injEq .. ▸ Iff.rfl
    rw [← hkey]
    constructor
    -- Equal keys sit at one place of the table, so they have one number.
    · rintro rfl
      exact Option.some.inj (hkeyA.symm.trans hkeyB)
    · intro heq
      rw [heq] at hkeyA
      exact h.valid.chained.keys_inj i j _ (Nat.zero_le _) (Nat.zero_le _) hkeyA hkeyB
  ids := by
    intro i
    constructor
    · rintro ⟨a, ha, hi⟩
      obtain ⟨hlt, -⟩ := List.getElem?_eq_some_iff.mp (h.named a ha i hi).2
      rw [FrameTable.keys, List.length_map] at hlt
      exact hlt
    · exact h.given i
  read_back := by
    intro a ha i hi
    obtain ⟨-, hkey⟩ := h.named a ha i hi
    rw [FrameTable.keys, List.getElem?_map, Option.map_eq_some_iff] at hkey
    obtain ⟨frame, hframe, hkey⟩ := hkey
    exact ⟨frame, hframe, by rw [hkey]; rfl, by rw [hkey]; rfl, by rw [hkey]; rfl⟩
  found := by
    intro a ha i hi name file line hname hfile hline
    obtain ⟨hsome, hkey⟩ := h.named a ha i hi
    refine h.valid.intern_known ?_ ?_
    · rintro rfl
      rw [List.take_nil] at hname
      apply hsome
      have := (List.take_eq_nil_iff.mp hname.symm)
      unfold frameNameMax at this
      simpa using this
    · rw [hkey, Interning.key, FrameTable.keyOf, FrameTable.keyOf, hname, hfile, hline]

/-- A call that gets no number leaves the table as it was, but for its counters. -/
theorem refused (h : s.Ok) (hits : Nat) {arena : Arena} (hgrows : Arena.Grows s.arena arena) (name file : Bytes)
    (line : UInt32) :
    Interner.Ok ⟨{ s.table with capacityHits := hits }, arena, s.calls ++ [⟨name, file, line, none⟩]⟩ where
  valid := by
    have hvalid := h.valid.grows hgrows
    exact ⟨hvalid.arena_valid, hvalid.buckets_valid, hvalid.count_le, hvalid.sound, hvalid.chained⟩
  named := by
    intro a ha i hi
    rcases List.mem_append.mp ha with ha | ha
    · obtain ⟨hname, hkey⟩ := h.named a ha i hi
      exact ⟨hname, (h.valid.keys_grows hgrows).symm ▸ hkey⟩
    · rw [List.mem_singleton.mp ha] at hi
      cases hi
  given := by
    intro i hi
    obtain ⟨a, ha, hid⟩ := h.given i hi
    exact ⟨a, List.mem_append_left _ ha, hid⟩

/-- One call. -/
theorem intern (h : s.Ok) (name file : Bytes) (line : UInt32) :
    ∃ s', s.use (.intern name file line) = some s' ∧ s'.Ok := by
  obtain ⟨r, hr, hinterned⟩ := h.valid.intern name file line
  refine ⟨⟨r.2.1, r.2.2, s.calls ++ [⟨name, file, line, r.1⟩]⟩, by simp only [Interner.use, hr], ?_⟩
  -- A function without a name is refused before the table is looked at.
  by_cases hname : name = []
  · have hnothing : s.table.intern s.arena name file line = some (none, s.table, s.arena) :=
      if_pos (.inr (List.length_eq_zero_iff.mpr hname))
    obtain rfl := Option.some.inj (hnothing.symm.trans hr)
    exact h.refused s.table.capacityHits (.refl h.valid.arena_valid) name file line
  cases hinterned with
  | refused hits arena hgrows _ => exact h.refused hits hgrows name file line
  | found id hid =>
    refine ⟨h.valid, ?_, ?_⟩
    · intro a ha i hi
      rcases List.mem_append.mp ha with ha | ha
      · exact h.named a ha i hi
      · obtain rfl := List.mem_singleton.mp ha
        obtain rfl := Option.some.inj hi
        exact ⟨hname, hid⟩
    · intro i hi
      obtain ⟨a, ha, hid⟩ := h.given i hi
      exact ⟨a, List.mem_append_left _ ha, hid⟩
  | added table arena hnew hvalid hgrows hcap hkeys _ =>
    have hlen : (s.table.keys s.arena).length = s.table.frames.length := List.length_map _
    have hcount : table.frames.length = s.table.frames.length + 1 := by
      have heq := congrArg List.length hkeys
      rw [FrameTable.keys, List.length_map, List.length_append, hlen] at heq
      exact heq
    refine ⟨hvalid, ?_, ?_⟩
    · intro a ha i hi
      show a.name ≠ [] ∧ (table.keys arena)[i]? = some a.key
      rw [hkeys]
      rcases List.mem_append.mp ha with ha | ha
      · obtain ⟨hsome, hkey⟩ := h.named a ha i hi
        obtain ⟨hlt, -⟩ := List.getElem?_eq_some_iff.mp hkey
        exact ⟨hsome, by rw [List.getElem?_append_left hlt, hkey]⟩
      · obtain rfl := List.mem_singleton.mp ha
        obtain rfl := Option.some.inj hi
        exact ⟨hname, by rw [← hlen, List.getElem?_concat_length]; rfl⟩
    · intro i hi
      have hi : i < s.table.frames.length + 1 := hcount ▸ hi
      rcases Nat.lt_succ_iff_lt_or_eq.mp hi with hold | rfl
      · obtain ⟨a, ha, hid⟩ := h.given i hold
        exact ⟨a, List.mem_append_left _ ha, hid⟩
      · exact ⟨_, List.mem_append_right _ (List.mem_singleton_self _), rfl⟩

/-- A reset forgets all numbers. -/
theorem reset (h : s.Ok) : ∃ s', s.use .reset = some s' ∧ s'.Ok := by
  refine ⟨_, rfl, h.valid.reset h.valid.arena_valid.reset, nofun, fun i hi => ?_⟩
  have hframes : s.table.reset.frames = [] := FrameTable.frames_reset s.table
  rw [hframes] at hi
  exact absurd hi (Nat.not_lt_zero i)

/-- A run of calls and resets ends. -/
theorem useAll (h : s.Ok) (uses : List Use) : ∃ s', s.useAll uses = some s' ∧ s'.Ok := by
  induction uses generalizing s with
  | nil => exact ⟨s, rfl, h⟩
  | cons u us ih =>
    have hstep : ∃ s', s.use u = some s' ∧ s'.Ok := by
      cases u with
      | intern name file line => exact h.intern name file line
      | reset => exact h.reset
    obtain ⟨s', hs', hok⟩ := hstep
    rw [Interner.useAll, hs']
    exact ih hok

end Interner.Ok

/-- A table and an arena that have just been set up, of any size that the settings allow. -/
theorem Interner.ok_init {capacity : Nat} {slab : Bytes} {table : FrameTable} {arena : Arena}
    (htable : FrameTable.init capacity = some table) (harena : Arena.init slab = some arena)
    (hcap : capacity ≤ framesMax) (hslab : slab.length ≤ framesMax * arenaBytesPerFrame) :
    Interner.Ok ⟨table, arena, []⟩ := by
  have hvalid : arena.Valid := by
    unfold Arena.init at harena
    split at harena
    · cases harena
    · cases harena
      unfold framesMax arenaBytesPerFrame at hslab
      refine ⟨Nat.zero_le _, ?_⟩
      show slab.length < 2 ^ 32 - 8
      omega
  have hframes : table.frames = [] := by
    unfold FrameTable.init at htable
    split at htable <;> cases htable
    rfl
  have hmax : capacity ≤ capacityMax := hcap.trans (by decide)
  refine ⟨FrameTable.valid_init htable hmax hvalid, nofun, fun i hi => ?_⟩
  rw [hframes] at hi
  exact absurd hi (Nat.not_lt_zero i)

/-- **Interning is identity.** However a table and its arena have been used since they were set up, the
probe loops have ended, and the calls since the last reset got numbers that identify what they asked for. -/
theorem identified_of_useAll {capacity : Nat} {slab : Bytes} {table : FrameTable} {arena : Arena}
    (htable : FrameTable.init capacity = some table) (harena : Arena.init slab = some arena)
    (hcap : capacity ≤ framesMax) (hslab : slab.length ≤ framesMax * arenaBytesPerFrame) (uses : List Use) :
    ∃ s, Interner.useAll ⟨table, arena, []⟩ uses = some s ∧ s.Identified := by
  obtain ⟨s, hs, hok⟩ := (Interner.ok_init htable harena hcap hslab).useAll uses
  exact ⟨s, hs, hok.identified⟩

/-- The smallest table that can be set up, with its arena. -/
def Interner.smallest : Interner where
  table := ⟨[], framesMin, fun _ => 0, bucketCount framesMin - 1, 0⟩
  arena := ⟨List.replicate (framesMin * arenaBytesPerFrame) 0, 0, 0, 0⟩
  calls := []

namespace Interner

theorem table_smallest : FrameTable.init framesMin = some smallest.table := if_neg (by decide)

theorem slab_smallest : smallest.arena.base.length = framesMin * arenaBytesPerFrame := List.length_replicate

theorem arena_smallest : Arena.init smallest.arena.base = some smallest.arena :=
  if_neg (by rw [slab_smallest]; decide)

theorem slab_smallest_le : smallest.arena.base.length ≤ framesMax * arenaBytesPerFrame := by
  rw [slab_smallest]
  decide

end Interner

/-- A function that is interned before and after a reset, and again after another one. A call without a name is
refused. -/
theorem identified_of_useAll_smallest :
    ∃ s, Interner.useAll ⟨Interner.smallest.table, Interner.smallest.arena, []⟩
        [.intern (ascii "main") [] 0, .reset, .intern (ascii "main") [] 0,
          .intern (ascii "run") (ascii "/app/run.php") 3, .intern (ascii "main") [] 0,
          .intern [] (ascii "/app/run.php") 7] = some s ∧
      s.calls.map Interning.id = [some 0, some 1, some 0, none] ∧ s.Identified := by
  obtain ⟨s, hs, hidentified⟩ := identified_of_useAll Interner.table_smallest Interner.arena_smallest (by decide)
    Interner.slab_smallest_le [.intern (ascii "main") [] 0, .reset, .intern (ascii "main") [] 0,
      .intern (ascii "run") (ascii "/app/run.php") 3, .intern (ascii "main") [] 0,
      .intern [] (ascii "/app/run.php") 7]
  have hids : (Interner.useAll ⟨Interner.smallest.table, Interner.smallest.arena, []⟩
      [.intern (ascii "main") [] 0, .reset, .intern (ascii "main") [] 0,
        .intern (ascii "run") (ascii "/app/run.php") 3, .intern (ascii "main") [] 0,
        .intern [] (ascii "/app/run.php") 7]).map (fun s => s.calls.map Interning.id) =
      some [some 0, some 1, some 0, none] := by
    decide +kernel
  rw [hs] at hids
  exact ⟨s, hs, Option.some.inj hids, hidentified⟩

end CboxTelemetry.Profiler
