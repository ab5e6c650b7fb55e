import CboxTelemetry.Profiler.Buckets

/-!
# Frame interning

A frame is one function: its name, its file and the line of its declaration. The table gives each
identity it sees a number, from 0 up, and finds it again through the buckets. Names live in the arena.

A table is valid together with the arena that holds its names (`FrameTable.Valid`): the buckets are a
chained table of the identities read back from the arena. On a valid table the probe loop ends, and
interning changes the table in two ways only (`FrameTable.Valid.intern`).
-/

namespace CboxTelemetry.Profiler

def frameNameMax : Nat := 320

/-- What tells one frame from another. -/
structure FrameKey where
  name : Bytes
  file : Bytes
  line : UInt32
  deriving DecidableEq

/-- The strings that a new frame puts into the arena; an empty file is left out. -/
def FrameKey.strings (key : FrameKey) : List Bytes :=
  if 0 < key.file.length then [key.name, key.file] else [key.name]

/-- `cbox_frame`. `CBOX_ARENA_NONE` is `none`. -/
structure Frame where
  hash : UInt32
  nameOff : Nat
  fileOff : Option Nat
  line : UInt32
  nameLen : Nat
  fileLen : Nat
  deriving DecidableEq

/-- `cbox_frame_table`. `frames` holds the `count` frames in use; the rest of the allocation, which the
table only ever writes before it counts it, is left out. A cleared table has capacity 0. -/
structure FrameTable where
  frames : List Frame
  capacity : Nat
  buckets : Nat → Nat
  bucketMask : Nat
  capacityHits : Nat

/-! ## Hashing -/

/-- `cbox_fnv1a`. -/
def fnv1a (bytes : Bytes) (seed : UInt32) : UInt32 :=
  bytes.foldl (fun hash b => (hash ^^^ b.toUInt32) * 16777619) seed

/-- The hash of an identity; the bytes of the line are hashed as they lie in memory. -/
def FrameKey.hash (key : FrameKey) : UInt32 :=
  let hash := fnv1a key.name 2166136261
  let hash := if 0 < key.file.length then fnv1a key.file hash else hash
  fnv1a (le 4 key.line.toNat) hash

/-- The identity that a frame stands for. -/
def Frame.key (arena : Arena) (f : Frame) : FrameKey where
  name := arena.read f.nameOff f.nameLen
  file := match f.fileOff with
    | none => []
    | some off => arena.read off f.fileLen
  line := f.line

namespace FrameTable

/-- A table that `cbox_frames_destroy` has cleared. -/
def cleared : FrameTable := ⟨[], 0, fun _ => 0, 0, 0⟩

/-- `cbox_frames_init`, when the two allocations succeed. -/
def init (capacity : Nat) : Option FrameTable :=
  if capacity = 0 then none
  else some ⟨[], capacity, fun _ => 0, bucketCount capacity - 1, 0⟩

/-- `cbox_frames_reset`. -/
def reset (t : FrameTable) : FrameTable :=
  if 0 < t.frames.length then { t with frames := [], buckets := fun _ => 0, capacityHits := 0 }
  else { t with capacityHits := 0 }

/-- The comparison inside the probe loop. -/
def hit (t : FrameTable) (arena : Arena) (key : FrameKey) (id : Nat) : Bool :=
  match t.frames[id]? with
  | none => false
  | some frame =>
    frame.hash == key.hash
      && frame.line == key.line
      && frame.nameLen == key.name.length
      && arena.read frame.nameOff key.name.length == key.name
      && frame.fileLen == key.file.length
      && (key.file.length == 0
        || match frame.fileOff with
          | none => false
          | some off => arena.read off key.file.length == key.file)

/-- A frame that finds no room in the table or in the arena. -/
def refuse (t : FrameTable) : FrameTable := { t with capacityHits := u32 (t.capacityHits + 1) }

/-- What `cbox_frames_intern` does for an identity that it has not seen, when the probe has ended at
`slot`. -/
def add (t : FrameTable) (arena : Arena) (key : FrameKey) (slot : Nat) :
    Option Nat × FrameTable × Arena :=
  if t.capacity ≤ t.frames.length then (none, t.refuse, arena)
  else
    match arena.put key.name with
    | (none, arena) => (none, t.refuse, arena)
    | (some nameOff, arena) =>
      match if 0 < key.file.length then arena.put key.file else (none, arena) with
      | (fileOff, arena) =>
        -- A refused file leaves its name in the arena, with nothing that points to it.
        if 0 < key.file.length ∧ fileOff = none then (none, t.refuse, arena)
        else
          let frame : Frame := ⟨key.hash, nameOff, fileOff, key.line, key.name.length, key.file.length⟩
          (some t.frames.length,
            { t with
              frames := t.frames ++ [frame]
              buckets := Function.update t.buckets slot (t.frames.length + 1) },
            arena)

/-- `cbox_frames_intern`. The identifier is `none` for `CBOX_FRAME_NONE`; the whole result is `none`
when the probe loop does not end. -/
def intern (t : FrameTable) (arena : Arena) (name file : Bytes) (line : UInt32) :
    Option (Option Nat × FrameTable × Arena) :=
  if t.capacity = 0 ∨ name.length = 0 then some (none, t, arena)
  else
    let key : FrameKey := ⟨name.take frameNameMax, file.take frameNameMax, line⟩
    let slot := key.hash.toNat &&& t.bucketMask
    match OpenAddressing.probe (nextSlot t.bucketMask) t.buckets (t.hit arena key) (t.bucketMask + 1)
      slot with
    | none => none
    | some (.found id) => some (some id, t, arena)
    | some (.free slot) => some (t.add arena key slot)

end FrameTable

/-! ## Valid tables -/

/-- A frame whose strings are in the arena, with the hash of its identity. -/
structure Frame.Sound (arena : Arena) (f : Frame) : Prop where
  hash_eq : f.hash = (f.key arena).hash
  name_inside : f.nameOff + f.nameLen ≤ arena.used
  file_none : f.fileOff = none → f.fileLen = 0
  file_inside : ∀ off, f.fileOff = some off → off + f.fileLen ≤ arena.used

namespace FrameTable

/-- The identities of the frames, in the order of their numbers. -/
def keys (t : FrameTable) (arena : Arena) : List FrameKey := t.frames.map (Frame.key arena)

/-- The table and the arena of its names. -/
structure Valid (t : FrameTable) (arena : Arena) : Prop where
  arena_valid : arena.Valid
  buckets_valid : BucketsValid t.bucketMask t.capacity
  count_le : t.frames.length ≤ t.capacity
  sound : ∀ f ∈ t.frames, f.Sound arena
  chained : OpenAddressing.Chained (t.bucketMask + 1) 0 (fun key : FrameKey => key.hash.toNat)
    t.buckets (t.keys arena)

end FrameTable

/-! ## Strings that stay where they are -/

section grows
variable {a a' : Arena} {f : Frame}

/-- A read inside the filled part has the length asked for. -/
theorem read_length (hvalid : a.Valid) {offset len : Nat} (h : offset + len ≤ a.used) :
    (a.read offset len).length = len := by
  have hused := hvalid.used_le
  unfold Arena.size at hused
  rw [Arena.read, List.length_take, List.length_drop]
  omega

/-- A sound entry keeps its key while the arena grows. -/
theorem Frame.Sound.key_eq (h : f.Sound a) (hgrows : Arena.Grows a a') : f.key a' = f.key a := by
  have hname := hgrows.read_eq _ _ h.name_inside
  cases hoff : f.fileOff with
  | none => simp only [Frame.key, hoff, hname]
  | some off =>
    have hfile := hgrows.read_eq _ _ (h.file_inside off hoff)
    simp only [Frame.key, hoff, hname, hfile]

/-- And stays sound. -/
theorem Frame.Sound.grows (h : f.Sound a) (hgrows : Arena.Grows a a') : f.Sound a' where
  hash_eq := by rw [h.key_eq hgrows, h.hash_eq]
  name_inside := h.name_inside.trans hgrows.used_le
  file_none := h.file_none
  file_inside off hoff := (h.file_inside off hoff).trans hgrows.used_le

theorem Frame.Sound.name_length (h : f.Sound a) (hvalid : a.Valid) :
    (f.key a).name.length = f.nameLen :=
  read_length hvalid h.name_inside

/-- The file's length in the entry is the length of the file. -/
theorem Frame.Sound.file_length (h : f.Sound a) (hvalid : a.Valid) :
    (f.key a).file.length = f.fileLen := by
  cases hoff : f.fileOff with
  | none => simp only [Frame.key, hoff, List.length_nil, h.file_none hoff]
  | some off => simp only [Frame.key, hoff, read_length hvalid (h.file_inside off hoff)]

/-- A frame puts its name first. -/
theorem FrameKey.filled_name_le (key : FrameKey) :
    a.cursor + (key.name.length + 1) ≤ Arena.filled a.used key.strings := by
  unfold FrameKey.strings
  split
  · exact Arena.le_filled _ [key.file]
  · exact Nat.le_refl _

end grows

namespace FrameTable
variable {t : FrameTable} {arena arena' : Arena}

/-- A table keeps its keys while the arena grows. -/
theorem Valid.keys_grows (h : t.Valid arena) (hgrows : Arena.Grows arena arena') :
    t.keys arena' = t.keys arena := by
  unfold keys
  refine List.map_congr_left ?_
  intro f hf
  exact (h.sound f hf).key_eq hgrows

/-- And stays valid. -/
theorem Valid.grows (h : t.Valid arena) (hgrows : Arena.Grows arena arena') : t.Valid arena' where
  arena_valid := hgrows.valid
  buckets_valid := h.buckets_valid
  count_le := h.count_le
  sound f hf := (h.sound f hf).grows hgrows
  chained := by
    rw [h.keys_grows hgrows]
    exact h.chained

/-! ## The probe -/

/-- The comparison is a comparison of identities. -/
theorem Valid.hit_iff (h : t.Valid arena) (key : FrameKey) {id : Nat} {key' : FrameKey}
    (hkey : (t.keys arena)[id]? = some key') : t.hit arena key id = true ↔ key' = key := by
  obtain ⟨frame, hframe, rfl⟩ : ∃ f, t.frames[id]? = some f ∧ f.key arena = key' := by
    rw [keys, List.getElem?_map, Option.map_eq_some_iff] at hkey
    exact hkey
  have hsound := h.sound frame (List.mem_of_getElem? hframe)
  have hname := hsound.name_length h.arena_valid
  have hfile := hsound.file_length h.arena_valid
  simp only [hit, hframe, Bool.and_eq_true, Bool.or_eq_true, beq_iff_eq]
  constructor
  -- The comparisons of the source, one after the other: line, name and file.
  · rintro ⟨⟨⟨⟨⟨-, hline⟩, hnameLen⟩, hnameEq⟩, hfileLen⟩, hfileEq⟩
    have hnameKey : (frame.key arena).name = key.name := by
      simp only [Frame.key]
      rw [hnameLen, hnameEq]
    have hfileKey : (frame.key arena).file = key.file := by
      rcases hfileEq with hzero | hread
      · rw [hzero] at hfileLen
        rw [List.eq_nil_of_length_eq_zero hzero, List.eq_nil_of_length_eq_zero (hfile.trans hfileLen)]
      · cases hoff : frame.fileOff with
        | none => rw [hoff] at hread; cases hread
        | some off =>
          simp only [hoff, beq_iff_eq] at hread
          simp only [Frame.key, hoff]
          rw [hfileLen, hread]
    cases key
    exact FrameKey.mk.injEq .. ▸ ⟨hnameKey, hfileKey, hline⟩
  · rintro rfl
    refine ⟨⟨⟨⟨⟨hsound.hash_eq, rfl⟩, hname.symm⟩, ?_⟩, hfile.symm⟩, ?_⟩
    · rw [hname]
      rfl
    · cases hoff : frame.fileOff with
      | none =>
        left
        rw [hfile, hsound.file_none hoff]
      | some off =>
        right
        rw [hfile]
        simp only [Frame.key, hoff, beq_self_eq_true]

/-! ## Interning -/

/-- There is room for one more frame of this identity. -/
structure HasRoom (t : FrameTable) (arena : Arena) (key : FrameKey) : Prop where
  table : t.frames.length < t.capacity
  arena : Arena.filled arena.used key.strings ≤ arena.size

/-- What interning `key` can come to. Nothing with a name is refused that is in the table or for which
there is room, and nothing is added twice. -/
inductive Interned (t : FrameTable) (arena : Arena) (key : FrameKey) :
    Option Nat × FrameTable × Arena → Prop
  | refused (hits : Nat) (arena' : Arena) : Arena.Grows arena arena' →
      (key.name ≠ [] → key ∉ t.keys arena ∧ ¬t.HasRoom arena key) →
      Interned t arena key (none, { t with capacityHits := hits }, arena')
  | found (id : Nat) : (t.keys arena)[id]? = some key → Interned t arena key (some id, t, arena)
  | added (t' : FrameTable) (arena' : Arena) : key ∉ t.keys arena → t'.Valid arena' → Arena.Grows arena arena' →
      t'.capacity = t.capacity → t'.keys arena' = t.keys arena ++ [key] →
      arena'.used = Arena.filled arena.used key.strings →
      Interned t arena key (some t.frames.length, t', arena')

/-- A frame whose name and file have just been stored stands for the identity they were taken from. -/
theorem key_of_stored {key : FrameKey} {nameOff : Nat} {o : Option Nat}
    (hname : arena.Stored nameOff key.name) (hnone : o = none → key.file = [])
    (hfile : ∀ off, o = some off → arena.Stored off key.file) :
    let f : Frame := ⟨key.hash, nameOff, o, key.line, key.name.length, key.file.length⟩
    f.key arena = key ∧ f.Sound arena := by
  intro f
  have hkey : f.key arena = key := by
    cases hoff : o with
    | none =>
      have := hnone hoff
      cases key
      simp only [f, Frame.key, hoff, hname.read_eq] at this ⊢
      rw [this]
    | some off =>
      have := (hfile off hoff).read_eq
      cases key
      simp only [f, Frame.key, hoff, hname.read_eq] at this ⊢
      rw [this]
  refine ⟨hkey, ?_, hname.inside, ?_, ?_⟩
  · rw [hkey]
  · intro hoff
    exact List.length_eq_zero_iff.mpr (hnone hoff)
  · intro off hoff
    exact (hfile off hoff).inside

section add
variable {key : FrameKey} {slot : Nat}

/-- Publishing a frame for a new identity at the slot where its probe has ended. -/
theorem Valid.publish (h : t.Valid arena) (hgrows : Arena.Grows arena arena') {f : Frame}
    (hkey : f.key arena' = key) (hsound : f.Sound arena') (hroom : t.frames.length < t.capacity)
    (hnew : key ∉ t.keys arena) {d : Nat} (hd : d < t.bucketMask + 1)
    (hslot : slot = (key.hash.toNat + d) % (t.bucketMask + 1)) (hfree : t.buckets slot = 0)
    (htaken : ∀ j < d, t.buckets ((key.hash.toNat + j) % (t.bucketMask + 1)) ≠ 0) :
    let t' : FrameTable := { t with
      frames := t.frames ++ [f], buckets := Function.update t.buckets slot (t.frames.length + 1) }
    t'.Valid arena' ∧ t'.keys arena' = t.keys arena ++ [key] := by
  intro t'
  have hvalid := h.grows hgrows
  have hkeys : t'.keys arena' = t.keys arena ++ [key] := by
    rw [← h.keys_grows hgrows]
    show (t.frames ++ [f]).map (Frame.key arena') = _
    rw [List.map_append, List.map_singleton, hkey]
    rfl
  refine ⟨⟨hvalid.arena_valid, hvalid.buckets_valid, ?_, ?_, ?_⟩, hkeys⟩
  · show (t.frames ++ [f]).length ≤ t.capacity
    rw [List.length_append]
    exact hroom
  · intro g hg
    rcases List.mem_append.mp hg with hold | hnew
    · exact hvalid.sound g hold
    · rw [List.mem_singleton.mp hnew]
      exact hsound
  · rw [hkeys]
    have hlen : (t.keys arena).length = t.frames.length := List.length_map _
    have hinsert := h.chained.insert (Nat.zero_le _)
      (fun id _ hid => hnew (List.mem_of_getElem? hid)) hd (hslot ▸ hfree) htaken
    rw [hlen, ← hslot] at hinsert
    exact hinsert

/-- What is left of `cbox_frames_intern` once the probe has ended at an empty slot. -/
theorem Valid.add (h : t.Valid arena) (hname : key.name.length ≤ frameNameMax)
    (hfile : key.file.length ≤ frameNameMax) (hnew : key ∉ t.keys arena) {d : Nat}
    (hd : d < t.bucketMask + 1) (hslot : slot = (key.hash.toNat + d) % (t.bucketMask + 1))
    (hfree : t.buckets slot = 0)
    (htaken : ∀ j < d, t.buckets ((key.hash.toNat + j) % (t.bucketMask + 1)) ≠ 0) :
    Interned t arena key (t.add arena key slot) := by
  have hsmall : ∀ bytes : Bytes, bytes.length ≤ frameNameMax → bytes.length + 1 < 2 ^ 32 := by
    intro bytes hle
    unfold frameNameMax at hle
    omega
  unfold FrameTable.add
  split
  -- The table is full, then the arena is, for the name or behind it for the file. Otherwise the
  -- entry is added.
  next hfull =>
    refine .refused _ _ (.refl h.arena_valid) fun _ => ⟨hnew, fun hroom => ?_⟩
    exact absurd hroom.table (Nat.not_lt.mpr hfull)
  next hroom =>
    rw [Nat.not_le] at hroom
    obtain ⟨hnone, n, hput⟩ | ⟨a₁, hput, hgrows₁, hstored, htight₁⟩ :=
      Arena.put_spec h.arena_valid (hsmall _ hname)
    · rw [hput]
      refine .refused _ _ (.exhausted h.arena_valid n) fun _ => ⟨hnew, fun hhas => ?_⟩
      exact absurd (key.filled_name_le.trans hhas.arena) (Nat.not_le.mpr hnone)
    · simp only [hput]
      by_cases hempty : 0 < key.file.length
      · have hstrings : Arena.filled arena.used key.strings = a₁.cursor + (key.file.length + 1) := by
          rw [FrameKey.strings, if_pos hempty, Arena.cursor, htight₁]
          rfl
        simp only [hempty, if_true, true_and]
        obtain ⟨hnone, n, hput₂⟩ | ⟨a₂, hput₂, hgrows₂, hstored₂, htight₂⟩ :=
          Arena.put_spec hgrows₁.valid (hsmall _ hfile)
        · simp only [hput₂, if_true]
          refine .refused _ _ (hgrows₁.trans (.exhausted hgrows₁.valid n)) fun _ => ⟨hnew, fun hhas => ?_⟩
          have hle := hhas.arena
          rw [hstrings, ← hgrows₁.size_eq] at hle
          exact absurd hle (Nat.not_le.mpr hnone)
        · simp only [hput₂, reduceCtorEq, if_false]
          have hgrows := hgrows₁.trans hgrows₂
          obtain ⟨hkey, hsound⟩ := key_of_stored (o := some a₁.cursor) (hstored.grows hgrows₂)
            (fun hno => absurd hno (Option.some_ne_none _)) (fun off hoff => Option.some.inj hoff ▸ hstored₂)
          obtain ⟨hvalid, hkeys⟩ := h.publish hgrows hkey hsound hroom hnew hd hslot hfree htaken
          exact .added _ _ hnew hvalid hgrows rfl hkeys (htight₂.trans hstrings.symm)
      · have hstrings : Arena.filled arena.used key.strings = arena.cursor + (key.name.length + 1) := by
          rw [FrameKey.strings, if_neg hempty]
          rfl
        simp only [hempty, if_false, false_and]
        have hnil : key.file = [] := List.eq_nil_of_length_eq_zero (Nat.eq_zero_of_not_pos hempty)
        obtain ⟨hkey, hsound⟩ := key_of_stored (o := none) hstored (fun _ => hnil)
          (fun off hoff => absurd hoff.symm (Option.some_ne_none off))
        obtain ⟨hvalid, hkeys⟩ := h.publish hgrows₁ hkey hsound hroom hnew hd hslot hfree htaken
        exact .added _ _ hnew hvalid hgrows₁ rfl hkeys (htight₁.trans hstrings.symm)

end add

/-- The identity that `cbox_frames_intern` looks for. -/
def keyOf (name file : Bytes) (line : UInt32) : FrameKey :=
  ⟨name.take frameNameMax, file.take frameNameMax, line⟩

theorem Valid.hit_keys (h : t.Valid arena) (key : FrameKey) :
    ∀ id key', 0 ≤ id → (t.keys arena)[id]? = some key' → (t.hit arena key id = true ↔ key' = key) :=
  fun _ _ _ hid => h.hit_iff key hid

/-- A table with a key has room for entries. -/
theorem Valid.capacity_ne_zero (h : t.Valid arena) {key : FrameKey} (hmem : key ∈ t.keys arena) :
    t.capacity ≠ 0 := by
  have hcount := h.count_le
  have hlen : 0 < (t.keys arena).length := List.length_pos_of_mem hmem
  rw [keys, List.length_map] at hlen
  omega

/-- An identity that is in the table is found, and nothing changes. -/
theorem Valid.intern_known (h : t.Valid arena) {name file : Bytes} {line : UInt32} (hname : name ≠ []) {id : Nat}
    (hid : (t.keys arena)[id]? = some (keyOf name file line)) :
    t.intern arena name file line = some (some id, t, arena) := by
  have hcap := h.capacity_ne_zero (List.mem_of_getElem? hid)
  have hlen : name.length ≠ 0 := fun hzero => hname (List.eq_nil_of_length_eq_zero hzero)
  have hhome := h.buckets_valid.and_mask (keyOf name file line).hash.toNat
  have hprobe := h.chained.probe_found h.buckets_valid.nextSlot_eq (h.hit_keys _) (Nat.zero_le id) hid
  rw [← hhome] at hprobe
  unfold FrameTable.intern
  rw [if_neg (by omega)]
  simp only [keyOf] at hprobe
  simp only [hprobe]

/-- The probe for an identity that is not in the table ends at a free slot. -/
theorem Valid.intern_new (h : t.Valid arena) {name file : Bytes} {line : UInt32} (hcap : t.capacity ≠ 0)
    (hname : name ≠ []) (hnew : keyOf name file line ∉ t.keys arena) :
    ∃ d < t.bucketMask + 1,
      t.intern arena name file line = some (t.add arena (keyOf name file line)
        (((keyOf name file line).hash.toNat + d) % (t.bucketMask + 1))) ∧
      t.buckets (((keyOf name file line).hash.toNat + d) % (t.bucketMask + 1)) = 0 ∧
      ∀ j < d, t.buckets (((keyOf name file line).hash.toNat + j) % (t.bucketMask + 1)) ≠ 0 := by
  have hlen : name.length ≠ 0 := fun hzero => hname (List.eq_nil_of_length_eq_zero hzero)
  have hhome := h.buckets_valid.and_mask (keyOf name file line).hash.toNat
  have hload : (t.keys arena).length < t.bucketMask + 1 := by
    rw [keys, List.length_map]
    exact h.count_le.trans_lt h.buckets_valid.load
  obtain ⟨d, hd, hprobe, hfree, htaken⟩ := h.chained.probe_free h.buckets_valid.nextSlot_eq hload
    (h.hit_keys _) (fun id _ hid => hnew (List.mem_of_getElem? hid))
  refine ⟨d, hd, ?_, hfree, htaken⟩
  rw [← hhome] at hprobe
  unfold FrameTable.intern
  rw [if_neg (by omega)]
  simp only [keyOf] at hprobe ⊢
  simp only [hprobe]

/-- **Interning on a valid table** ends, and does one of three things. -/
theorem Valid.intern (h : t.Valid arena) (name file : Bytes) (line : UInt32) :
    ∃ r, t.intern arena name file line = some r ∧ Interned t arena (keyOf name file line) r := by
  by_cases hnothing : t.capacity = 0 ∨ name.length = 0
  · refine ⟨_, if_pos hnothing, .refused t.capacityHits arena (.refl h.arena_valid) fun hname => ?_⟩
    -- A table without room, or a function without a name.
    rcases hnothing with hcap | hlen
    · refine ⟨fun hmem => h.capacity_ne_zero hmem hcap, fun hroom => ?_⟩
      have hlt := hroom.table
      omega
    · exfalso
      rw [keyOf, List.eq_nil_of_length_eq_zero hlen] at hname
      exact hname List.take_nil
  · obtain ⟨hcap, hlen⟩ := not_or.mp hnothing
    have hname : name ≠ [] := fun hnil => hlen (List.length_eq_zero_iff.mpr hnil)
    by_cases hmem : keyOf name file line ∈ t.keys arena
    · obtain ⟨id, hid⟩ := List.mem_iff_getElem?.mp hmem
      exact ⟨_, h.intern_known hname hid, .found id hid⟩
    · obtain ⟨d, hd, hintern, hfree, htaken⟩ := h.intern_new hcap hname hmem
      exact ⟨_, hintern, h.add (List.length_take_le _ _) (List.length_take_le _ _) hmem hd rfl hfree htaken⟩

/-! ## Setting up and resetting -/

/-- A table that was just made is valid. -/
theorem valid_init {capacity : Nat} {t : FrameTable} (ht : init capacity = some t)
    (hcap : capacity ≤ capacityMax) (ha : arena.Valid) : t.Valid arena := by
  unfold init at ht
  split at ht
  · cases ht
  next hpos =>
    cases ht
    refine ⟨ha, bucketsValid_bucketCount (Nat.pos_of_ne_zero hpos) hcap, Nat.zero_le _, ?_, ?_⟩
    · intro f hf
      cases hf
    · exact .empty (fun _ _ => rfl) (Nat.le_refl _)

/-- A reset table has no entries. -/
theorem frames_reset (t : FrameTable) : t.reset.frames = [] := by
  unfold reset
  split
  · rfl
  next hnone => exact List.eq_nil_of_length_eq_zero (Nat.eq_zero_of_not_pos hnone)

@[simp] theorem capacity_reset (t : FrameTable) : t.reset.capacity = t.capacity := by
  unfold reset
  split <;> rfl

@[simp] theorem bucketMask_reset (t : FrameTable) : t.reset.bucketMask = t.bucketMask := by
  unfold reset
  split <;> rfl

/-- A reset leaves clear buckets: those of a table without frames are clear already. -/
theorem Valid.buckets_reset (h : t.Valid arena) : ∀ s < t.bucketMask + 1, t.reset.buckets s = 0 := by
  intro s hs
  unfold FrameTable.reset
  split
  · rfl
  next hnone =>
    by_contra hne
    obtain ⟨id, hid⟩ := Nat.exists_eq_succ_of_ne_zero hne
    have := (h.chained.of_bucket s hs id hid).2
    rw [keys, List.length_map] at this
    omega

/-- A reset leaves an empty table, whatever becomes of the arena at the same time. -/
theorem Valid.reset (h : t.Valid arena) (ha : arena'.Valid) : t.reset.Valid arena' := by
  have hframes := frames_reset t
  refine ⟨ha, ?_, ?_, ?_, ?_⟩
  · rw [capacity_reset, bucketMask_reset]
    exact h.buckets_valid
  · rw [hframes]
    exact Nat.zero_le _
  · intro f hf
    rw [hframes] at hf
    cases hf
  · rw [bucketMask_reset]
    refine .empty h.buckets_reset ?_
    rw [keys, hframes]
    exact Nat.le_refl _

end FrameTable

end CboxTelemetry.Profiler
