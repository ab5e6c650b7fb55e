import CboxTelemetry.Profiler.Functions

/-!
# Tables that cannot be told apart

Two profilers can differ in what lies between the strings of their arenas and in the slots behind their
buckets, and yet number the same frames and nodes in the same way from now on. Each function of the two
tables takes tables that are alike to tables that are alike, with the same result.
-/

namespace CboxTelemetry.Profiler

/-! ## Arenas -/

namespace Arena
variable {a a' : Arena}

/-- The cursor is at the same place, in slabs of the same size. -/
structure Level (a a' : Arena) : Prop where
  used_eq : a'.used = a.used
  size_eq : a'.size = a.size

/-- Two arenas filled to one level allocate at the same place. -/
theorem Level.alloc (h : Level a a') (bytes : Nat) :
    (a'.alloc bytes).1 = (a.alloc bytes).1 ∧ Level (a.alloc bytes).2 (a'.alloc bytes).2 := by
  have hslab : a'.base = [] ↔ a.base = [] := by
    rw [← List.length_eq_zero_iff, ← List.length_eq_zero_iff]
    exact Eq.congr_left h.size_eq
  unfold Arena.alloc
  simp only [hslab, h.used_eq, h.size_eq]
  split
  · exact ⟨rfl, h⟩
  · split
    · exact ⟨rfl, rfl, h.size_eq⟩
    · exact ⟨rfl, rfl, h.size_eq⟩

/-- They put a string at the same place. -/
theorem Level.put (h : Level a a') (bytes : Bytes) :
    (a'.put bytes).1 = (a.put bytes).1 ∧ Level (a.put bytes).2 (a'.put bytes).2 := by
  obtain ⟨hslot, hlevel⟩ := h.alloc (bytes.length + 1)
  unfold Arena.put
  generalize a.alloc (bytes.length + 1) = r at hslot hlevel
  generalize a'.alloc (bytes.length + 1) = r' at hslot hlevel
  obtain ⟨slot, b⟩ := r
  obtain ⟨slot', b'⟩ := r'
  cases hslot
  cases slot with
  | none => exact ⟨rfl, hlevel⟩
  | some slot =>
    have hsize : b'.base.length = b.base.length := hlevel.size_eq
    refine ⟨rfl, hlevel.used_eq, ?_⟩
    show (InPlace.overwrite b'.base slot (bytes ++ [0])).length =
      (InPlace.overwrite b.base slot (bytes ++ [0])).length
    simp only [InPlace.overwrite, List.length_append, List.length_take, List.length_drop, hsize]

end Arena

/-! ## Frame tables -/

namespace FrameTable
variable {t t' : FrameTable} {a a' : Arena} {key : FrameKey}

/-- The tables are laid out in the same way, in the bucket array and in the arena. -/
structure Level (t : FrameTable) (a : Arena) (t' : FrameTable) (a' : Arena) : Prop where
  arena : a.Level a'
  frames_eq : t'.frames = t.frames
  capacity_eq : t'.capacity = t.capacity
  bucketMask_eq : t'.bucketMask = t.bucketMask
  capacityHits_eq : t'.capacityHits = t.capacityHits
  buckets_eq : ∀ s < t.bucketMask + 1, t'.buckets s = t.buckets s

/-- Both are valid, and their frames stand for the same functions. -/
structure Alike (t : FrameTable) (a : Arena) (t' : FrameTable) (a' : Arena) : Prop
    extends Level t a t' a' where
  valid : t.Valid a
  valid' : t'.Valid a'
  keys_eq : t'.keys a' = t.keys a

/-- Two tables at one level refuse at one level. -/
theorem Level.refuse (h : Level t a t' a') : Level t.refuse a t'.refuse a' where
  arena := h.arena
  frames_eq := h.frames_eq
  capacity_eq := h.capacity_eq
  bucketMask_eq := h.bucketMask_eq
  capacityHits_eq := by
    show u32 (t'.capacityHits + 1) = u32 (t.capacityHits + 1)
    rw [h.capacityHits_eq]
  buckets_eq := h.buckets_eq

/-- The arenas do not matter but for their cursors. -/
theorem Level.setArena (h : Level t a t' a') {b b' : Arena} (hb : b.Level b') : Level t b t' b' where
  arena := hb
  frames_eq := h.frames_eq
  capacity_eq := h.capacity_eq
  bucketMask_eq := h.bucketMask_eq
  capacityHits_eq := h.capacityHits_eq
  buckets_eq := h.buckets_eq

/-- They add a function at the same bucket. -/
theorem Level.push (h : Level t a t' a') (f : Frame) (slot : Nat) :
    Level
      { t with
        frames := t.frames ++ [f], buckets := Function.update t.buckets slot (t.frames.length + 1) } a
      { t' with
        frames := t'.frames ++ [f], buckets := Function.update t'.buckets slot (t'.frames.length + 1) } a' where
  arena := h.arena
  frames_eq := by
    show t'.frames ++ [f] = t.frames ++ [f]
    rw [h.frames_eq]
  capacity_eq := h.capacity_eq
  bucketMask_eq := h.bucketMask_eq
  capacityHits_eq := h.capacityHits_eq
  buckets_eq s hs := by
    show Function.update t'.buckets slot (t'.frames.length + 1) s =
      Function.update t.buckets slot (t.frames.length + 1) s
    rw [Function.update_apply, Function.update_apply, h.buckets_eq s hs, h.frames_eq]

/-- Adding a function succeeds in both or in neither. -/
theorem Level.add (h : Level t a t' a') (key : FrameKey) (slot : Nat) :
    (t'.add a' key slot).1 = (t.add a key slot).1 ∧
      Level (t.add a key slot).2.1 (t.add a key slot).2.2 (t'.add a' key slot).2.1
        (t'.add a' key slot).2.2 := by
  obtain ⟨hname, hlevel⟩ := h.arena.put key.name
  unfold FrameTable.add
  simp only [h.capacity_eq, h.frames_eq]
  split
  · exact ⟨rfl, h.refuse⟩
  · generalize a.put key.name = r at hname hlevel
    generalize a'.put key.name = r' at hname hlevel
    obtain ⟨nameOff, b⟩ := r
    obtain ⟨nameOff', b'⟩ := r'
    cases hname
    cases nameOff with
    | none => exact ⟨rfl, h.refuse.setArena hlevel⟩
    | some nameOff =>
      simp only
      by_cases hfile : 0 < key.file.length
      -- The file's name comes behind the function's, and either can find the arena full.
      · obtain ⟨hoff, hlevel₂⟩ := hlevel.put key.file
        simp only [hfile, if_true, true_and]
        generalize Arena.put b key.file = r at hoff hlevel₂
        generalize Arena.put b' key.file = r' at hoff hlevel₂
        obtain ⟨fileOff, c⟩ := r
        obtain ⟨fileOff', c'⟩ := r'
        cases hoff
        simp only
        split
        · exact ⟨rfl, h.refuse.setArena hlevel₂⟩
        · have hpush := h.push ⟨key.hash, nameOff, fileOff, key.line, key.name.length, key.file.length⟩ slot
          rw [h.frames_eq, h.capacity_eq] at hpush
          exact ⟨rfl, hpush.setArena hlevel₂⟩
      · simp only [hfile, if_false, false_and]
        have hpush := h.push ⟨key.hash, nameOff, none, key.line, key.name.length, key.file.length⟩ slot
        rw [h.frames_eq, h.capacity_eq] at hpush
        exact ⟨trivial, hpush.setArena hlevel⟩

/-- The comparisons of the probe loop come out the same. -/
theorem Alike.hit_eq (h : Alike t a t' a') (key : FrameKey) (id : Nat) : t'.hit a' key id = t.hit a key id := by
  rcases Nat.lt_or_ge id (t.keys a).length with hlt | hge
  · have hget := List.getElem?_eq_getElem hlt
    have hget' : (t'.keys a')[id]? = some (t.keys a)[id] := by rw [h.keys_eq, hget]
    rw [Bool.eq_iff_iff, h.valid.hit_iff key hget, h.valid'.hit_iff key hget']
  · rw [keys, List.length_map] at hge
    have hnone : t.frames[id]? = none := List.getElem?_eq_none hge
    unfold FrameTable.hit
    rw [h.frames_eq, hnone]

/-- Interning keeps a table valid. -/
theorem Interned.valid {id : Option Nat} {t₁ : FrameTable} {a₁ : Arena} (h : Interned t a key (id, t₁, a₁))
    (hvalid : t.Valid a) : t₁.Valid a₁ := by
  cases h with
  | refused hits _ hgrows _ =>
    obtain ⟨harena, hbuckets, hcount, hsound, hchained⟩ := hvalid.grows hgrows
    exact ⟨harena, hbuckets, hcount, hsound, hchained⟩
  | found _ _ => exact hvalid
  | added _ _ _ hvalid₁ _ _ _ _ => exact hvalid₁

/-- **Interning** gives the same number in both tables. -/
theorem Alike.intern (h : Alike t a t' a') (name file : Bytes) (line : UInt32) :
    ∃ id t₁ a₁ t₁' a₁', t.intern a name file line = some (id, t₁, a₁) ∧
      t'.intern a' name file line = some (id, t₁', a₁') ∧ Alike t₁ a₁ t₁' a₁' := by
  have hvalid := h.valid
  have hvalid' := h.valid'
  obtain ⟨⟨id, t₁, a₁⟩, hintern, hcases⟩ := hvalid.intern name file line
  obtain ⟨⟨id', t₁', a₁'⟩, hintern', hcases'⟩ := hvalid'.intern name file line
  have hlevel : id' = id ∧ Level t₁ a₁ t₁' a₁' := by
    unfold FrameTable.intern at hintern hintern'
    simp only [h.capacity_eq] at hintern'
    split at hintern
    · next hnothing =>
      rw [if_pos hnothing] at hintern'
      cases hintern
      cases hintern'
      exact ⟨rfl, h.toLevel⟩
    · next hsome =>
      have hbuckets := hvalid.buckets_valid
      have hnext : ∀ s, nextSlot t.bucketMask s < t.bucketMask + 1 := fun s => by
        rw [hbuckets.nextSlot_eq]
        exact Nat.mod_lt _ (Nat.succ_pos _)
      have hhome : (keyOf name file line).hash.toNat &&& t.bucketMask < t.bucketMask + 1 := by
        rw [hbuckets.and_mask]
        exact Nat.mod_lt _ (Nat.succ_pos _)
      -- The same buckets are taken in both, so the probe ends at the same place.
      have hprobe := OpenAddressing.probe_congr (t.bucketMask + 1) hnext h.buckets_eq
        (h.hit_eq (keyOf name file line)) hhome
      rw [if_neg hsome, h.bucketMask_eq] at hintern'
      simp only [keyOf] at hprobe
      simp only [hprobe] at hintern'
      simp only at hintern
      generalize OpenAddressing.probe (nextSlot t.bucketMask) t.buckets _ _ _ = probed at hintern hintern'
      rcases probed with _ | ⟨_ | slot⟩
      · cases hintern
      · cases hintern
        cases hintern'
        exact ⟨rfl, h.toLevel⟩
      · have hadd := h.toLevel.add (keyOf name file line) slot
        rw [show t.add a (keyOf name file line) slot = (id, t₁, a₁) from Option.some.inj hintern,
          show t'.add a' (keyOf name file line) slot = (id', t₁', a₁') from Option.some.inj hintern'] at hadd
        exact hadd
  obtain ⟨rfl, hlevel⟩ := hlevel
  refine ⟨id', t₁, a₁, t₁', a₁', hintern, hintern', hlevel, hcases.valid hvalid, hcases'.valid hvalid', ?_⟩
  -- The same number means that both have found the function, or both have added it, or neither.
  cases hcases with
  | refused hits _ hgrows _ =>
    cases hcases' with
    | refused hits' _ hgrows' _ =>
      exact (hvalid'.keys_grows hgrows').trans (h.keys_eq.trans (hvalid.keys_grows hgrows).symm)
  | found id hget =>
    cases hcases' with
    | found _ _ => exact h.keys_eq
    | added _ _ _ _ _ _ _ _ =>
      have hlt := (List.getElem?_eq_some_iff.mp hget).1
      rw [keys, List.length_map, h.frames_eq] at hlt
      exact absurd hlt (Nat.lt_irrefl _)
  | added _ _ _ _ _ _ hkeys _ =>
    generalize hid : t.frames.length = id at hcases'
    cases hcases' with
    | found _ hget =>
      have hlt := (List.getElem?_eq_some_iff.mp hget).1
      rw [keys, List.length_map, h.frames_eq, hid] at hlt
      exact absurd hlt (Nat.lt_irrefl _)
    | added _ _ _ _ _ _ hkeys' _ => rw [hkeys, hkeys', h.keys_eq]

end FrameTable

/-! ## Call trees -/

namespace StackTree
variable {t t' : StackTree}

/-- The trees have the same nodes, and find them in the same way. -/
structure Alike (t t' : StackTree) : Prop where
  buckets_valid : BucketsValid t.bucketMask t.capacity
  nodes_eq : t'.nodes = t.nodes
  capacity_eq : t'.capacity = t.capacity
  bucketMask_eq : t'.bucketMask = t.bucketMask
  capacityHits_eq : t'.capacityHits = t.capacityHits
  total_eq : t'.total = t.total
  buckets_eq : ∀ s < t.bucketMask + 1, t'.buckets s = t.buckets s

/-- What a function of the tree returns in both. -/
def AlikeResult (r r' : Option Nat × StackTree) : Prop := r'.1 = r.1 ∧ Alike r.2 r'.2

/-- A child is found, or added, or refused, in both trees alike. -/
theorem Alike.child (h : Alike t t') (parent frameId : Nat) :
    Option.Rel AlikeResult (t.child parent frameId) (t'.child parent frameId) := by
  have hnext : ∀ s, nextSlot t.bucketMask s < t.bucketMask + 1 := fun s => by
    rw [h.buckets_valid.nextSlot_eq]
    exact Nat.mod_lt _ (Nat.succ_pos _)
  have hhome : (edgeHash (parent, frameId)).toNat &&& t.bucketMask < t.bucketMask + 1 := by
    rw [h.buckets_valid.and_mask]
    exact Nat.mod_lt _ (Nat.succ_pos _)
  have hhit : ∀ id, t'.hit (parent, frameId) id = t.hit (parent, frameId) id := fun id => by
    rw [hit, hit, h.nodes_eq]
  have hprobe := OpenAddressing.probe_congr (t.bucketMask + 1) hnext h.buckets_eq hhit hhome
  unfold StackTree.child
  rw [h.nodes_eq, h.capacity_eq, h.bucketMask_eq]
  simp only [hprobe]
  split
  · exact .some ⟨rfl, h⟩
  · generalize OpenAddressing.probe _ _ _ _ _ = probed
    rcases probed with _ | ⟨_ | slot⟩
    · exact .none
    · exact .some ⟨rfl, h⟩
    · simp only
      split
      · refine .some ⟨rfl, h.buckets_valid, rfl, rfl, rfl, ?_, h.total_eq, h.buckets_eq⟩
        show u32 (t'.capacityHits + 1) = u32 (t.capacityHits + 1)
        rw [h.capacityHits_eq]
      · refine .some ⟨rfl, h.buckets_valid, rfl, rfl, rfl, h.capacityHits_eq, h.total_eq, fun s hs => ?_⟩
        show Function.update t'.buckets slot (t.nodes.length + 1) s =
          Function.update t.buckets slot (t.nodes.length + 1) s
        rw [Function.update_apply, Function.update_apply, h.buckets_eq s hs]

/-- A path leads to the same node in both. -/
theorem Alike.descend (h : Alike t t') (node : Nat) (path : List Nat) :
    Option.Rel AlikeResult (t.descend node path) (t'.descend node path) := by
  induction path generalizing t t' node with
  | nil => exact .some ⟨rfl, h⟩
  | cons frameId path ih =>
    have hchild := h.child node frameId
    unfold StackTree.descend
    generalize t.child node frameId = r at hchild
    generalize t'.child node frameId = r' at hchild
    cases hchild with
    | none => exact .none
    | @some r r' hresult =>
      obtain ⟨id, t₁⟩ := r
      obtain ⟨id', t₁'⟩ := r'
      obtain ⟨hid, hnext⟩ := hresult
      cases hid
      cases id with
      | none => exact .some ⟨rfl, hnext⟩
      | some id => exact ih hnext id

/-- Booking a weight keeps them alike. -/
theorem Alike.record (h : Alike t t') (node weight : Nat) : Alike (t.record node weight) (t'.record node weight) := by
  unfold StackTree.record
  rw [h.nodes_eq, h.capacity_eq]
  split
  · exact h
  · refine ⟨h.buckets_valid, rfl, rfl, h.bucketMask_eq, h.capacityHits_eq, ?_, h.buckets_eq⟩
    show u64 (t'.total + weight) = u64 (t.total + weight)
    rw [h.total_eq]

end StackTree

end CboxTelemetry.Profiler
