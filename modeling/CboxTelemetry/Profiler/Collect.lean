import CboxTelemetry.Profiler.Capacity
import CboxTelemetry.Profiler.Sampling

/-!
# What one sample books

`Stored` is what holds of the storage of a ready profiler between any two of its functions. On it every
probe loop ends, so `collect` does (`Stored.collect`), and it does one of two things: it drops the whole
weight, or it adds the weight to one node, the one at the end of the sample's path.
-/

namespace CboxTelemetry.Profiler

open StackTree (IsPath)

namespace State

/-- Frame `id` stands for the identity `key`. -/
def KeyAt (s : State) (id : Nat) (key : FrameKey) : Prop := (s.frames.keys s.arena)[id]? = some key

/-- What `cbox_profiler_truncation_frame` interns. -/
def truncationKey : FrameKey := FrameTable.keyOf (ascii "<truncated>") [] 0

/-- What `cbox_profiler_engine_frame` interns. -/
def engineKey : FrameKey := FrameTable.keyOf (ascii "<engine>") [] 0

/-- The tables of a ready profiler: both are valid, no node names a frame that is not there, and the two
markers are the frames they are meant to be. -/
structure Stored (s : State) : Prop where
  frames : s.frames.Valid s.arena
  tree : s.tree.Valid
  frame_lt : ∀ (id : Nat) (edge : Nat × Nat), 1 ≤ id → s.tree.edges[id]? = some edge →
    edge.2 < s.frames.frames.length
  truncated_key : ∀ id, s.truncatedFrame = some id → s.KeyAt id truncationKey
  engine_key : ∀ id, s.engineFrame = some id → s.KeyAt id engineKey

/-- `s'` is `s` with some more frames interned. -/
structure Framed (s s' : State) : Prop where
  eq : s' = { s with
    arena := s'.arena
    frames := s'.frames
    truncatedFrame := s'.truncatedFrame
    engineFrame := s'.engineFrame }
  stored : s'.Stored
  keys : s.frames.keys s.arena <+: s'.frames.keys s'.arena

variable {s s' s'' : State}

theorem Framed.refl (h : s.Stored) : Framed s s := ⟨rfl, h, List.prefix_rfl⟩

/-- Two steps on the frames are one. -/
theorem Framed.trans (h : Framed s s') (h' : Framed s' s'') : Framed s s'' where
  eq := by
    have heq := h'.eq
    rw [h.eq] at heq
    exact heq
  stored := h'.stored
  keys := h.keys.trans h'.keys

theorem Framed.length_le (h : Framed s s') : s.frames.frames.length ≤ s'.frames.frames.length := by
  have := h.keys.length_le
  rwa [FrameTable.keys, FrameTable.keys, List.length_map, List.length_map] at this

theorem Framed.tree_eq (h : Framed s s') : s'.tree = s.tree := by rw [h.eq]

theorem Framed.samples_eq (h : Framed s s') : s'.samples = s.samples := by rw [h.eq]

theorem Framed.dropped_eq (h : Framed s s') : s'.dropped = s.dropped := by rw [h.eq]

/-- What the profiler keeps besides its tables does not matter to them. -/
theorem Stored.of_eq (h : s.Stored) (harena : s'.arena = s.arena) (hframes : s'.frames = s.frames)
    (htree : s'.tree = s.tree) (htruncated : s'.truncatedFrame = s.truncatedFrame)
    (hengine : s'.engineFrame = s.engineFrame) : s'.Stored where
  frames := by
    rw [hframes, harena]
    exact h.frames
  tree := by
    rw [htree]
    exact h.tree
  frame_lt := by
    rw [htree, hframes]
    exact h.frame_lt
  truncated_key := by
    unfold KeyAt
    rw [htruncated, hframes, harena]
    exact h.truncated_key
  engine_key := by
    unfold KeyAt
    rw [hengine, hframes, harena]
    exact h.engine_key

/-- Ticks touch their two counters. -/
theorem foldl_tick_eq (ticks : List Nat) (s : State) : ticks.foldl tick s = { s with
    pendingTicks := (ticks.foldl tick s).pendingTicks
    pendingDeliveries := (ticks.foldl tick s).pendingDeliveries } := by
  induction ticks generalizing s with
  | nil => rfl
  | cons n ticks ih => exact ih (s.tick n)

theorem Stored.ticks (h : s.Stored) (ticks : List Nat) : (ticks.foldl tick s).Stored := by
  rw [foldl_tick_eq]
  exact h.of_eq rfl rfl rfl rfl rfl

/-! ## Frames -/

theorem KeyAt.lt {id : Nat} {key : FrameKey} (h : s.KeyAt id key) : id < s.frames.frames.length := by
  obtain ⟨hlt, -⟩ := List.getElem?_eq_some_iff.mp h
  rwa [FrameTable.keys, List.length_map] at hlt

/-- Frames that are interned keep their numbers. -/
theorem KeyAt.extend {id : Nat} {key : FrameKey} (h : s.KeyAt id key)
    (hkeys : s.frames.keys s.arena <+: s'.frames.keys s'.arena) : s'.KeyAt id key := by
  obtain ⟨more, hmore⟩ := hkeys
  obtain ⟨hlt, -⟩ := List.getElem?_eq_some_iff.mp h
  unfold KeyAt
  rw [← hmore, List.getElem?_append_left hlt]
  exact h

/-- Other valid tables with at least the old frames. -/
theorem Stored.framed (h : s.Stored) {frames : FrameTable} {arena : Arena} (hvalid : frames.Valid arena)
    (hkeys : s.frames.keys s.arena <+: frames.keys arena) :
    Framed s { s with frames := frames, arena := arena } := by
  have hle : s.frames.frames.length ≤ frames.frames.length := by
    have := hkeys.length_le
    rwa [FrameTable.keys, FrameTable.keys, List.length_map, List.length_map] at this
  refine ⟨rfl, ⟨hvalid, h.tree, ?_, ?_, ?_⟩, hkeys⟩
  · intro id edge hid hedge
    exact (h.frame_lt id edge hid hedge).trans_le hle
  · intro id hid
    exact (h.truncated_key id hid).extend hkeys
  · intro id hid
    exact (h.engine_key id hid).extend hkeys

/-- An identifier that interning `key` has returned is that of its frame. -/
def IdOf (s : State) (key : FrameKey) (r : Option Nat) : Prop := ∀ id, r = some id → s.KeyAt id key

/-- Interning `keys` has come to `r` and `s'`, and it was the tables that decided: they take `keys` and
whatever is interned next exactly when `r` is not a refusal and the tables of `s'` take the rest. -/
def Settles {α : Type*} (s : State) (keys : List FrameKey) (r : Option α) (s' : State) : Prop :=
  ∀ more, s.frames.Takes s.arena (keys ++ more) ↔ r.isSome = true ∧ s'.frames.Takes s'.arena more

/-- Two lists of functions that settle one behind the other settle as one. -/
theorem Settles.trans {α β : Type*} {keys more : List FrameKey} {r : Option α} {r' : Option β}
    (h : s.Settles keys r s') (hr : r.isSome = true) (h' : s'.Settles more r' s'') :
    s.Settles (keys ++ more) r' s'' := by
  intro rest
  rw [List.append_assoc, h, h']
  exact and_iff_right hr

/-- A refusal is one for all that is interned with it. -/
theorem Settles.refused {α β : Type*} {keys : List FrameKey} (h : s.Settles keys (none : Option α) s')
    (more : List FrameKey) : s.Settles (keys ++ more) (none : Option β) s'' := by
  intro rest
  rw [List.append_assoc, h]
  exact iff_of_false nofun nofun

/-- Interning these and no more succeeds exactly when the tables take them. -/
theorem Settles.isSome_iff {α : Type*} {keys : List FrameKey} {r : Option α} (h : s.Settles keys r s')
    (h' : s'.Stored) : r.isSome = true ↔ s.frames.Takes s.arena keys := by
  have hall := h []
  rw [List.append_nil, and_iff_left h'.frames.takes_nil] at hall
  exact hall.symm

/-- A name that is empty is refused. -/
theorem settles_unnamed {name : Bytes} (hname : name = []) (file : Bytes) (line : UInt32) :
    s.Settles [FrameTable.keyOf name file line] (none : Option Nat) s' := by
  intro more
  refine iff_of_false (fun htakes => ?_) nofun
  refine htakes.named _ (List.mem_append_left _ List.mem_cons_self) ?_
  rw [FrameTable.keyOf, hname]
  exact List.take_nil

/-- Interning a function gives it its number, or refuses it. -/
theorem Stored.intern (h : s.Stored) (name file : Bytes) (line : UInt32) :
    ∃ r s', s.intern name file line = some (r, s') ∧ Framed s s' ∧
      s'.IdOf (FrameTable.keyOf name file line) r ∧
      s'.truncatedFrame = s.truncatedFrame ∧ s'.engineFrame = s.engineFrame ∧
      s.Settles [FrameTable.keyOf name file line] r s' := by
  obtain ⟨⟨r, frames, arena⟩, hintern, hcases⟩ := h.frames.intern name file line
  have hsettles : s.Settles [FrameTable.keyOf name file line] r { s with frames := frames, arena := arena } := by
    by_cases hname : name = []
    · have hnothing : s.frames.intern s.arena name file line = some (none, s.frames, s.arena) :=
        if_pos (.inr (by rw [hname]; rfl))
      cases hintern.symm.trans hnothing
      exact settles_unnamed hname file line
    · intro more
      refine hcases.takes_iff fun hnil => ?_
      rcases List.take_eq_nil_iff.mp hnil with hzero | hempty
      · cases hzero
      · exact hname hempty
  unfold State.intern
  rw [hintern]
  refine ⟨_, _, rfl, ?_, ?_, rfl, rfl, hsettles⟩
  -- Refused, found or added: in each case the old keys stay where they are.
  · cases hcases with
    | refused hits arena' hgrows _ =>
      have hvalid := h.frames.grows hgrows
      refine h.framed ⟨hvalid.arena_valid, hvalid.buckets_valid, hvalid.count_le, hvalid.sound,
        hvalid.chained⟩ ?_
      have hkeys := h.frames.keys_grows hgrows
      exact hkeys ▸ List.prefix_rfl
    | found id _ => exact h.framed h.frames List.prefix_rfl
    | added t' arena' _ hvalid _ _ hkeys _ =>
      refine h.framed hvalid ?_
      rw [hkeys]
      exact List.prefix_append _ _
  · intro id hid
    cases hcases with
    | refused hits arena' _ _ => cases hid
    | found id' hget =>
      cases hid
      exact hget
    | added t' arena' _ _ _ _ hkeys _ =>
      cases hid
      show (frames.keys arena)[s.frames.frames.length]? = _
      have hlen : (s.frames.keys s.arena).length = s.frames.frames.length := List.length_map _
      rw [hkeys, ← hlen, List.getElem?_concat_length]

/-- What `cbox_profiler_frame_for` interns for a function. -/
def frameKey (f : ZendFunction) : FrameKey :=
  FrameTable.keyOf (frameName f) (if f.userCode then f.filename.getD [] else [])
    (if f.userCode then f.lineStart else 0)

/-- So it is with the function of a stack frame. -/
theorem Stored.frameFor (h : s.Stored) (f : ZendFunction) :
    ∃ r s', s.frameFor f = some (r, s') ∧ Framed s s' ∧ s'.IdOf (frameKey f) r ∧
      s.Settles [frameKey f] r s' := by
  obtain ⟨r, s', hintern, hframed, hid, -, -, hsettles⟩ := h.intern (frameName f)
    (if f.userCode then f.filename.getD [] else []) (if f.userCode then f.lineStart else 0)
  exact ⟨r, s', hintern, hframed, hid, hsettles⟩

/-- A marker that has been interned before is there. -/
theorem KeyAt.settles {id : Nat} {key : FrameKey} (h : s.KeyAt id key) (hname : key.name ≠ []) :
    s.Settles [key] (some id) s := by
  intro more
  rw [List.singleton_append, FrameTable.takes_cons_known (List.mem_of_getElem? h)]
  exact and_congr_left fun _ => iff_of_true hname rfl

/-- The marker of an empty stack is interned like any function, once. -/
theorem Stored.engineFrameId (h : s.Stored) :
    ∃ r s', s.engineFrameId = some (r, s') ∧ Framed s s' ∧ s'.IdOf engineKey r ∧
      s.Settles [engineKey] r s' := by
  unfold State.engineFrameId
  cases hengine : s.engineFrame with
  | some id =>
    refine ⟨_, _, rfl, .refl h, ?_, (h.engine_key id hengine).settles (by decide)⟩
    intro id' hid'
    cases hid'
    exact h.engine_key id hengine
  | none =>
    obtain ⟨r, s', hintern, hframed, hid, -, -, hsettles⟩ := h.intern (ascii "<engine>") [] 0
    simp only [hintern]
    refine ⟨_, _, rfl, ⟨?_, ?_, hframed.keys⟩, hid, hsettles⟩
    · rw [hframed.eq]
    · obtain ⟨hframes, htree, hlt, htruncated, -⟩ := hframed.stored
      exact ⟨hframes, htree, hlt, htruncated, hid⟩

/-- The marker of a truncated stack is interned like any function, once. -/
theorem Stored.truncationFrameId (h : s.Stored) :
    ∃ r s', s.truncationFrameId = some (r, s') ∧ Framed s s' ∧ s'.IdOf truncationKey r ∧
      s.Settles [truncationKey] r s' := by
  unfold State.truncationFrameId
  cases htruncated : s.truncatedFrame with
  | some id =>
    refine ⟨_, _, rfl, .refl h, ?_, (h.truncated_key id htruncated).settles (by decide)⟩
    intro id' hid'
    cases hid'
    exact h.truncated_key id htruncated
  | none =>
    obtain ⟨r, s', hintern, hframed, hid, -, -, hsettles⟩ := h.intern (ascii "<truncated>") [] 0
    simp only [hintern]
    refine ⟨_, _, rfl, ⟨?_, ?_, hframed.keys⟩, hid, hsettles⟩
    · rw [hframed.eq]
    · obtain ⟨hframes, htree, hlt, -, hengine⟩ := hframed.stored
      exact ⟨hframes, htree, hlt, hid, hengine⟩

/-! ## The walk -/

/-- The frames of a path stand for these identities. -/
def OnKeys (s : State) (path : List Nat) (keys : List FrameKey) : Prop := List.Forall₂ s.KeyAt path keys

section onKeys
variable {path : List Nat} {keys : List FrameKey} {id : Nat} {key : FrameKey}

theorem OnKeys.framed (h : s.OnKeys path keys) (hframed : Framed s s') : s'.OnKeys path keys :=
  h.imp fun _ _ hkey => hkey.extend hframed.keys

theorem OnKeys.concat (h : s.OnKeys path keys) (hkey : s.KeyAt id key) :
    s.OnKeys (path ++ [id]) (keys ++ [key]) :=
  List.rel_append h (.cons hkey .nil)

theorem OnKeys.reverse (h : s.OnKeys path keys) : s.OnKeys path.reverse keys.reverse :=
  List.rel_reverse h

/-- The numbers of a path are in the table. -/
theorem OnKeys.lt (h : s.OnKeys path keys) : ∀ id ∈ path, id < s.frames.frames.length := by
  induction h with
  | nil => exact nofun
  | cons hkey _ ih =>
    intro id hid
    rcases List.mem_cons.mp hid with rfl | hrest
    · exact hkey.lt
    · exact ih id hrest

end onKeys

/-- The functions of a stack; frames without one are skipped. -/
def functions (stack : Stack) : List ZendFunction := stack.filterMap fun frame => frame

/-- Interning functions one after the other, up to the first that is refused. -/
def internAll : List ZendFunction → State → List Nat → Option (Option (List Nat) × State)
  | [], s, ids => some (some ids, s)
  | f :: fs, s, ids =>
    match s.frameFor f with
    | none => none
    | some (none, s) => some (none, s)
    | some (some id, s) => internAll fs s (ids ++ [id])

/-- The walk interns the innermost functions, as many as the limit allows, and tells whether there were
more. -/
theorem walk_eq {maxDepth : Nat} (stack : Stack) (s : State) {ids : List Nat}
    (hids : ids.length ≤ maxDepth) :
    walk maxDepth stack s ids =
      (internAll ((functions stack).take (maxDepth - ids.length)) s ids).map fun r =>
        match r.1 with
        | none => (.dropped, r.2)
        | some ids' => (.walked ids' (decide (maxDepth < ids.length + (functions stack).length)), r.2) := by
  -- By induction on the stack: the walk passes frames without a function over, stops at the depth, and
  -- interns the others.
  induction stack generalizing s ids with
  | nil =>
    have hno : ¬maxDepth < ids.length + (functions []).length := Nat.not_lt.mpr hids
    rw [decide_eq_false hno]
    cases hleft : maxDepth - ids.length <;> rfl
  | cons frame stack ih =>
    cases frame with
    | none => exact ih s hids
    | some f =>
      have hfunctions : functions (some f :: stack) = f :: functions stack := rfl
      rw [hfunctions, walk]
      split
      -- Deep enough: the walk stops, and says that there was more.
      next hdeep =>
        have heq : maxDepth - ids.length = 0 := by omega
        have hmore : maxDepth < ids.length + (f :: functions stack).length := by
          rw [List.length_cons]
          omega
        rw [heq, List.take_zero, decide_eq_true hmore]
        rfl
      next hroom =>
        obtain ⟨left, hleft⟩ : ∃ left, maxDepth - ids.length = left + 1 :=
          Nat.exists_eq_add_one.mpr (Nat.sub_pos_of_lt (Nat.lt_of_not_le hroom))
        rw [hleft, List.take_succ_cons, internAll]
        cases s.frameFor f with
        | none => rfl
        | some r =>
          obtain ⟨id, s₁⟩ := r
          cases id with
          | none => rfl
          | some id =>
            have hlen : (ids ++ [id]).length = ids.length + 1 := List.length_append
            have hnext : maxDepth - (ids ++ [id]).length = left := by omega
            have hcount : (ids ++ [id]).length + (functions stack).length =
                ids.length + (f :: functions stack).length := by
              rw [hlen, List.length_cons]
              omega
            simp only
            rw [ih s₁ (by omega), hnext, hcount]

/-- Interning functions ends. Where none is refused, the numbers are those of their frames. -/
theorem Stored.internAll (h : s.Stored) (fs : List ZendFunction) {ids : List Nat} {keys : List FrameKey}
    (hids : s.OnKeys ids keys) :
    ∃ r s', State.internAll fs s ids = some (r, s') ∧ Framed s s' ∧ s.Settles (fs.map frameKey) r s' ∧
      ∀ ids', r = some ids' → s'.OnKeys ids' (keys ++ fs.map frameKey) := by
  induction fs generalizing s ids keys with
  | nil =>
    refine ⟨_, _, rfl, .refl h, fun more => (and_iff_right rfl).symm, ?_⟩
    rintro ids' ⟨⟩
    rw [List.map_nil, List.append_nil]
    exact hids
  | cons f fs ih =>
    obtain ⟨r, s₁, hframe, hframed, hid, hsettles⟩ := h.frameFor f
    unfold State.internAll
    cases r with
    | none =>
      simp only [hframe]
      exact ⟨_, _, rfl, hframed, hsettles.refused _, nofun⟩
    | some id =>
      simp only [hframe]
      have hids₁ := (hids.framed hframed).concat (hid id rfl)
      obtain ⟨r, s', hrest, hframed', hsettles', hpath⟩ := ih hframed.stored hids₁
      refine ⟨r, s', hrest, hframed.trans hframed', hsettles.trans rfl hsettles', ?_⟩
      intro ids' hids'
      have := hpath ids' hids'
      rwa [List.append_assoc, List.singleton_append] at this

theorem depthLimit_pos (s : State) : 0 < s.depthLimit := by
  unfold depthLimit profilerDepthHardMax
  split <;> omega

/-- The innermost functions of a stack, as many as the limit allows: their identities, outermost
first. -/
def innermostKeys (maxDepth : Nat) (stack : Stack) : List FrameKey :=
  (((functions stack).take maxDepth).map frameKey).reverse

/-- What a sample on `stack` is to be booked on, from the root down: all its functions; or, where there
are more than the limit, the marker and the innermost of them; or the engine, where there are none. -/
def sampleKeys (maxDepth : Nat) (stack : Stack) : List FrameKey :=
  if functions stack = [] then [engineKey]
  else if maxDepth < (functions stack).length then truncationKey :: innermostKeys maxDepth stack
  else innermostKeys maxDepth stack

/-- The frame table has the identities of a path or takes them; the walk meets the innermost first. -/
def TakesFrames (s : State) (keys : List FrameKey) : Prop := s.frames.Takes s.arena keys.reverse

/-- A deep stack is sampled as its innermost functions under the marker. -/
theorem sampleKeys_deep {maxDepth : Nat} {stack : Stack} (hdeep : maxDepth < (functions stack).length) :
    sampleKeys maxDepth stack = truncationKey :: innermostKeys maxDepth stack := by
  have hsome : functions stack ≠ [] := by
    intro hnil
    rw [hnil] at hdeep
    exact absurd hdeep (Nat.not_lt_zero _)
  rw [sampleKeys, if_neg hsome, if_pos hdeep]

/-- One that is not is sampled as it is. -/
theorem sampleKeys_shallow {maxDepth : Nat} {stack : Stack} (hsome : functions stack ≠ [])
    (hdeep : ¬maxDepth < (functions stack).length) :
    sampleKeys maxDepth stack = innermostKeys maxDepth stack := by
  rw [sampleKeys, if_neg hsome, if_neg hdeep]

/-- And an empty one as the engine. -/
theorem sampleKeys_nil {maxDepth : Nat} {stack : Stack} (hnone : functions stack = []) :
    sampleKeys maxDepth stack = [engineKey] := if_pos hnone

/-- How finding the path of a sample can come out: a frame is refused; or the path is the one that it
is to be; or the stack is too deep and the marker is refused, and the path is that of a stack which is
not. -/
inductive SampledPath (s : State) (stack : Stack) : Option (List Nat) → State → Prop
  | refused (s' : State) : ¬s.TakesFrames (sampleKeys s.depthLimit stack) →
      (s.depthLimit < (functions stack).length → ¬s.TakesFrames (innermostKeys s.depthLimit stack)) →
      SampledPath s stack none s'
  | found (path : List Nat) (s' : State) : s.TakesFrames (sampleKeys s.depthLimit stack) →
      s'.OnKeys path (sampleKeys s.depthLimit stack) → SampledPath s stack (some path) s'
  | unmarked (path : List Nat) (s' : State) : s.depthLimit < (functions stack).length →
      s.TakesFrames (innermostKeys s.depthLimit stack) → ¬s.TakesFrames (sampleKeys s.depthLimit stack) →
      s'.OnKeys path (innermostKeys s.depthLimit stack) → SampledPath s stack (some path) s'

/-- A marker goes on top of the frames that have been interned. -/
theorem takesFrames_marker {keys : List FrameKey} {key : FrameKey} :
    s.TakesFrames (key :: keys) ↔ s.frames.Takes s.arena (keys.reverse ++ [key]) := by
  rw [TakesFrames, List.reverse_cons]

/-- The walk over the stack ends: with the numbers of its innermost functions, or with none of them
where one is refused. -/
theorem Stored.walk (h : s.Stored) (stack : Stack) :
    ∃ r s', State.walk s.depthLimit stack s [] = some (match r with
        | none => .dropped
        | some ids => .walked ids (decide (s.depthLimit < (functions stack).length)), s') ∧
      Framed s s' ∧ s.Settles (innermostKeys s.depthLimit stack).reverse r s' ∧
      ∀ ids, r = some ids → s'.OnKeys ids.reverse (innermostKeys s.depthLimit stack) := by
  obtain ⟨r, s', hintern, hframed, hsettles, hids⟩ :=
    h.internAll ((functions stack).take s.depthLimit) (.nil : s.OnKeys [] [])
  have hempty : ([] : List Nat).length ≤ s.depthLimit := Nat.zero_le _
  have hwalk := walk_eq stack s hempty
  rw [List.length_nil, Nat.sub_zero, Nat.zero_add, hintern] at hwalk
  refine ⟨r, s', ?_, hframed, ?_, ?_⟩
  · rw [hwalk]
    cases r <;> rfl
  · rw [innermostKeys, List.reverse_reverse]
    exact hsettles
  · intro ids hr
    exact (hids ids hr).reverse

/-- A stack that is too deep has its marker interned behind its functions. -/
theorem Framed.samplePath_marked (hframed : Framed s s') {stack : Stack}
    (hdeep : s.depthLimit < (functions stack).length) {ids : List Nat}
    (hwalk : State.walk s.depthLimit stack s [] = some (.walked ids true, s'))
    (hsettles : s.Settles (innermostKeys s.depthLimit stack).reverse (some ids) s')
    (hkeys : s'.OnKeys ids.reverse (innermostKeys s.depthLimit stack)) :
    ∃ r s'', s.samplePath stack = some (r, s'') ∧ Framed s s'' ∧ SampledPath s stack r s'' := by
  obtain ⟨r, s'', hmarker, hframed', hid, hsettles'⟩ := hframed.stored.truncationFrameId
  have hall : r.isSome = true ↔ s.TakesFrames (sampleKeys s.depthLimit stack) := by
    rw [sampleKeys_deep hdeep, takesFrames_marker]
    exact (hsettles.trans rfl hsettles').isSome_iff hframed'.stored
  have hinner : s.TakesFrames (innermostKeys s.depthLimit stack) :=
    (hsettles.isSome_iff hframed.stored).mp rfl
  unfold State.samplePath
  simp only [hwalk, hmarker]
  cases r with
  | none =>
    refine ⟨_, _, rfl, hframed.trans hframed', ?_⟩
    exact .unmarked _ s'' hdeep hinner (fun htakes => absurd (hall.mpr htakes) nofun) (hkeys.framed hframed')
  | some marker =>
    refine ⟨_, _, rfl, hframed.trans hframed', .found _ _ (hall.mp rfl) ?_⟩
    rw [sampleKeys_deep hdeep]
    exact .cons (hid marker rfl) (hkeys.framed hframed')

/-- An empty stack is sampled under a marker of its own. -/
theorem Stored.samplePath_engine (h : s.Stored) {stack : Stack} (hnone : functions stack = [])
    (hwalk : State.walk s.depthLimit stack s [] = some (.walked [] false, s)) :
    ∃ r s', s.samplePath stack = some (r, s') ∧ Framed s s' ∧ SampledPath s stack r s' := by
  obtain ⟨r, s', hengine, hframed, hid, hsettles⟩ := h.engineFrameId
  have hall : r.isSome = true ↔ s.TakesFrames (sampleKeys s.depthLimit stack) := by
    rw [sampleKeys_nil hnone]
    exact hsettles.isSome_iff hframed.stored
  unfold State.samplePath
  simp only [hwalk, List.length_nil, if_true, hengine]
  cases r with
  | none =>
    refine ⟨_, _, rfl, hframed, .refused _ (fun htakes => absurd (hall.mpr htakes) nofun) fun hdeep => ?_⟩
    rw [hnone] at hdeep
    exact absurd hdeep (Nat.not_lt_zero _)
  | some engine =>
    refine ⟨_, _, rfl, hframed, .found _ _ (hall.mp rfl) ?_⟩
    rw [sampleKeys_nil hnone]
    exact .cons (hid engine rfl) .nil

/-- **Finding the path of a sample ends**, in one of the three ways. -/
theorem Stored.samplePath (h : s.Stored) (stack : Stack) :
    ∃ r s', s.samplePath stack = some (r, s') ∧ Framed s s' ∧ SampledPath s stack r s' := by
  -- An empty stack has nothing to walk over.
  by_cases hnone : functions stack = []
  · refine h.samplePath_engine hnone ?_
    have hempty : ([] : List Nat).length ≤ s.depthLimit := Nat.zero_le _
    rw [walk_eq stack s hempty, hnone, List.take_nil]
    rfl
  obtain ⟨r, s', hwalk, hframed, hsettles, hids⟩ := h.walk stack
  have htakes := hsettles.isSome_iff hframed.stored
  cases r with
  -- A function was refused: no path, whether the stack is deep or not.
  | none =>
    have hnot : ¬s.TakesFrames (innermostKeys s.depthLimit stack) := fun hall => absurd (htakes.mpr hall) nofun
    unfold State.samplePath
    rw [hwalk]
    refine ⟨_, _, rfl, hframed, .refused _ ?_ fun _ => hnot⟩
    by_cases hdeep : s.depthLimit < (functions stack).length
    · rw [sampleKeys_deep hdeep, takesFrames_marker, hsettles]
      exact nofun
    · rw [sampleKeys_shallow hnone hdeep]
      exact hnot
  | some ids =>
    have hkeys := hids ids rfl
    -- All functions have their numbers. What is left is the marker, if there has to be one.
    by_cases hdeep : s.depthLimit < (functions stack).length
    · rw [decide_eq_true hdeep] at hwalk
      exact hframed.samplePath_marked hdeep hwalk hsettles hkeys
    · have hlen : ids.length ≠ 0 := by
        have heq := hkeys.length_eq
        have hpos := List.length_pos_of_ne_nil hnone
        have hlimit := s.depthLimit_pos
        rw [innermostKeys, List.length_reverse, List.length_reverse, List.length_map,
          List.length_take] at heq
        omega
      unfold State.samplePath
      simp only [hwalk, decide_eq_false hdeep, if_neg hlen]
      refine ⟨_, _, rfl, hframed, .found _ _ ?_ ?_⟩
      · rw [sampleKeys_shallow hnone hdeep]
        exact htakes.mp rfl
      · rw [sampleKeys_shallow hnone hdeep]
        exact hkeys

/-- A path has a frame, and all its frames are there. -/
theorem SampledPath.onFrames {stack : Stack} {path : List Nat} (h : SampledPath s stack (some path) s') :
    path ≠ [] ∧ ∀ id ∈ path, id < s'.frames.frames.length := by
  have hlimit := s.depthLimit_pos
  have hinnermost : functions stack ≠ [] → innermostKeys s.depthLimit stack ≠ [] := by
    intro hsome hnil
    have hpos := List.length_pos_of_ne_nil hsome
    have hlen := congrArg List.length hnil
    rw [innermostKeys, List.length_reverse, List.length_map, List.length_take, List.length_nil] at hlen
    omega
  cases h with
  | found path s' _ hkeys =>
    refine ⟨?_, hkeys.lt⟩
    rintro rfl
    have hnil : sampleKeys s.depthLimit stack = [] := List.forall₂_nil_left_iff.mp hkeys
    unfold sampleKeys at hnil
    split at hnil
    · cases hnil
    next hsome =>
      split at hnil
      · cases hnil
      · exact hinnermost hsome hnil
  | unmarked path s' hdeep _ _ hkeys =>
    refine ⟨?_, hkeys.lt⟩
    rintro rfl
    refine hinnermost ?_ (List.forall₂_nil_left_iff.mp hkeys)
    intro hnone
    rw [hnone] at hdeep
    exact absurd hdeep (Nat.not_lt_zero _)

/-! ## Collecting -/

/-- A valid tree whose new nodes are on frames that are there. -/
theorem Stored.setTree (h : s.Stored) {tree : StackTree} (hvalid : tree.Valid) {path : List Nat}
    (hpath : ∀ id ∈ path, id < s.frames.frames.length)
    (hnew : ∀ (id : Nat) (edge : Nat × Nat),
      tree.edges[id]? = some edge → s.tree.edges[id]? = some edge ∨ edge.2 ∈ path) :
    ({ s with tree := tree } : State).Stored := by
  refine ⟨h.frames, hvalid, ?_, h.truncated_key, h.engine_key⟩
  intro id edge hid hedge
  rcases hnew id edge hedge with hold | hmem
  · exact h.frame_lt id edge hid hold
  · exact hpath _ hmem

/-- The path of the node that `collect` adds a sample on `stack` to, if it does not drop it. -/
def bookedPath (s : State) (stack : Stack) : Option (List Nat) :=
  match s.samplePath stack with
  | some (some path, s) =>
    match s.tree.descend nodeRoot path with
    | some (some _, _) => some path
    | _ => none
  | _ => none

/-- What collecting a sample of `weight` on `stack` comes to. -/
inductive Collected (s : State) (stack : Stack) (weight : Nat) : State → Prop
  | dropped (s₁ : State) (tree : StackTree) : Framed s s₁ → s.bookedPath stack = none →
      StackTree.Grows s.tree tree → ({ s₁ with tree := tree } : State).Stored →
      Collected s stack weight ({ s₁ with tree := tree }.drop weight)
  | booked (s₁ : State) (tree : StackTree) (path : List Nat) (node : Nat) : Framed s s₁ →
      s.bookedPath stack = some path → StackTree.Grows s.tree tree →
      ({ s₁ with tree := tree } : State).Stored → 1 ≤ node → IsPath tree node path →
      Collected s stack weight
        { s₁ with tree := tree.record node weight, samples := u64 (s.samples + weight) }

/-- **`collect` on a ready profiler** ends, and does one of the two things. -/
theorem Stored.collect (h : s.Stored) (stack : Stack) (weight : Nat) :
    ∃ s', s.collect stack weight = some s' ∧ Collected s stack weight s' := by
  obtain ⟨r, s₁, hsample, hframed, hpath⟩ := h.samplePath stack
  unfold State.collect
  rw [hsample]
  cases r with
  -- No path: the sample is dropped, and only the tables have changed.
  | none =>
    have hbooked : s.bookedPath stack = none := by
      unfold bookedPath
      rw [hsample]
    refine ⟨_, rfl, ?_⟩
    have hgrows : StackTree.Grows s.tree s₁.tree := by
      rw [hframed.tree_eq]
      exact .refl _
    exact .dropped s₁ s₁.tree hframed hbooked hgrows hframed.stored
  | some path =>
    obtain ⟨hne, honFrames⟩ := hpath.onFrames
    obtain ⟨r, tree, hdescend, hvalid, hgrows, hnew, hnode⟩ :=
      hframed.stored.tree.descend path IsPath.root
    have hstored := hframed.stored.setTree hvalid honFrames hnew
    rw [hframed.tree_eq] at hgrows
    cases r with
    | none =>
      have hbooked : s.bookedPath stack = none := by
        unfold bookedPath
        rw [hsample]
        simp only [hdescend]
      simp only [hdescend]
      exact ⟨_, rfl, .dropped s₁ tree hframed hbooked hgrows hstored⟩
    | some node =>
      simp only [hdescend]
      have hend : IsPath tree node path := hnode node rfl
      -- The node at the end of a path with a function is not the root.
      have hpos : 1 ≤ node := by
        rcases Nat.eq_zero_or_pos node with rfl | hpos
        · exact absurd (hend.unique .root) hne
        · exact hpos
      have hbooked : s.bookedPath stack = some path := by
        unfold bookedPath
        rw [hsample]
        simp only [hdescend]
      refine ⟨_, rfl, ?_⟩
      rw [hframed.samples_eq]
      exact .booked s₁ tree path node hframed hbooked hgrows hstored hpos hend

/-- Recording on a stored tree. -/
theorem Stored.record (h : s.Stored) (node weight : Nat) :
    ({ s with tree := s.tree.record node weight } : State).Stored where
  frames := h.frames
  tree := h.tree.record node weight
  frame_lt := by
    show ∀ id edge, 1 ≤ id → (s.tree.record node weight).edges[id]? = some edge → _
    rw [StackTree.edges_record]
    exact h.frame_lt
  truncated_key := h.truncated_key
  engine_key := h.engine_key

/-- Collecting keeps the tables. -/
theorem Collected.stored {stack : Stack} {weight : Nat} (h : Collected s stack weight s') :
    s'.Stored := by
  cases h with
  | dropped s₁ tree _ _ _ hstored => exact hstored.of_eq rfl rfl rfl rfl rfl
  | booked s₁ tree path node _ _ _ hstored _ _ =>
    exact (hstored.record node weight).of_eq rfl rfl rfl rfl rfl

/-- Collecting changes the tables and the two totals, and nothing else. -/
theorem Collected.eq {stack : Stack} {weight : Nat} (h : Collected s stack weight s') :
    s' = { s with
      arena := s'.arena
      frames := s'.frames
      tree := s'.tree
      truncatedFrame := s'.truncatedFrame
      engineFrame := s'.engineFrame
      samples := s'.samples
      dropped := s'.dropped } := by
  cases h with
  | dropped s₁ tree hframed _ _ _ =>
    rw [hframed.eq]
    rfl
  | booked s₁ tree path node hframed _ _ _ _ _ => rw [hframed.eq]

theorem Collected.running_eq {stack : Stack} {weight : Nat} (h : Collected s stack weight s') :
    s'.running = s.running := by rw [h.eq]

theorem Collected.ready_eq {stack : Stack} {weight : Nat} (h : Collected s stack weight s') :
    s'.ready = s.ready := by rw [h.eq]

theorem Collected.pendingTicks_eq {stack : Stack} {weight : Nat} (h : Collected s stack weight s') :
    s'.pendingTicks = s.pendingTicks := by rw [h.eq]

theorem Collected.timer_eq {stack : Stack} {weight : Nat} (h : Collected s stack weight s') :
    s'.timer = s.timer := by rw [h.eq]

/-! ## Booking at a safe point -/

/-- **Booking on a ready profiler** ends. -/
theorem Stored.book (h : s.Stored) (stack : Stack) (pending deliveries : Nat) :
    ∃ s', s.book stack pending deliveries = some s' ∧
      Collected (s.account pending deliveries) stack pending s' := by
  have hstored : (s.account pending deliveries).Stored := h.of_eq rfl rfl rfl rfl rfl
  exact hstored.collect stack pending

end State

end CboxTelemetry.Profiler
