import CboxTelemetry.Profiler.Room

/-!
# What a sample is booked on

A sample is booked on the path of its stack, as `sampleKeys` gives it, or dropped as a whole
(`BooksPath`). There is one state in which `cbox_profiler_collect` does neither: the stack is too deep,
all its innermost functions are known or find room, the `<truncated>` marker does not, and the tree takes
the path without it (`State.LosesMarker`). The sample is then booked as if the stack were as deep as the
limit. Apart from that, the sums are right as long as no counter wraps around (`State.CountsFit`).
-/

namespace CboxTelemetry.Profiler

open StackTree (IsPath)

/-! ## Counters of nodes -/

/-- The samples of a node; one that is not there has none. -/
def StackTree.samplesAt (t : StackTree) (id : Nat) : Nat :=
  match t.nodes[id]? with
  | some n => n.samples
  | none => 0

/-- Growth adds nodes without samples, so no count changes. -/
theorem StackTree.Grows.samplesAt_eq {t t' : StackTree} (h : StackTree.Grows t t') (id : Nat) :
    t'.samplesAt id = t.samplesAt id := by
  unfold StackTree.samplesAt
  cases hget : t'.nodes[id]? with
  | none =>
    have hnone : t.nodes[id]? = none := by
      cases hold : t.nodes[id]? with
      | none => rfl
      | some n =>
        rw [h.get hold] at hget
        cases hget
    rw [hnone]
  | some n =>
    rcases h.get_cases hget with hold | ⟨hnew, hzero⟩
    · rw [hold]
    · rw [List.getElem?_eq_none hnew]
      exact hzero

/-- A record changes the count of its own node and no other. -/
theorem StackTree.samplesAt_record {t : StackTree} (h : t.Valid) {node : Nat}
    (hnode : node < t.nodes.length) {weight : Nat} (hweight : 0 < weight) (id : Nat) :
    (t.record node weight).samplesAt id =
      if id = node then u32 (t.samplesAt id + weight) else t.samplesAt id := by
  unfold StackTree.samplesAt
  rw [StackTree.record_get h hnode hweight]
  by_cases hid : id = node
  · subst hid
    rw [List.getElem?_eq_getElem hnode, if_pos rfl]
    simp only [Option.map_some, if_true]
  · rw [if_neg hid]
    cases t.nodes[id]? with
    | none => rfl
    | some n => exact if_neg (Ne.symm hid)

/-! ## Room for a path -/

namespace State
variable {s s' : State} {stack : Stack} {weight : Nat}

/-- The tree has the nodes of the first frames of a path, and room for a node for each of the others. -/
def TakesNodes (s : State) (keys : List FrameKey) : Prop :=
  ∃ d ≤ keys.length, (∃ node path, IsPath s.tree node path ∧ s.OnKeys path (keys.take d)) ∧
    s.tree.nodes.length + (keys.length - d) ≤ s.tree.capacity

/-- Both tables have room for a path. -/
def TakesPath (s : State) (keys : List FrameKey) : Prop := s.TakesFrames keys ∧ s.TakesNodes keys

/-- The stack is deeper than the limit, and both tables have room for its innermost functions, but the
frame table has none for the marker on top of them. -/
def LosesMarker (s : State) (stack : Stack) : Prop :=
  s.depthLimit < (functions stack).length ∧ ¬s.TakesFrames (sampleKeys s.depthLimit stack) ∧
    s.TakesPath (innermostKeys s.depthLimit stack)

/-- Nodes are on frames of the table. -/
theorem Stored.path_lt (h : s.Stored) {node : Nat} {path : List Nat} (hpath : IsPath s.tree node path) :
    ∀ id ∈ path, id < s.frames.frames.length := by
  induction hpath with
  | root => exact nofun
  | step hid hget _ ih =>
    intro id hmem
    rcases List.mem_append.mp hmem with hrest | hlast
    · exact ih id hrest
    · rw [List.mem_singleton.mp hlast]
      exact h.frame_lt _ _ hid (StackTree.edges_get hget)

/-- Interning adds frames behind those that are there. -/
theorem OnKeys.before {path : List Nat} {keys : List FrameKey} (h : s'.OnKeys path keys)
    (hkeys : s.frames.keys s.arena <+: s'.frames.keys s'.arena)
    (hlt : ∀ id ∈ path, id < s.frames.frames.length) : s.OnKeys path keys := by
  induction h with
  | nil => exact .nil
  | @cons id key path keys hkey _ ih =>
    refine .cons ?_ (ih fun id hid => hlt id (List.mem_cons_of_mem _ hid))
    have hid := hlt id List.mem_cons_self
    rw [← s.frames.length_keys s.arena] at hid
    obtain ⟨more, hmore⟩ := hkeys
    unfold KeyAt at hkey
    rw [← hmore, List.getElem?_append_left hid] at hkey
    exact hkey

/-- An identity has one frame. -/
theorem Stored.onKeys_unique (h : s.Stored) {path path' : List Nat} {keys : List FrameKey}
    (hpath : s.OnKeys path keys) (hpath' : s.OnKeys path' keys) : path = path' := by
  induction hpath generalizing path' with
  | nil => exact (List.forall₂_nil_right_iff.mp hpath').symm
  | @cons id key path keys hkey _ ih =>
    cases hpath' with
    | cons hkey' hrest =>
      rw [h.frames.chained.keys_inj _ _ key (Nat.zero_le _) (Nat.zero_le _) hkey hkey', ih hrest]

/-- Once its frames are interned, a path that the tree takes is one it had room for before. -/
theorem Stored.takesNodes_iff (h : s.Stored) (hframed : Framed s s') {path : List Nat}
    {keys : List FrameKey} (hon : s'.OnKeys path keys) : s.tree.Takes [] path ↔ s.TakesNodes keys := by
  -- Each stored prefix of the keys is a stored prefix of the path: known keys have one number each.
  have hfirst : ∀ d, (∃ node, IsPath s.tree node (path.take d)) ↔
      ∃ node ids, IsPath s.tree node ids ∧ s.OnKeys ids (keys.take d) := by
    intro d
    have hon' := List.forall₂_take d hon
    constructor
    · rintro ⟨node, hpath⟩
      exact ⟨node, _, hpath, OnKeys.before hon' hframed.keys (h.path_lt hpath)⟩
    · rintro ⟨node, ids, hpath, hids⟩
      rw [← hframed.stored.onKeys_unique (hids.framed hframed) hon']
      exact ⟨node, hpath⟩
  unfold StackTree.Takes TakesNodes
  simp only [List.nil_append, hfirst, hon.length_eq]

end State

/-! ## Booking -/

/-- The whole weight is dropped, and no counter of a node changes. -/
structure Drops (s : State) (weight : Nat) (s' : State) : Prop where
  dropped_eq : s'.dropped = s.dropped + weight
  samples_eq : s'.samples = s.samples
  samplesAt_eq : ∀ id, s'.tree.samplesAt id = s.tree.samplesAt id

/-- The weight is added to one node, which is at the end of `path`. -/
structure Adds (s : State) (weight : Nat) (s' : State) (node : Nat) (path : List Nat) : Prop where
  pos : 1 ≤ node
  isPath : IsPath s'.tree node path
  dropped_eq : s'.dropped = s.dropped
  samples_eq : s'.samples = s.samples + weight
  samplesAt_eq : ∀ id, s'.tree.samplesAt id =
    if id = node then s.tree.samplesAt id + weight else s.tree.samplesAt id

/-- A sample is dropped, or booked on the path of the frames `keys`. -/
def BooksPath (s : State) (keys : List FrameKey) (weight : Nat) (s' : State) : Prop :=
  Drops s weight s' ∨ ∃ node path, Adds s weight s' node path ∧ s'.OnKeys path keys

namespace State
variable {s s' : State} {stack : Stack} {weight : Nat}

/-- No counter that the sample is added to wraps around: those of the path where the tables take it, and
otherwise the one of what is dropped. -/
structure CountsFit (s : State) (keys : List FrameKey) (weight : Nat) : Prop where
  samples_lt : s.TakesPath keys → s.samples + weight < 2 ^ 64
  samplesAt_lt : s.TakesPath keys → ∀ node path, IsPath s.tree node path → s.OnKeys path keys →
    s.tree.samplesAt node + weight < 2 ^ 32
  dropped_lt : ¬s.TakesPath keys → s.dropped + weight < 2 ^ 64

/-- What the counters show of a sample that is dropped. -/
structure Dropped (s : State) (weight : Nat) (s' : State) : Prop where
  dropped_eq : s'.dropped = u64 (s.dropped + weight)
  samples_eq : s'.samples = s.samples
  samplesAt_eq : ∀ id, s'.tree.samplesAt id = s.tree.samplesAt id

/-- What the counters show of a sample that is stored: one node has it, which is at the end of a path of
the frames `keys`; if the node was there before, it was at the end of that path, and otherwise it had no
samples. -/
structure Booked (s : State) (keys : List FrameKey) (weight : Nat) (s' : State) (node : Nat)
    (path : List Nat) : Prop where
  pos : 1 ≤ node
  isPath : IsPath s'.tree node path
  onKeys : s'.OnKeys path keys
  old : (IsPath s.tree node path ∧ s.OnKeys path keys) ∨ s.tree.samplesAt node = 0
  same : ∀ node' path', IsPath s.tree node' path' → s.OnKeys path' keys → node' = node
  dropped_eq : s'.dropped = s.dropped
  samples_eq : s'.samples = u64 (s.samples + weight)
  samplesAt_eq : ∀ id, s'.tree.samplesAt id =
    if id = node then u32 (s.tree.samplesAt id + weight) else s.tree.samplesAt id

/-- **What `collect` does**, by the room in the tables: it stores the sample on the path that it is to
be on, or without the marker, or it drops it. -/
inductive Outcome (s : State) (stack : Stack) (weight : Nat) (s' : State) : Prop
  | dropped : ¬s.TakesPath (sampleKeys s.depthLimit stack) → ¬s.LosesMarker stack → Dropped s weight s' →
      s.bookedPath stack = none → Outcome s stack weight s'
  | booked (node : Nat) (path : List Nat) : s.TakesPath (sampleKeys s.depthLimit stack) →
      Booked s (sampleKeys s.depthLimit stack) weight s' node path → s.bookedPath stack = some path →
      Outcome s stack weight s'
  | unmarked (node : Nat) (path : List Nat) : s.LosesMarker stack →
      Booked s (innermostKeys s.depthLimit stack) weight s' node path → s.bookedPath stack = some path →
      Outcome s stack weight s'

/-- Storing a sample, once its frames are interned. -/
theorem Stored.booked (h : s.Stored) {s₁ : State} (hframed : Framed s s₁) {path : List Nat}
    {keys : List FrameKey} (hne : path ≠ []) (hon : s₁.OnKeys path keys) {node : Nat} {tree : StackTree}
    (hvalid : tree.Valid) (hgrows : StackTree.Grows s.tree tree) (hend : IsPath tree node path)
    (hpos : 0 < weight) :
    Booked s keys weight { s₁ with tree := tree.record node weight, samples := u64 (s₁.samples + weight) }
      node path := by
  have hlt := hend.lt hvalid
  refine ⟨?_, (IsPath.record hvalid hlt hpos).mpr hend, hon, ?_, ?_, hframed.dropped_eq, ?_, ?_⟩
  · rcases Nat.eq_zero_or_pos node with rfl | hone
    · exact absurd (hend.unique .root) hne
    · exact hone
  · rcases Nat.lt_or_ge node s.tree.nodes.length with hold | hnew
    · obtain ⟨path', hpath'⟩ := h.tree.exists_path hold
      cases (hpath'.grows hgrows).unique hend
      exact .inl ⟨hpath', OnKeys.before hon hframed.keys (h.path_lt hpath')⟩
    · right
      unfold StackTree.samplesAt
      rw [List.getElem?_eq_none hnew]
  -- Any other node of the same keys would be a second node of this path.
  · intro node' path' hpath' hon'
    cases hframed.stored.onKeys_unique (hon'.framed hframed) hon
    exact hvalid.path_inj (hpath'.grows hgrows) hend
  · show u64 (s₁.samples + weight) = _
    rw [hframed.samples_eq]
  · intro id
    show (tree.record node weight).samplesAt id = _
    rw [StackTree.samplesAt_record hvalid hlt hpos, hgrows.samplesAt_eq]

/-- Once its frames are interned, the nodes decide: a sample is booked on its path, or dropped for want of
a node. -/
theorem Stored.collect_path (h : s.Stored) {s₁ : State} (hframed : Framed s s₁) {path : List Nat}
    (hsample : s.samplePath stack = some (some path, s₁)) {keys : List FrameKey} (hne : path ≠ [])
    (hon : s₁.OnKeys path keys) (hpos : 0 < weight) :
    ∃ s', s.collect stack weight = some s' ∧
      ((¬s.TakesNodes keys ∧ Dropped s weight s' ∧ s.bookedPath stack = none) ∨
        ∃ node, s.TakesNodes keys ∧ Booked s keys weight s' node path ∧ s.bookedPath stack = some path) := by
  obtain ⟨r, tree, hdescend, hvalid, hgrows, -, hnode⟩ := h.tree.descend path IsPath.root
  obtain ⟨r', tree', hdescend', htakes⟩ := h.tree.descend_takes IsPath.root path
  cases hdescend.symm.trans hdescend'
  rw [h.takesNodes_iff hframed hon] at htakes
  unfold State.collect bookedPath
  simp only [hsample, hframed.tree_eq, hdescend]
  cases r with
  | none =>
    have hfull : ¬s.TakesNodes keys := fun hroom => absurd (htakes.mpr hroom) Bool.false_ne_true
    refine ⟨_, rfl, .inl ⟨hfull, ⟨?_, hframed.samples_eq, hgrows.samplesAt_eq⟩, rfl⟩⟩
    show u64 (s₁.dropped + weight) = _
    rw [hframed.dropped_eq]
  | some node =>
    exact ⟨_, rfl, .inr ⟨node, htakes.mp rfl,
      h.booked hframed hne hon hvalid hgrows (hnode node rfl) hpos, rfl⟩⟩

/-- What a sample comes to: dropped, booked on its path, or booked on a path that lost its marker. -/
theorem Stored.collect_outcome (h : s.Stored) (stack : Stack) (hpos : 0 < weight) :
    ∃ s', s.collect stack weight = some s' ∧ Outcome s stack weight s' := by
  obtain ⟨r, s₁, hsample, hframed, hsampled⟩ := h.samplePath stack
  cases hsampled with
  | refused s₁ hrefused hinner =>
    have hbooked : s.bookedPath stack = none := by
      unfold bookedPath
      rw [hsample]
    have hkept : ¬s.LosesMarker stack := by
      rintro ⟨hdeep, -, htakes⟩
      exact hinner hdeep htakes.1
    have hdropped : Dropped s weight (s₁.drop weight) := by
      refine ⟨?_, hframed.samples_eq, fun id => ?_⟩
      · show u64 (s₁.dropped + weight) = _
        rw [hframed.dropped_eq]
      · show s₁.tree.samplesAt id = _
        rw [hframed.tree_eq]
    unfold State.collect
    rw [hsample]
    exact ⟨_, rfl, .dropped (fun htakes => hrefused htakes.1) hkept hdropped hbooked⟩
  | found path s₁ hframes hon =>
    obtain ⟨hne, -⟩ := (SampledPath.found path s₁ hframes hon).onFrames
    obtain ⟨s', hcollect, hnodes⟩ := h.collect_path hframed hsample hne hon hpos
    refine ⟨s', hcollect, ?_⟩
    rcases hnodes with ⟨hfull, hdropped, hbooked⟩ | ⟨node, hroom, hstored, hbooked⟩
    · exact .dropped (fun hall => hfull hall.2) (fun hlost => hlost.2.1 hframes) hdropped hbooked
    · exact .booked node path ⟨hframes, hroom⟩ hstored hbooked
  -- Where the marker is lost, the path is the one of the innermost functions.
  | unmarked path s₁ hdeep hframes hmarker hon =>
    obtain ⟨hne, -⟩ := (SampledPath.unmarked path s₁ hdeep hframes hmarker hon).onFrames
    obtain ⟨s', hcollect, hnodes⟩ := h.collect_path hframed hsample hne hon hpos
    refine ⟨s', hcollect, ?_⟩
    rcases hnodes with ⟨hfull, hdropped, hbooked⟩ | ⟨node, hroom, hstored, hbooked⟩
    · exact .dropped (fun hall => hmarker hall.1) (fun hlost => hfull hlost.2.2.2) hdropped hbooked
    · exact .unmarked node path ⟨hdeep, hmarker, hframes, hroom⟩ hstored hbooked

section counters
variable {keys keys' : List FrameKey} {node node' : Nat} {path path' : List Nat}

/-- Without wrapping around, dropping is dropping the whole weight. -/
theorem Dropped.drops_iff (h : Dropped s weight s') :
    Drops s weight s' ↔ s.dropped + weight < 2 ^ 64 := by
  constructor
  · rintro ⟨hdropped, -, -⟩
    rw [h.dropped_eq] at hdropped
    rw [← hdropped]
    exact u64_lt _
  · intro hlt
    exact ⟨h.dropped_eq.trans (u64_of_lt hlt), h.samples_eq, h.samplesAt_eq⟩

/-- What is dropped is not stored. -/
theorem Dropped.not_adds (h : Dropped s weight s') (hpos : 0 < weight) : ¬Adds s weight s' node path := by
  rintro ⟨-, -, -, hsamples, -⟩
  rw [h.samples_eq] at hsamples
  omega

/-- What is stored is not dropped. -/
theorem Booked.not_drops (h : Booked s keys weight s' node path) (hpos : 0 < weight) :
    ¬Drops s weight s' := by
  rintro ⟨hdropped, -, -⟩
  rw [h.dropped_eq] at hdropped
  omega

/-- A sample shows on one node only. -/
theorem Booked.adds_node (h : Booked s keys weight s' node path) (h' : Adds s weight s' node' path')
    (hpos : 0 < weight) : node' = node ∧ path' = path := by
  have hsame : node' = node := by
    by_contra hne
    have hold := h.samplesAt_eq node'
    rw [if_neg hne, h'.samplesAt_eq node', if_pos rfl] at hold
    omega
  subst hsame
  exact ⟨rfl, h'.isPath.unique h.isPath⟩

/-- Without wrapping around, storing is adding the weight to one node. -/
theorem Booked.adds_iff (h : Booked s keys weight s' node path) (hsmall : weight < 2 ^ 32) :
    Adds s weight s' node path ↔ s.samples + weight < 2 ^ 64 ∧
      ∀ node' path', IsPath s.tree node' path' → s.OnKeys path' keys →
        s.tree.samplesAt node' + weight < 2 ^ 32 := by
  have hat := h.samplesAt_eq node
  rw [if_pos rfl] at hat
  constructor
  · rintro ⟨-, -, -, hsamples, hsamplesAt⟩
    rw [h.samples_eq] at hsamples
    have hnode := hsamplesAt node
    rw [if_pos rfl, hat] at hnode
    refine ⟨hsamples ▸ u64_lt _, ?_⟩
    intro node' path' hpath' hon'
    rw [h.same node' path' hpath' hon', ← hnode]
    exact u32_lt _
  · rintro ⟨hsamples, hnodes⟩
    -- Every node of these keys is this node, and a node that is new starts from no samples.
    have hlt : s.tree.samplesAt node + weight < 2 ^ 32 := by
      rcases h.old with ⟨hpath, hon⟩ | hnone
      · exact hnodes node path hpath hon
      · rw [hnone, Nat.zero_add]
        exact hsmall
    refine ⟨h.pos, h.isPath, h.dropped_eq, h.samples_eq.trans (u64_of_lt hsamples), ?_⟩
    intro id
    rw [h.samplesAt_eq id]
    by_cases hid : id = node
    · rw [if_pos hid, if_pos hid, hid, u32_of_lt hlt]
    · rw [if_neg hid, if_neg hid]

end counters

/-- **A sample is dropped or booked on the path of its stack**, exactly when it does not lose the
marker and no counter wraps around. -/
theorem Stored.collect_books_iff (h : s.Stored) (stack : Stack) (hpos : 0 < weight)
    (hsmall : weight < 2 ^ 32) :
    (∃ s', s.collect stack weight = some s' ∧ BooksPath s (sampleKeys s.depthLimit stack) weight s') ↔
      ¬s.LosesMarker stack ∧ s.CountsFit (sampleKeys s.depthLimit stack) weight := by
  obtain ⟨s', hcollect, houtcome⟩ := h.collect_outcome stack hpos
  have hthis : (∃ s', s.collect stack weight = some s' ∧
      BooksPath s (sampleKeys s.depthLimit stack) weight s') ↔
        BooksPath s (sampleKeys s.depthLimit stack) weight s' := by
    rw [hcollect]
    constructor
    · rintro ⟨s'', ⟨⟩, hbooks⟩
      exact hbooks
    · exact fun hbooks => ⟨s', rfl, hbooks⟩
  rw [hthis]
  cases houtcome with
  | dropped hfull hkept hdropped _ =>
    constructor
    · rintro (hdrops | ⟨node, path, hadds, -⟩)
      · exact ⟨hkept, fun hall => absurd hall hfull, fun hall => absurd hall hfull,
          fun _ => hdropped.drops_iff.mp hdrops⟩
      · exact absurd hadds (hdropped.not_adds hpos)
    · rintro ⟨-, hfit⟩
      exact .inl (hdropped.drops_iff.mpr (hfit.dropped_lt hfull))
  | booked node path htakes hbooked _ =>
    constructor
    · rintro (hdrops | ⟨node', path', hadds, -⟩)
      · exact absurd hdrops (hbooked.not_drops hpos)
      · obtain ⟨rfl, rfl⟩ := hbooked.adds_node hadds hpos
        obtain ⟨hsamples, hnodes⟩ := (hbooked.adds_iff hsmall).mp hadds
        exact ⟨fun hlost => hlost.2.1 htakes.1, fun _ => hsamples, fun _ => hnodes, fun hfull => absurd htakes hfull⟩
    · rintro ⟨-, hfit⟩
      exact .inr ⟨node, path, (hbooked.adds_iff hsmall).mpr ⟨hfit.samples_lt htakes, hfit.samplesAt_lt htakes⟩,
        hbooked.onKeys⟩
  | unmarked node path hlost hbooked _ =>
    refine iff_of_false ?_ fun hkept => hkept.1 hlost
    rintro (hdrops | ⟨node', path', hadds, hon⟩)
    · exact hbooked.not_drops hpos hdrops
    · -- The path it was booked on is one frame too short.
      obtain ⟨rfl, rfl⟩ := hbooked.adds_node hadds hpos
      have hshort := hbooked.onKeys.length_eq.symm.trans hon.length_eq
      rw [sampleKeys_deep hlost.1, List.length_cons] at hshort
      exact absurd hshort (Nat.succ_ne_self _).symm

/-- A sample is stored where the tables have room for its path, with the marker or without. -/
theorem Stored.bookedPath_isSome_iff (h : s.Stored) (stack : Stack) :
    (s.bookedPath stack).isSome = true ↔
      s.TakesPath (sampleKeys s.depthLimit stack) ∨ s.LosesMarker stack := by
  obtain ⟨s', -, houtcome⟩ := h.collect_outcome stack Nat.one_pos
  cases houtcome with
  | dropped hfull hkept _ hbooked =>
    rw [hbooked]
    exact iff_of_false nofun (not_or.mpr ⟨hfull, hkept⟩)
  | booked node path htakes _ hbooked =>
    rw [hbooked]
    exact iff_of_true rfl (.inl htakes)
  | unmarked node path hlost _ hbooked =>
    rw [hbooked]
    exact iff_of_true rfl (.inr hlost)

/-- Within the limits of the configuration, the depth limit is the configured one. -/
theorem depthLimit_eq (hpos : 0 < s.maxDepth) (hle : s.maxDepth ≤ profilerDepthHardMax) :
    s.depthLimit = s.maxDepth := if_neg (by omega)

end State

/-! ## Every state of the tables -/

/-- The tables stay sound, however many ticks there are. -/
theorem State.Sound.step {m m' : Machine} (h : m.prof.Sound) (heffect : Effect m m') : m'.prof.Sound := by
  cases heffect with
  | ticked ticks heq =>
    subst heq
    exact h.same (m.prof.same_tick ticks)
  | quiet discarded hsame _ _ => exact h.same hsame
  | restarted hready hsame _ _ =>
    have hreset := (h.stored hready).reset hready
    refine ⟨fun _ => hsame.stored hreset, fun hno => ?_⟩
    rw [hsame.ready, ready_reset, hready] at hno
    cases hno
  | collected s s' stack weight hbefore hcollected hafter _ hready _ _ =>
    refine ⟨fun _ => hafter.stored hcollected.stored, fun hno => ?_⟩
    rw [hafter.ready, hcollected.ready_eq, hbefore.ready, hready] at hno
    cases hno

/-- The tables are sound after every run. -/
theorem sound_of_run {c : Setup} {as : List Action} {m : Machine}
    (hrun : Run MachineSteps c.machine as m) : m.prof.Sound := by
  have hstep : ∀ m a m', State.Sound (Machine.prof m) → MachineSteps m a m' → m'.prof.Sound :=
    fun m a m' hm hstep => hm.step (step_effect hm.stored hstep)
  have hrunSound := Run.invariant hstep c.fresh.sound hrun
  exact hrunSound

/-- **What one sample books**, in every state that a run reaches: all of its functions, or the marker
and the innermost of them, or the engine; unless it loses the marker or a counter wraps around. -/
theorem sample_booked_iff (c : Setup) {as : List Action} {m : Machine}
    (hrun : Run MachineSteps c.machine as m) (hready : m.prof.ready = true) (stack : Stack)
    {weight : Nat} (hpos : 0 < weight) (hsmall : weight < 2 ^ 32) :
    (∃ s', m.prof.collect stack weight = some s' ∧
        BooksPath m.prof (State.sampleKeys m.prof.depthLimit stack) weight s') ↔
      ¬m.prof.LosesMarker stack ∧
        m.prof.CountsFit (State.sampleKeys m.prof.depthLimit stack) weight :=
  ((sound_of_run hrun).stored hready).collect_books_iff stack hpos hsmall

/-! ## Two functions and a limit of one -/

/-- The innermost of these is within a limit of 1, and the other is not. -/
def twoClosures : Stack := [some (closureAt 0), some (closureAt 1)]

theorem innermostKeys_twoClosures : State.innermostKeys 1 twoClosures = [State.frameKey (closureAt 0)] := rfl

theorem sampleKeys_twoClosures :
    State.sampleKeys 1 twoClosures = [State.truncationKey, State.frameKey (closureAt 0)] :=
  State.sampleKeys_deep (by decide)

/-- The marker is no closure's key. -/
theorem truncationKey_ne_closure (i : Nat) : State.truncationKey ≠ State.frameKey (closureAt i) := by
  rw [frameKey_closureAt]
  intro heq
  have hname := congrArg FrameKey.name heq
  revert hname
  show (ascii "<truncated>").take frameNameMax = ascii "{closure}" → False
  decide

section wide
variable {c : Setup} {depth k : Nat} {s : State}

/-- The closures have the frames they were interned under. -/
theorem Wide.keyAt (h : Wide c depth k s) {i : Nat} (hi : i < k) :
    s.KeyAt i (State.frameKey (closureAt i)) := by
  unfold State.KeyAt
  rw [h.keys, List.getElem?_map, List.getElem?_range hi]
  rfl

/-- Each closure's path is a node of its own. -/
theorem Wide.isPath (h : Wide c depth k s) {i : Nat} (hi : i < k) : IsPath s.tree (i + 1) [i] := by
  have hget : s.tree.nodes[i + 1]? = some ⟨nodeRoot, i, 1⟩ := by
    rw [h.nodes, List.getElem?_cons_succ, List.getElem?_map, List.getElem?_range hi]
    rfl
  have hstep := IsPath.step (Nat.le_add_left 1 i) hget .root
  exact hstep

theorem Wide.depthLimit (h : Wide c 1 k s) : s.depthLimit = 1 := by
  rw [State.depthLimit_eq, h.maxDepth] <;> rw [h.maxDepth] <;> decide

/-- The marker has not been interned. -/
theorem Wide.truncationKey_not_mem (h : Wide c depth k s) :
    State.truncationKey ∉ s.frames.keys s.arena := by
  rw [h.keys]
  intro hmem
  obtain ⟨i, -, heq⟩ := List.mem_map.mp hmem
  exact truncationKey_ne_closure i heq.symm

/-- The inner of the two functions is known, so all depends on the marker. -/
theorem Wide.takesFrames_iff (h : Wide c depth k s) (hk : 0 < k) :
    s.TakesFrames [State.truncationKey, State.frameKey (closureAt 0)] ↔
      s.frames.Takes s.arena [State.truncationKey] := by
  have hname : (State.frameKey (closureAt 0)).name ≠ [] := by
    rw [frameKey_closureAt]
    show ascii "{closure}" ≠ []
    decide
  show s.frames.Takes s.arena [State.frameKey (closureAt 0), State.truncationKey] ↔ _
  rw [FrameTable.takes_cons_known (List.mem_of_getElem? (h.keyAt hk)), and_iff_right hname]

/-- With a full table, two known functions on a stack are one too many for a limit of 1. -/
theorem Wide.losesMarker (h : Wide c 1 k s) (hk : 2 ≤ k) (hfull : k = c.maxFrames) :
    s.LosesMarker twoClosures := by
  have hone : 0 < k := by omega
  have hpath : s.OnKeys [0] [State.frameKey (closureAt 0)] := .cons (h.keyAt hone) .nil
  have hname : (State.frameKey (closureAt 0)).name ≠ [] := by
    rw [frameKey_closureAt]
    show ascii "{closure}" ≠ []
    decide
  unfold State.LosesMarker
  rw [h.depthLimit, sampleKeys_twoClosures, innermostKeys_twoClosures]
  refine ⟨by decide, ?_, ?_, ?_⟩
  · rw [h.takesFrames_iff hone]
    -- The marker is not in the full table, so it would need room there.
    intro htakes
    have hroom := (htakes.hasRoom h.truncationKey_not_mem).table
    rw [h.framesCap, h.length_frames, hfull] at hroom
    exact absurd hroom (Nat.lt_irrefl _)
  · exact (FrameTable.takes_cons_known (List.mem_of_getElem? (h.keyAt hone))).mpr
      ⟨hname, h.stored.frames.takes_nil⟩
  · exact ⟨1, Nat.le_refl _, ⟨_, _, h.isPath hone, hpath⟩, h.stored.tree.count_le⟩

/-- With a free frame and two free nodes, the marker finds room. -/
theorem Wide.takesPath (h : Wide c 1 k s) (hk : 2 ≤ k) (hroom : k < c.maxFrames)
    (hnodes : k + 3 ≤ c.maxNodes) : s.TakesPath (State.sampleKeys s.depthLimit twoClosures) := by
  rw [h.depthLimit, sampleKeys_twoClosures]
  refine ⟨(h.takesFrames_iff (by omega)).mpr ?_, 0, Nat.zero_le _, ⟨nodeRoot, [], .root, .nil⟩, ?_⟩
  · have hstrings : State.truncationKey.strings = [ascii "<truncated>"] := by decide
    have hlength : (ascii "<truncated>").length = 11 := by decide
    -- The arena has room for the marker's eleven bytes.
    refine FrameTable.HasRoom.takes ⟨?_, ?_⟩ (by decide) h.truncationKey_not_mem
    · rw [h.length_frames, h.framesCap]
      exact hroom
    · have hused := h.arenaUsed
      rw [hstrings, h.arenaSize, arenaBytesPerFrame]
      simp only [Arena.filled, arenaAlign, hlength]
      omega
  · show s.tree.nodes.length + 2 ≤ s.tree.capacity
    rw [h.length_nodes, h.treeCap]
    omega

end wide

theorem smallSetup_works : smallSetup.Works := ⟨Option.some_ne_none _, rfl, rfl, rfl⟩

/-- A stack that is too deep, with room for the marker: the sample is on the marker and the innermost
function. -/
theorem sample_booked_iff_deep : ∃ m, Run MachineSteps smallSetup.machine (sampleMany 1 2) m ∧
    m.prof.depthLimit < (State.functions twoClosures).length ∧
    ∃ s', m.prof.collect twoClosures 3 = some s' ∧
      BooksPath m.prof (State.sampleKeys m.prof.depthLimit twoClosures) 3 s' ∧ ¬Drops m.prof 3 s' := by
  obtain ⟨m, hrun, -, hwide, -⟩ := run_sampleMany smallSetup_works (by decide : 0 < 1) (by decide)
    (by decide : 2 ≤ 64) (by decide : 2 < 256)
  have htakes := hwide.takesPath (Nat.le_refl 2) (by decide : 2 < 64) (by decide : 5 ≤ 256)
  have hfit : m.prof.CountsFit (State.sampleKeys m.prof.depthLimit twoClosures) 3 := by
    refine ⟨fun _ => ?_, fun _ node path _ hon => ?_, fun hfull => absurd htakes hfull⟩
    · rw [hwide.samples]
      decide
    · rw [hwide.depthLimit, sampleKeys_twoClosures] at hon
      cases hon with
      | cons hkey _ => exact absurd (List.mem_of_getElem? hkey) hwide.truncationKey_not_mem
  obtain ⟨s', hcollect, hbooks⟩ := (sample_booked_iff smallSetup hrun hwide.ready twoClosures (by decide)
    (by decide)).mpr ⟨fun hlost => hlost.2.1 htakes.1, hfit⟩
  refine ⟨m, hrun, by rw [hwide.depthLimit]; decide, s', hcollect, hbooks, ?_⟩
  obtain ⟨s'', hcollect', houtcome⟩ := hwide.stored.collect_outcome twoClosures (by decide : 0 < 3)
  cases hcollect.symm.trans hcollect'
  cases houtcome with
  | dropped hfull _ _ _ => exact absurd htakes hfull
  | booked node path _ hbooked _ => exact hbooked.not_drops (by decide)
  | unmarked node path hlost _ _ => exact absurd htakes.1 hlost.2.1

/-- **A deep stack that is booked as a shallow one.** The frame table has the 64 functions it has room
for; a stack of two of them, with a depth limit of 1, is booked on the inner one alone. -/
theorem not_sample_booked_full : ¬∀ (c : Setup) (as : List Action) (m : Machine) (stack : Stack)
    (weight : Nat), Run MachineSteps c.machine as m → m.prof.ready = true → 0 < weight →
    weight < 2 ^ 32 → ∃ s', m.prof.collect stack weight = some s' ∧
      BooksPath m.prof (State.sampleKeys m.prof.depthLimit stack) weight s' := by
  intro hall
  obtain ⟨m, hrun, -, hwide, -⟩ := run_sampleMany smallSetup_works (by decide : 0 < 1) (by decide)
    (by decide : 64 ≤ 64) (by decide : 64 < 256)
  have hbooks := hall smallSetup _ m twoClosures 1 hrun hwide.ready (by decide) (by decide)
  rw [hwide.stored.collect_books_iff _ (by decide) (by decide)] at hbooks
  exact hbooks.1 (hwide.losesMarker (by decide) rfl)

end CboxTelemetry.Profiler
