import CboxTelemetry.Profiler.Conservation

/-!
# What finds room is kept

The tables refuse for want of room only. So a sample that finds room for what it brings is booked
(`State.Stored.collect_new`), and a profile of as many functions as the tables have room for has them
all (`run_sampleMany`).
-/

namespace CboxTelemetry.Profiler

/-! ## One sample -/

namespace State
variable {s : State}

/-- Changing the element that was just added. -/
theorem modify_concat {α : Type*} (l : List α) (a : α) (f : α → α) :
    (l ++ [a]).modify l.length f = l ++ [f a] := by
  induction l with
  | nil => rfl
  | cons b l ih => rw [List.cons_append, List.length_cons, List.modify_succ_cons, ih, List.cons_append]

/-- A new function with a name gets the next frame, where there is room. -/
theorem Stored.frameFor_new (h : s.Stored) {f : ZendFunction} (hname : (frameKey f).name ≠ [])
    (hroom : s.frames.HasRoom s.arena (frameKey f)) (hnew : frameKey f ∉ s.frames.keys s.arena) :
    ∃ frames arena, s.frameFor f = some (some s.frames.frames.length,
        { s with frames := frames, arena := arena }) ∧
      Framed s { s with frames := frames, arena := arena } ∧
      frames.keys arena = s.frames.keys s.arena ++ [frameKey f] ∧ frames.capacity = s.frames.capacity ∧
      arena.size = s.arena.size ∧ arena.used = Arena.filled s.arena.used (frameKey f).strings := by
  obtain ⟨r, hintern, hcases⟩ := h.frames.intern (frameName f)
    (if f.userCode then f.filename.getD [] else []) (if f.userCode then f.lineStart else 0)
  unfold State.frameFor State.intern
  simp only [hintern]
  cases hcases with
  | refused hits arena' _ hfull => exact absurd hroom (hfull hname).2
  | found id hget => exact absurd (List.mem_of_getElem? hget) hnew
  | added t' arena' _ hvalid hgrows hcap hkeys hused =>
    refine ⟨t', arena', rfl, h.framed hvalid ?_, hkeys, hcap, hgrows.size_eq, hused⟩
    rw [hkeys]
    exact List.prefix_append _ _

/-- A sample that finds a new function on the stack, alone, and room for it in all tables, is booked on
the next node. -/
theorem Stored.collect_new (h : s.Stored) {f : ZendFunction} (hname : (frameKey f).name ≠ [])
    (hroom : s.frames.HasRoom s.arena (frameKey f)) (hnew : frameKey f ∉ s.frames.keys s.arena)
    (hnodes : s.tree.nodes.length < s.tree.capacity) {weight : Nat} (hpos : 0 < weight)
    (hsmall : weight < 2 ^ 32) :
    ∃ s', s.collect [some f] weight = some s' ∧
      s'.frames.keys s'.arena = s.frames.keys s.arena ++ [frameKey f] ∧
      s'.frames.capacity = s.frames.capacity ∧ s'.arena.size = s.arena.size ∧
      s'.arena.used = Arena.filled s.arena.used (frameKey f).strings ∧
      s'.tree.nodes = s.tree.nodes ++ [⟨nodeRoot, s.frames.frames.length, weight⟩] ∧
      s'.tree.capacity = s.tree.capacity ∧ s'.truncatedFrame = s.truncatedFrame ∧
      s'.samples = u64 (s.samples + weight) := by
  obtain ⟨frames, arena, hframe, hframed, hkeys, hcap, hsize, hused⟩ := h.frameFor_new hname hroom hnew
  have hsample : s.samplePath [some f] =
      some (some [s.frames.frames.length], { s with frames := frames, arena := arena }) := by
    have hshallow : ¬s.depthLimit ≤ ([] : List Nat).length := Nat.not_le.mpr s.depthLimit_pos
    unfold State.samplePath State.walk
    rw [if_neg hshallow]
    simp only [hframe]
    rfl
  have hnewEdge : ∀ id, 1 ≤ id → s.tree.edges[id]? ≠ some (nodeRoot, s.frames.frames.length) :=
    fun id hid hedge => absurd (h.frame_lt id _ hid hedge) (Nat.lt_irrefl _)
  obtain ⟨tree, hchild, htree, htreeNodes, -, htreeCap⟩ :=
    h.tree.child_new h.tree.length_pos hnodes hnewEdge
  have hdescend : s.tree.descend nodeRoot [s.frames.frames.length] =
      some (some s.tree.nodes.length, tree) := by
    unfold StackTree.descend
    rw [show s.tree.child nodeRoot s.frames.frames.length = _ from hchild]
    rfl
  have hlast : s.tree.nodes.length < tree.nodes.length := by
    rw [htreeNodes, List.length_append, List.length_singleton]
    exact Nat.lt_succ_self _
  have hrecord := StackTree.record_eq htree hlast hpos
  unfold State.collect
  simp only [hsample, hdescend]
  refine ⟨_, rfl, hkeys, hcap, hsize, hused, ?_, ?_, rfl, rfl⟩
  · show (tree.record s.tree.nodes.length weight).nodes = _
    rw [hrecord]
    show tree.nodes.modify _ _ = _
    rw [htreeNodes, modify_concat, Nat.zero_add, u32_of_lt hsmall]
    rfl
  · show (tree.record s.tree.nodes.length weight).capacity = _
    rw [hrecord]
    exact htreeCap

end State

/-! ## As many functions as there is room for -/

/-- Functions of one name that are told apart by their lines. -/
def closureAt (i : Nat) : ZendFunction := ⟨none, some (ascii "{closure}"), true, none, .ofNat i⟩

/-- The key of a closure is its line. -/
theorem frameKey_closureAt (i : Nat) :
    State.frameKey (closureAt i) = ⟨ascii "{closure}", [], .ofNat i⟩ := by
  have hname : State.frameName (closureAt i) = ascii "{closure}" := by
    show State.nameAppend [] (ascii "{closure}") = _
    decide
  have hcut : (ascii "{closure}").take frameNameMax = ascii "{closure}" := by decide
  unfold State.frameKey FrameTable.keyOf
  rw [hname, hcut]
  rfl

/-- A name and its zero byte, and what is left out to come to a multiple of `arenaAlign`. -/
theorem filled_closureAt_le (used i : Nat) :
    Arena.filled used (State.frameKey (closureAt i)).strings ≤ used + 25 := by
  have hlength : (ascii "{closure}").length = 9 := by decide
  rw [frameKey_closureAt]
  simp only [FrameKey.strings, List.length_nil, Nat.lt_irrefl, if_false, Arena.filled, arenaAlign, hlength]
  omega

/-- Different lines give different keys. -/
theorem frameKey_closureAt_inj {i j : Nat} (hi : i < 2 ^ 32) (hj : j < 2 ^ 32)
    (h : State.frameKey (closureAt i) = State.frameKey (closureAt j)) : i = j := by
  rw [frameKey_closureAt, frameKey_closureAt] at h
  have hline : (UInt32.ofNat i).toNat = (UInt32.ofNat j).toNat := congrArg UInt32.toNat
    (FrameKey.mk.inj h).2.2
  rwa [UInt32.toNat_ofNat_of_lt' hi, UInt32.toNat_ofNat_of_lt' hj] at hline

/-- `k` functions have been sampled, one sample each, and nothing is pending. -/
structure Wide (c : Setup) (depth k : Nat) (s : State) : Prop where
  stored : s.Stored
  ready : s.ready = true
  running : s.running = true
  deadlineNs : s.deadlineNs = 0
  pendingTicks : s.pendingTicks = 0
  pendingDeliveries : s.pendingDeliveries = 0
  samples : s.samples = k
  maxDepth : s.maxDepth = depth
  truncatedFrame : s.truncatedFrame = none
  framesCap : s.frames.capacity = c.maxFrames
  treeCap : s.tree.capacity = c.maxNodes
  arenaSize : s.arena.size = c.maxFrames * arenaBytesPerFrame
  arenaUsed : s.arena.used ≤ 25 * k
  keys : s.frames.keys s.arena = (List.range k).map fun i => State.frameKey (closureAt i)
  nodes : s.tree.nodes = rootNode :: (List.range k).map fun i => ⟨nodeRoot, i, 1⟩

/-- A tick, and an interrupt that books it on a function that has not been seen. -/
def sampleNext (k : Nat) : List Action :=
  [.tick 1, .interrupt, .takeDeliveries, .serve [some (closureAt k)] startUp]

/-- Taking what one delivery has left brings back the state before it. -/
theorem taken_tick {s : State} (hticks : s.pendingTicks = 0) (hdeliveries : s.pendingDeliveries = 0)
    (n : Nat) : (s.tick n).takeTicks.2.takeDeliveries.2 = s := by
  cases s
  cases hticks
  cases hdeliveries
  rfl

section sampleNext
variable {c : Setup} {depth k : Nat} {s : State}

theorem Wide.length_frames (h : Wide c depth k s) : s.frames.frames.length = k := by
  have hlen := congrArg List.length h.keys
  rwa [FrameTable.keys, List.length_map, List.length_map, List.length_range] at hlen

theorem Wide.length_nodes (h : Wide c depth k s) : s.tree.nodes.length = k + 1 := by
  rw [h.nodes, List.length_cons, List.length_map, List.length_range]

/-- There is room for the next closure. -/
theorem Wide.hasRoom (h : Wide c depth k s) (hk : k < c.maxFrames) :
    s.frames.HasRoom s.arena (State.frameKey (closureAt k)) := by
  have hused := h.arenaUsed
  constructor
  · rw [h.length_frames, h.framesCap]
    exact hk
  · refine (filled_closureAt_le _ _).trans ?_
    rw [h.arenaSize, arenaBytesPerFrame]
    omega

/-- The next closure is not in the table yet. -/
theorem Wide.not_mem_keys (h : Wide c depth k s) (hk : k < c.maxFrames) :
    State.frameKey (closureAt k) ∉ s.frames.keys s.arena := by
  have hmax : c.maxFrames ≤ 65536 := c.frames_le
  rw [h.keys]
  intro hmem
  obtain ⟨i, hi, heq⟩ := List.mem_map.mp hmem
  have hlt := List.mem_range.mp hi
  have := frameKey_closureAt_inj (by omega) (by omega) heq
  omega

/-- What is booked after one more tick. -/
theorem Wide.book (h : Wide c depth k s) (hk : k < c.maxFrames) (hnodes : k + 1 < c.maxNodes) :
    ∃ s', s.book [some (closureAt k)] 1 1 = some s' ∧ Wide c depth (k + 1) s' := by
  have hsame : State.Same s (s.account 1 1) := ⟨rfl, rfl, rfl, rfl, rfl, rfl, rfl, rfl⟩
  have hstored : (s.account 1 1).Stored := hsame.stored h.stored
  have hname : (State.frameKey (closureAt k)).name ≠ [] := by
    rw [frameKey_closureAt]
    show ascii "{closure}" ≠ []
    decide
  have htree : s.tree.nodes.length < s.tree.capacity := by
    rw [h.length_nodes, h.treeCap]
    exact hnodes
  -- The closure takes one entry of the table, at most 25 bytes of the arena and one node.
  obtain ⟨s', hcollect, hkeys, hframesCap, hsize, hused, hmore, htreeCap, htruncated, hsamples⟩ :=
    hstored.collect_new hname (h.hasRoom hk) (h.not_mem_keys hk) htree Nat.one_pos (by decide)
  obtain ⟨s'', hcollect', hcollected⟩ := hstored.collect [some (closureAt k)] 1
  cases hcollect.symm.trans hcollect'
  have heq := hcollected.eq
  refine ⟨s', hcollect, hcollected.stored, ?_, ?_, ?_, ?_, ?_, ?_, ?_, ?_, ?_, ?_, ?_, ?_, ?_, ?_⟩
  · rw [hcollected.ready_eq]
    exact h.ready
  · rw [hcollected.running_eq]
    exact h.running
  · rw [heq]
    exact h.deadlineNs
  · rw [hcollected.pendingTicks_eq]
    exact h.pendingTicks
  · rw [heq]
    exact h.pendingDeliveries
  · have hsmall : k < 65536 := hk.trans_le c.frames_le
    have hold : (s.account 1 1).samples = k := h.samples
    rw [hsamples, hold, u64_of_lt (by omega)]
  · rw [heq]
    exact h.maxDepth
  · rw [htruncated]
    exact h.truncatedFrame
  · rw [hframesCap]
    exact h.framesCap
  · rw [htreeCap]
    exact h.treeCap
  · rw [hsize]
    exact h.arenaSize
  · have hmore := filled_closureAt_le (s.account 1 1).arena.used k
    have hold : (s.account 1 1).arena.used ≤ 25 * k := h.arenaUsed
    omega
  · rw [hkeys, List.range_succ, List.map_append, List.map_singleton]
    congr 1
    exact h.keys
  · have hlen : (s.account 1 1).frames.frames.length = k := h.length_frames
    have hold : (s.account 1 1).tree.nodes = _ := h.nodes
    rw [hmore, hlen, hold, List.range_succ, List.map_append, List.map_singleton, List.cons_append]

/-- One more sample of one more function. -/
theorem run_sampleNext (h : Wide c depth k s) (hk : k < c.maxFrames) (hnodes : k + 1 < c.maxNodes)
    (l : Ledger) :
    ∃ m, Run MachineSteps ⟨s, .idle, l⟩ (sampleNext k) m ∧ m.pc = .idle ∧ Wide c depth (k + 1) m.prof ∧
      m.ledger.delivered = l.delivered + 1 := by
  obtain ⟨s', hbook, hwide⟩ := h.book hk hnodes
  have hpending : (s.tick 1).pendingTicks = 1 := by
    show u32 (s.pendingTicks + 1) = 1
    rw [h.pendingTicks]
    rfl
  have hdeliveries : (s.tick 1).takeTicks.2.pendingDeliveries = 1 := by
    show u32 (s.pendingDeliveries + 1) = 1
    rw [h.pendingDeliveries]
    rfl
  let l₁ : Ledger := { l with delivered := l.delivered + tickCount 1 }
  have htick : MachineSteps ⟨s, .idle, l⟩ (.tick 1) ⟨s.tick 1, .idle, l₁⟩ := rfl
  have hinterrupt : ∀ t : State, MachineSteps ⟨t, .idle, l₁⟩ .interrupt
      ⟨t.takeTicks.2, .interrupted t.pendingTicks, l₁⟩ := fun _ => rfl
  have htake : ∀ (t : State) (pending : Nat), MachineSteps ⟨t, .interrupted pending, l₁⟩ .takeDeliveries
      ⟨t.takeDeliveries.2, .serving pending t.pendingDeliveries, l₁⟩ := fun _ _ => rfl
  -- The tick is taken with its delivery, and the state is as it was before.
  have hfront := Run.cons htick (.cons (hinterrupt (s.tick 1)) (.single (htake _ _)))
  rw [taken_tick h.pendingTicks h.pendingDeliveries, hpending, hdeliveries] at hfront
  have hbooks : s.books 1 = true := by
    rw [State.books, h.running, h.ready]
    rfl
  have hdue : s'.deadlineDue = false := by
    rw [State.deadlineDue, hwide.deadlineNs]
    rfl
  have hcheck : s'.checkDeadline startUp = (false, s') := by
    rw [State.checkDeadline, hdue]
    rfl
  have hserve : MachineSteps ⟨s, .serving 1 1, l₁⟩ (.serve [some (closureAt k)] startUp)
      ⟨s', .idle, l₁.book ((s.account 1 1).bookedPath [some (closureAt k)]) 1⟩ := by
    simp only [MachineSteps, Machine.step, Machine.serve, hbooks, hbook, hcheck, if_true,
      Bool.false_eq_true, if_false]
  exact ⟨_, hfront.append (.single hserve), rfl, hwide, rfl⟩

end sampleNext

/-- The profile is started, and `k` functions are sampled. -/
def sampleMany (depth k : Nat) : List Action :=
  .start 1000000 depth 0 startUp ⟨true, true⟩ :: (List.range k).flatMap sampleNext

/-- Everything that is asked of the system at startup is had. -/
structure Setup.Works (c : Setup) : Prop where
  slab : c.slab ≠ none
  frames : c.frames = true
  nodes : c.nodes = true
  timer : c.timer = ⟨false, true, false, .none⟩

/-- The profiler that `cbox_profiler_init` sets up then. -/
theorem Setup.Works.prof_eq {c : Setup} (h : c.Works) : ∃ (slab : Bytes) (ft : FrameTable)
    (tree : StackTree), slab.length = c.maxFrames * arenaBytesPerFrame ∧
    ft.capacity = c.maxFrames ∧ tree.capacity = c.maxNodes ∧ c.prof = { State.blank with
      arena := ⟨slab, 0, 0, 0⟩
      frames := ft
      tree := tree
      ready := true
      timer := ⟨false, true, false, .none⟩ } := by
  have hframes : 64 ≤ c.maxFrames := c.frames_ge
  have hnodes : 256 ≤ c.maxNodes := c.nodes_ge
  obtain ⟨slab, hslab⟩ := Option.ne_none_iff_exists'.mp h.slab
  have hlength : slab.length = c.maxFrames * 256 := c.slab_length slab hslab
  have harena : Arena.init slab = some ⟨slab, 0, 0, 0⟩ := if_neg (by omega)
  obtain ⟨ft, hft, hframesCap⟩ : ∃ ft, FrameTable.init c.maxFrames = some ft ∧
      ft.capacity = c.maxFrames := ⟨_, if_neg (by omega), rfl⟩
  obtain ⟨tree, htree, htreeCap⟩ : ∃ tree, StackTree.init c.maxNodes = some tree ∧
      tree.capacity = c.maxNodes := ⟨_, if_neg (by omega), rfl⟩
  refine ⟨slab, ft, tree, hlength, hframesCap, htreeCap, ?_⟩
  unfold Setup.prof State.init
  simp only [hslab, Option.bind_some, harena, h.frames, h.nodes, if_true, hft, htree, h.timer]
  rfl

/-- A profile that is started has sampled nothing. -/
theorem wide_start {c : Setup} (hworks : c.Works) {depth : Nat} (hpos : 0 < depth)
    (hle : depth ≤ profilerDepthHardMax) :
    Wide c depth 0 (c.prof.start 1000000 depth 0 startUp ⟨true, true⟩).2 := by
  have hfresh := c.fresh
  obtain ⟨slab, ft, tree, hlength, hframesCap, htreeCap, hprof⟩ := hworks.prof_eq
  have hready : c.prof.ready = true := by rw [hprof]
  have hstored := hfresh.sound.stored hready
  have hreset := hstored.reset hready
  obtain ⟨hnodes, -⟩ := hstored.tree_reset hready
  have heq := State.reset_ready hready
  have htimer : c.prof.reset.timer = ⟨false, true, false, .none⟩ := by
    rw [heq, hprof]
  have hdepth : (if depth = 0 ∨ profilerDepthHardMax < depth then profilerDepthHardMax else depth) =
      depth := if_neg (by omega)
  have hstart : c.prof.start 1000000 depth 0 startUp ⟨true, true⟩ = (true,
      { c.prof.reset with
        maxDepth := depth
        periodNs := 1000000
        deadlineNs := 0
        timer := ⟨true, true, true, .ticking⟩
        running := true }) := by
    simp only [State.start, hready, htimer, hdepth]
    rfl
  rw [hstart]
  refine ⟨hreset.of_eq rfl rfl rfl rfl rfl, ?_, rfl, rfl, ?_, ?_, ?_, rfl, ?_, ?_, ?_, ?_, ?_, ?_, hnodes⟩
  all_goals simp only [heq]
  · exact hready
  · exact hfresh.pendingTicks
  · rw [hprof]
    rfl
  · rw [FrameTable.capacity_reset, hprof]
    exact hframesCap
  · rw [StackTree.capacity_reset, hprof]
    exact htreeCap
  · rw [hprof]
    exact hlength
  · exact Nat.le_refl 0
  · rw [FrameTable.keys, c.prof.frames.frames_reset]
    rfl

/-- A machine that starts a profile is ready for its first sample. -/
theorem run_start {c : Setup} {depth : Nat} {s : State}
    (hwide : Wide c depth 0 (s.start 1000000 depth 0 startUp ⟨true, true⟩).2) :
    ∃ m, Run MachineSteps ⟨s, .idle, .empty⟩ (sampleMany depth 0) m ∧ m.pc = .idle ∧
      Wide c depth 0 m.prof ∧ m.ledger.delivered = 0 :=
  ⟨_, .single rfl, rfl, hwide, Ledger.delivered_restart _ _⟩

/-- **As many functions as there is room for are all sampled**: none is dropped. -/
theorem run_sampleMany {c : Setup} (hworks : c.Works) {depth : Nat} (hpos : 0 < depth)
    (hle : depth ≤ profilerDepthHardMax) {k : Nat} (hk : k ≤ c.maxFrames) (hnodes : k < c.maxNodes) :
    ∃ m, Run MachineSteps c.machine (sampleMany depth k) m ∧ m.pc = .idle ∧ Wide c depth k m.prof ∧
      m.ledger.delivered = k := by
  induction k with
  | zero => exact run_start (wide_start hworks hpos hle)
  | succ k ih =>
    obtain ⟨m, hrun, hpc, hwide, hdelivered⟩ := ih (Nat.le_of_succ_le hk) (Nat.lt_of_succ_lt hnodes)
    obtain ⟨s, pc, l⟩ := m
    cases hpc
    obtain ⟨m', hnext, hpc', hwide', hdelivered'⟩ := run_sampleNext hwide hk hnodes l
    refine ⟨m', ?_, hpc', hwide', hdelivered'.trans (congrArg (· + 1) hdelivered)⟩
    have hall := hrun.append hnext
    rw [sampleMany, List.range_succ, List.flatMap_append, List.flatMap_singleton]
    exact hall

end CboxTelemetry.Profiler
