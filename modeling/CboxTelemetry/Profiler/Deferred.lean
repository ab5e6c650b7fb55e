import CboxTelemetry.Profiler.Overruns
import CboxTelemetry.Profiler.Restart

/-!
# Late samples are samples

The interrupt handler counts what comes late before it tries to store the sample, and by the deliveries;
`samples` grows by the ticks, and only if the sample is stored. `LateWithin` holds as long as the tables
have room for every sample that is counted as late (`StoresLate`), whatever happens to the others. A
sample that comes late and is dropped is counted as late all the same (`not_lateWithin_dropped`).
-/

namespace CboxTelemetry.Profiler

namespace State

/-! ## What storing a sample does to the counters -/

/-- The tables have room for a sample on this stack, with its marker or without. -/
def HasRoomFor (s : State) (stack : Stack) : Prop :=
  s.TakesPath (sampleKeys s.depthLimit stack) ∨ s.LosesMarker stack

/-- Where there is room, a sample is stored. -/
theorem Stored.account_isSome_iff {s : State} (h : s.Stored) (stack : Stack) (pending deliveries : Nat) :
    ((s.account pending deliveries).bookedPath stack).isSome = true ↔ s.HasRoomFor stack := by
  have hstored : (s.account pending deliveries).Stored := h.of_eq rfl rfl rfl rfl rfl
  exact hstored.bookedPath_isSome_iff stack

/-- The counter of samples and the three of late ones are the same. -/
structure SameLate (s s' : State) : Prop where
  samples : s'.samples = s.samples
  deferred : s'.deferred = s.deferred
  events : s'.deferredEvents = s.deferredEvents
  max : s'.maxDeferred = s.maxDeferred

section counters
variable {s s' s'' : State} {stack : Stack}

theorem SameLate.refl (s : State) : SameLate s s := ⟨rfl, rfl, rfl, rfl⟩

theorem SameLate.trans (h : SameLate s s') (h' : SameLate s' s'') : SameLate s s'' :=
  ⟨h'.samples.trans h.samples, h'.deferred.trans h.deferred, h'.events.trans h.events,
    h'.max.trans h.max⟩

/-- Interning changes no counter of late samples. -/
theorem sameLate_intern {name file : Bytes} {line : UInt32} {id : Option Nat}
    (h : s.intern name file line = some (id, s')) : SameLate s s' := by
  unfold State.intern at h
  split at h
  · cases h
  · cases h
    exact ⟨rfl, rfl, rfl, rfl⟩

/-- Nor does finding the marker of an empty stack. -/
theorem sameLate_engineFrameId {id : Option Nat} (h : s.engineFrameId = some (id, s')) :
    SameLate s s' := by
  unfold State.engineFrameId at h
  split at h
  · cases h
    exact .refl s
  · split at h
    · cases h
    next hintern =>
      cases h
      exact (sameLate_intern hintern).trans ⟨rfl, rfl, rfl, rfl⟩

/-- Nor that of a truncated one. -/
theorem sameLate_truncationFrameId {id : Option Nat} (h : s.truncationFrameId = some (id, s')) :
    SameLate s s' := by
  unfold State.truncationFrameId at h
  split at h
  · cases h
    exact .refl s
  · split at h
    · cases h
    next hintern =>
      cases h
      exact (sameLate_intern hintern).trans ⟨rfl, rfl, rfl, rfl⟩

/-- Nor does the walk. -/
theorem sameLate_walk {maxDepth : Nat} {ids : List Nat} {w : Walk}
    (h : walk maxDepth stack s ids = some (w, s')) : SameLate s s' := by
  induction stack generalizing s ids with
  | nil =>
    cases h
    exact .refl _
  | cons frame stack ih =>
    cases frame with
    | none => exact ih h
    | some f =>
      unfold walk at h
      split at h
      · cases h
        exact .refl _
      · split at h
        · cases h
        next hframe =>
          cases h
          exact sameLate_intern hframe
        next hframe => exact (sameLate_intern hframe).trans (ih h)

/-- Finding the path of a sample touches none of the four. -/
theorem sameLate_samplePath {r : Option (List Nat)} (h : s.samplePath stack = some (r, s')) :
    SameLate s s' := by
  unfold State.samplePath at h
  split at h
  · cases h
  next hwalk =>
    cases h
    exact sameLate_walk hwalk
  next hwalk =>
    split at h
    · cases h
    next hmarker =>
      cases h
      exact (sameLate_walk hwalk).trans (sameLate_truncationFrameId hmarker)
    next hmarker =>
      cases h
      exact (sameLate_walk hwalk).trans (sameLate_truncationFrameId hmarker)
  next hwalk =>
    split at h
    · split at h
      · cases h
      next hengine =>
        cases h
        exact (sameLate_walk hwalk).trans (sameLate_engineFrameId hengine)
      next hengine =>
        cases h
        exact (sameLate_walk hwalk).trans (sameLate_engineFrameId hengine)
    · cases h
      exact sameLate_walk hwalk

/-- Collecting adds to the counter of samples what it stores, and to no other of the four. -/
theorem sameLate_collect {weight : Nat} (h : s.collect stack weight = some s') :
    SameLate { s with samples :=
      if (s.bookedPath stack).isSome then u64 (s.samples + weight) else s.samples } s' := by
  unfold State.collect at h
  unfold bookedPath
  split at h
  · cases h
  next hpath =>
    cases h
    obtain ⟨hsamples, hdeferred, hevents, hmax⟩ := sameLate_samplePath hpath
    exact ⟨by simpa [hpath, State.drop] using hsamples, hdeferred, hevents, hmax⟩
  next path s₁ hpath =>
    obtain ⟨hsamples, hdeferred, hevents, hmax⟩ := sameLate_samplePath hpath
    split at h
    · cases h
    next hdescend =>
      cases h
      exact ⟨by simpa [hpath, hdescend, State.drop] using hsamples, hdeferred, hevents, hmax⟩
    next hdescend =>
      cases h
      exact ⟨by simp [hpath, hdescend, hsamples], hdeferred, hevents, hmax⟩

end counters

end State

/-! ## The invariant -/

/-- No more samples are late than were taken. -/
structure LateWithin (s : State) : Prop where
  deferred_le : s.deferred ≤ s.samples
  events_le : s.deferredEvents ≤ s.samples
  max_le : s.maxDeferred ≤ s.samples

/-- What is booked with more than one delivery finds room in the tables, and brings at least as many
ticks as it brings late deliveries; and the counter of samples does not wrap around. -/
def StoresLate (m : Machine) (a : Action) : Prop :=
  ∀ stack now pending deliveries, a = .serve stack now → m.pc = .serving pending deliveries →
    m.prof.books pending = true →
      (1 < deliveries → m.prof.HasRoomFor stack ∧ deliveries - 1 ≤ pending) ∧
      (m.prof.HasRoomFor stack → m.prof.samples + pending < 2 ^ 64)

section step
variable {s s' : State} {m m' : Machine}

/-- The invariant is about the four counters alone. -/
theorem LateWithin.of_same (h : LateWithin s) (hsame : State.SameLate s s') : LateWithin s' := by
  refine ⟨?_, ?_, ?_⟩
  · rw [hsame.deferred, hsame.samples]
    exact h.deferred_le
  · rw [hsame.events, hsame.samples]
    exact h.events_le
  · rw [hsame.max, hsame.samples]
    exact h.max_le

theorem LateWithin.of_zero (hdeferred : s.deferred = 0) (hevents : s.deferredEvents = 0)
    (hmax : s.maxDeferred = 0) : LateWithin s :=
  ⟨hdeferred ▸ Nat.zero_le _, hevents ▸ Nat.zero_le _, hmax ▸ Nat.zero_le _⟩

/-- A reset keeps the bounds. -/
theorem LateWithin.reset (h : LateWithin s) : LateWithin s.reset := by
  cases hready : s.ready with
  | true =>
    rw [State.reset_ready hready]
    exact .of_zero rfl rfl rfl
  | false =>
    have hreset : s.reset = s := by simp [State.reset, hready]
    rw [hreset]
    exact h

/-- So does a start. -/
theorem LateWithin.start (h : LateWithin s) (periodNs maxDepth maxDurationNs : Nat) (now : Instant)
    (io : TimerIo) : LateWithin (s.start periodNs maxDepth maxDurationNs now io).2 := by
  unfold State.start
  split
  · exact h
  · simp only
    split
    · exact h.reset.of_same ⟨rfl, rfl, rfl, rfl⟩
    · exact h.reset.of_same ⟨rfl, rfl, rfl, rfl⟩

/-- Booking, with room for what comes late or nothing that does. -/
theorem LateWithin.book (h : LateWithin s) (hstored : s.Stored) {stack : Stack} {pending deliveries : Nat}
    (hpos : 0 < pending) (hlate : 1 < deliveries → s.HasRoomFor stack ∧ deliveries - 1 ≤ pending)
    (hroom : s.HasRoomFor stack → s.samples + pending < 2 ^ 64)
    (hbook : s.book stack pending deliveries = some s') : LateWithin s' := by
  have hsame := State.sameLate_collect hbook
  refine LateWithin.of_same ?_ hsame
  rw [← hstored.account_isSome_iff stack pending deliveries] at hlate hroom
  obtain ⟨hdeferred, hevents, hmax⟩ := h
  have hle : ∀ n, u64 n ≤ n := fun n => Nat.mod_le _ _
  have hcount := hle (s.deferred + (deliveries - 1))
  have hevent := hle (s.deferredEvents + 1)
  cases hstores : ((s.account pending deliveries).bookedPath stack).isSome with
  | true =>
    -- The counter of samples grows by the ticks.
    have hgrown : u64 (s.samples + pending) = s.samples + pending := u64_of_lt (hroom hstores)
    refine ⟨?_, ?_, ?_⟩
    · show (if 1 < deliveries then u64 (s.deferred + (deliveries - 1)) else s.deferred) ≤ _
      split
      next hmany =>
        have hticks := (hlate hmany).2
        simp only [if_true, State.account, hgrown]
        omega
      · simp only [if_true, State.account, hgrown]
        omega
    · show (if 1 < deliveries then u64 (s.deferredEvents + 1) else s.deferredEvents) ≤ _
      simp only [if_true, State.account, hgrown]
      split <;> omega
    · show (if 1 < deliveries then max s.maxDeferred (deliveries - 1) else s.maxDeferred) ≤ _
      split
      next hmany =>
        have hticks := (hlate hmany).2
        simp only [if_true, State.account, hgrown]
        omega
      · simp only [if_true, State.account, hgrown]
        omega
  | false =>
    -- Nothing is counted as late.
    have hfew : ¬1 < deliveries := by
      intro hmany
      have hkept := (hlate hmany).1
      rw [hstores] at hkept
      cases hkept
    simp only [Bool.false_eq_true, if_false, State.account, hfew]
    exact ⟨hdeferred, hevents, hmax⟩

/-- A step that stores its late samples keeps the bounds. -/
theorem LateWithin.step {a : Action} (h : LateWithin m.prof) (hsound : m.prof.Sound) (hok : StoresLate m a)
    (hstep : MachineSteps m a m') : LateWithin m'.prof := by
  obtain ⟨s, pc, l⟩ := m
  unfold MachineSteps Machine.step at hstep
  split at hstep
  next => cases hstep; exact h.of_same ⟨rfl, rfl, rfl, rfl⟩
  next => cases hstep; exact h.start _ _ _ _ _
  next =>
    split at hstep
    · cases hstep; exact h.of_same ⟨rfl, rfl, rfl, rfl⟩
    · cases hstep; exact h
  next => cases hstep; exact h.of_same ⟨rfl, rfl, rfl, rfl⟩
  next => cases hstep; exact h.reset
  next => cases hstep; exact h.of_same ⟨rfl, rfl, rfl, rfl⟩
  next => cases hstep; exact h.of_same ⟨rfl, rfl, rfl, rfl⟩
  next => cases hstep; exact h.of_same ⟨rfl, rfl, rfl, rfl⟩
  next => cases hstep; exact h.of_same ⟨rfl, rfl, rfl, rfl⟩
  next => cases hstep; exact h.of_same ⟨rfl, rfl, rfl, rfl⟩
  next stack now pending deliveries hpc =>
    cases hpc
    unfold Machine.serve at hstep
    split at hstep
    next hbooks =>
      -- The condition on the step is used here: the sample is booked if it counts as late.
      obtain ⟨hlate, hroom⟩ := hok stack now pending deliveries rfl rfl hbooks
      obtain ⟨⟨hpos, -⟩, hready⟩ : (0 < pending ∧ s.running = true) ∧ s.ready = true := by
        simpa only [State.books, Bool.and_eq_true, decide_eq_true_eq] using hbooks
      split at hstep
      · cases hstep
      next s₁ hbook =>
        have hbooked := h.book (hsound.stored hready) hpos hlate hroom hbook
        split at hstep
        · cases hstep; exact hbooked.of_same ⟨rfl, rfl, rfl, rfl⟩
        · cases hstep; exact hbooked.of_same ⟨rfl, rfl, rfl, rfl⟩
    · cases hstep; exact h
  next => cases hstep; exact h.of_same ⟨rfl, rfl, rfl, rfl⟩
  next after _ =>
    cases hstep
    have htaken : LateWithin s.takeDeliveries.2 := h.of_same ⟨rfl, rfl, rfl, rfl⟩
    cases after with
    | stop => exact htaken
    | cap => exact htaken.of_same ⟨rfl, rfl, rfl, rfl⟩
    | fork => exact htaken.reset
  · cases hstep

end step

/-! ## Runs -/

/-- A profiler with room for anything, or for nothing. -/
def setUp (timer : Timer) (maxFrames maxNodes : Nat) (slab : Option Bytes) (frames nodes : Bool) : Machine :=
  ⟨(State.init { State.blank with timer := timer } maxFrames maxNodes slab frames nodes).2, .idle, .empty⟩

/-- The bounds hold at the start. -/
theorem lateWithin_setUp (timer : Timer) (maxFrames maxNodes : Nat) (slab : Option Bytes)
    (frames nodes : Bool) : LateWithin (setUp timer maxFrames maxNodes slab frames nodes).prof := by
  have hblank : ({ State.blank with timer := timer } : State).ready = false := rfl
  obtain hnothing | ⟨bytes, ft, tree, -, -, -, hready⟩ :=
    State.init_cases hblank maxFrames maxNodes slab frames nodes
  · unfold setUp
    rw [hnothing]
    exact .of_zero rfl rfl rfl
  · unfold setUp
    rw [hready]
    exact .of_zero rfl rfl rfl

/-- The tables that `cbox_profiler_init` sets up are sound, whatever it is asked for within 32 bits. -/
theorem sound_setUp (timer : Timer) {maxFrames maxNodes : Nat} {slab : Option Bytes} (frames nodes : Bool)
    (hframes : maxFrames ≤ capacityMax) (hnodes : maxNodes ≤ capacityMax)
    (hslab : ∀ bytes, slab = some bytes → bytes.length < 2 ^ 32 - arenaAlign) :
    (setUp timer maxFrames maxNodes slab frames nodes).prof.Sound :=
  (State.fresh_init timer frames nodes hframes hnodes hslab).sound

/-- **Late samples are a subset of the samples taken**, in every state of every run in which the tables
have room for those that are counted as late. -/
theorem lateWithin_of_run (timer : Timer) (maxFrames maxNodes : Nat) (slab : Option Bytes)
    (frames nodes : Bool) (hframes : maxFrames ≤ capacityMax) (hnodes : maxNodes ≤ capacityMax)
    (hslab : ∀ bytes, slab = some bytes → bytes.length < 2 ^ 32 - arenaAlign) {as : List Action} {m : Machine}
    (hrun : Run (Guarded StoresLate MachineSteps) (setUp timer maxFrames maxNodes slab frames nodes) as m) :
    LateWithin m.prof := by
  have hstep : ∀ m a m', LateWithin (Machine.prof m) ∧ State.Sound (Machine.prof m) →
      Guarded StoresLate MachineSteps m a m' → LateWithin m'.prof ∧ m'.prof.Sound := by
    intro m a m' h hsteps
    exact ⟨h.1.step h.2 hsteps.1 hsteps.2, h.2.step (step_effect h.2.stored hsteps.2)⟩
  have hstart := And.intro (lateWithin_setUp timer maxFrames maxNodes slab frames nodes)
    (sound_setUp timer frames nodes hframes hnodes hslab)
  exact (@Run.invariant _ _ _ _ _ _ (fun m => LateWithin m.prof ∧ m.prof.Sound) hstep hstart hrun).1

/-! ## Late samples that are dropped -/

namespace State
variable {s : State} {stack : Stack}

/-- A sample on more functions than there can be frames is dropped. -/
theorem Stored.collect_tooMany (h : s.Stored)
    (hdepth : (functions stack).length ≤ s.depthLimit)
    (hnodup : ((functions stack).map frameKey).Nodup)
    (hmany : s.frames.capacity < (functions stack).length) {weight : Nat} (hpos : 0 < weight) :
    ∃ s', s.collect stack weight = some s' ∧ Dropped s weight s' := by
  obtain ⟨s', hcollect, houtcome⟩ := h.collect_outcome stack hpos
  refine ⟨s', hcollect, ?_⟩
  have hsome : functions stack ≠ [] := by
    intro hnil
    rw [hnil] at hmany
    exact absurd hmany (Nat.not_lt_zero _)
  have hall : sampleKeys s.depthLimit stack = ((functions stack).map frameKey).reverse := by
    rw [sampleKeys_shallow hsome (Nat.not_lt.mpr hdepth), innermostKeys, List.take_of_length_le hdepth]
  cases houtcome with
  | dropped _ _ hdropped _ => exact hdropped
  | booked node path htakes _ _ =>
    have hframes : s.frames.Takes s.arena ((functions stack).map frameKey) := by
      have hboth := htakes.1
      rwa [hall, TakesFrames, List.reverse_reverse] at hboth
    have hle := hframes.length_le hnodup
    rw [List.length_map] at hle
    exact absurd hmany (Nat.not_lt.mpr hle)
  | unmarked node path hlost _ _ => exact absurd hlost.1 (Nat.not_lt.mpr hdepth)

/-- A profile that is started has counted nothing. -/
theorem start_counters (hready : s.ready = true) {periodNs : Nat} (hperiod : periodNs ≠ 0)
    (maxDepth maxDurationNs : Nat) (now : Instant) (io : TimerIo) :
    let s' := (s.start periodNs maxDepth maxDurationNs now io).2
    s'.samples = 0 ∧ s'.deferred = 0 := by
  simp only [State.start, hready, State.reset_ready hready, Bool.not_true, Bool.false_or,
    beq_eq_false_iff_ne.mpr hperiod, Bool.false_eq_true, if_false]
  split <;> exact ⟨rfl, rfl⟩

end State

/-- Both counters are zero behind a start. -/
theorem startedCounters (depth : Nat) :
    let s := (smallSetup.prof.start 1000000 depth 0 startUp ⟨true, true⟩).2
    s.samples = 0 ∧ s.deferred = 0 := by
  obtain ⟨slab, ft, tree, -, -, -, hprof⟩ := smallSetup_works.prof_eq
  have hready : smallSetup.prof.ready = true := by rw [hprof]
  exact State.start_counters hready (by decide) depth 0 startUp ⟨true, true⟩

/-- A function that has not been sampled finds room. -/
theorem Wide.hasRoomFor {c : Setup} {depth k : Nat} {s : State} (h : Wide c depth k s) (hk : k < c.maxFrames)
    (hnodes : k + 1 < c.maxNodes) : s.HasRoomFor [some (closureAt k)] := by
  have hname : (State.frameKey (closureAt k)).name ≠ [] := by
    rw [frameKey_closureAt]
    show ascii "{closure}" ≠ []
    decide
  have hsample : State.sampleKeys s.depthLimit [some (closureAt k)] = [State.frameKey (closureAt k)] := by
    have hshallow : [closureAt k].length ≤ s.depthLimit := s.depthLimit_pos
    have hfunctions : State.functions [some (closureAt k)] = [closureAt k] := rfl
    rw [State.sampleKeys, State.innermostKeys, hfunctions, if_neg (List.cons_ne_nil _ _),
      if_neg (Nat.not_lt.mpr hshallow), List.take_of_length_le hshallow]
    rfl
  have hnew := h.not_mem_keys hk
  left
  rw [hsample]
  refine ⟨?_, 0, Nat.zero_le _, ⟨nodeRoot, [], .root, .nil⟩, ?_⟩
  · exact (h.hasRoom hk).takes hname hnew
  · show s.tree.nodes.length + 1 ≤ s.tree.capacity
    rw [h.length_nodes, h.treeCap]
    exact hnodes

/-- Two ticks before a safe point, and the exchanges of the interrupt. -/
def lateTicks : List Action := [.tick 1, .tick 1, .interrupt, .takeDeliveries]

/-- Two ticks before an interrupt are taken by it together. -/
theorem run_lateTicks {s : State} (hticks : s.pendingTicks = 0) (hdeliveries : s.pendingDeliveries = 0)
    (l : Ledger) : ∃ l', Run (Guarded StoresLate MachineSteps) ⟨s, .idle, l⟩ lateTicks
      ⟨s, .serving 2 2, l'⟩ := by
  have hrun : ∃ l', Run (Guarded StoresLate MachineSteps) ⟨s, .idle, l⟩ lateTicks
      ⟨((s.tick 1).tick 1).takeTicks.2.takeDeliveries.2, .serving ((s.tick 1).tick 1).pendingTicks
        ((s.tick 1).tick 1).pendingDeliveries, l'⟩ :=
    ⟨_, .cons ⟨nofun, rfl⟩ (.cons ⟨nofun, rfl⟩ (.cons ⟨nofun, rfl⟩ (.single ⟨nofun, rfl⟩)))⟩
  cases s
  cases hticks
  cases hdeliveries
  exact hrun

/-- As many functions as the smallest table has frames, and one more. -/
def deepStack : Stack := (List.range 65).map fun i => some (closureAt i)

/-- The functions of the deep stack are one closure at each of its lines. -/
theorem functions_deepStack : State.functions deepStack = (List.range 65).map closureAt := by
  unfold State.functions deepStack
  rw [List.filterMap_map, ← List.filterMap_eq_map]
  rfl

/-- No two of them are the same. -/
theorem nodup_deepStack : ((State.functions deepStack).map State.frameKey).Nodup := by
  rw [functions_deepStack, List.map_map]
  refine List.Nodup.map_on ?_ List.nodup_range
  intro i hi j hj heq
  have hi' := List.mem_range.mp hi
  have hj' := List.mem_range.mp hj
  exact frameKey_closureAt_inj (by omega) (by omega) heq

/-- **A late sample that is none.** Two ticks come before a safe point, on a stack of more functions than
there are frames: one of them is counted as late, and no sample has been taken. -/
theorem not_lateWithin_dropped : ¬∀ (timer : Timer) (maxFrames maxNodes : Nat) (slab : Option Bytes)
    (frames nodes : Bool) (as : List Action) (m : Machine),
    Run MachineSteps (setUp timer maxFrames maxNodes slab frames nodes) as m → LateWithin m.prof := by
  intro hall
  have hwide := wide_start smallSetup_works (by decide : 0 < 256) (by decide)
  obtain ⟨l₀, -, hstart, -⟩ := steps_start smallSetup.prof 256
  obtain ⟨hsamples, hdeferred⟩ := startedCounters 256
  generalize (smallSetup.prof.start 1000000 256 0 startUp ⟨true, true⟩).2 = s at *
  obtain ⟨l, hfront⟩ := run_lateTicks hwide.pendingTicks hwide.pendingDeliveries l₀
  have hsampling : Sampling s := ⟨hwide.stored, hwide.ready, hwide.running, hwide.deadlineNs⟩
  -- The interrupt counts the second of the two deliveries, and then drops both ticks.
  have hstored : (s.account 2 2).Stored := hwide.stored.of_eq rfl rfl rfl rfl rfl
  have hlength : (State.functions deepStack).length = 65 := by
    rw [functions_deepStack, List.length_map, List.length_range]
  have hlimit : (s.account 2 2).depthLimit = 256 := by
    have hdepth : (s.account 2 2).maxDepth = 256 := hwide.maxDepth
    rw [State.depthLimit_eq (by rw [hdepth]; decide) (by rw [hdepth]; decide), hdepth]
  have hcapacity : (s.account 2 2).frames.capacity = 64 := hwide.framesCap
  obtain ⟨s', hbook, hdropped⟩ := hstored.collect_tooMany (by rw [hlength, hlimit]; decide)
    nodup_deepStack (by rw [hlength, hcapacity]; decide) Nat.two_pos
  have hserve := (hsampling.step_serve Nat.two_pos hbook startUp l).2
  have hrun := Run.cons hstart (hfront.of_guarded.append (.single hserve))
  have hwithin := (hall smallSetup.timer _ _ smallSetup.slab true true _ _ hrun).deferred_le
  have hcounted : s'.deferred = 1 := by
    rw [(State.sameLate_collect hbook).deferred]
    show u64 (s.deferred + 1) = 1
    rw [hdeferred]
    rfl
  -- One late sample is counted and none is stored.
  have hnone : s'.samples = 0 := hdropped.samples_eq.trans hsamples
  rw [hcounted, hnone] at hwithin
  exact absurd hwithin (by decide)

/-- With room for the function on the stack, the same two ticks are two samples. -/
theorem lateWithin_of_run_stored : ∃ as m,
    Run (Guarded StoresLate MachineSteps) (setUp smallSetup.timer 64 256 smallSetup.slab true true) as m ∧
      m.prof.deferred = 1 ∧ LateWithin m.prof := by
  have hwide := wide_start smallSetup_works (by decide : 0 < 64) (by decide)
  obtain ⟨l₀, -, hstart, -⟩ := steps_start smallSetup.prof 64
  obtain ⟨hsamples, hdeferred⟩ := startedCounters 64
  generalize (smallSetup.prof.start 1000000 64 0 startUp ⟨true, true⟩).2 = s at *
  obtain ⟨l, hfront⟩ := run_lateTicks hwide.pendingTicks hwide.pendingDeliveries l₀
  have hsampling : Sampling s := ⟨hwide.stored, hwide.ready, hwide.running, hwide.deadlineNs⟩
  -- The stack of one function has room in both tables, so the condition is met.
  obtain ⟨s', hbook, -⟩ := hwide.stored.book [some (closureAt 0)] 2 2
  have hserve := (hsampling.step_serve Nat.two_pos hbook startUp l).2
  have hroom := hwide.hasRoomFor (by decide : 0 < 64) (by decide : 0 + 1 < 256)
  have hok : StoresLate ⟨s, .serving 2 2, l⟩ (.serve [some (closureAt 0)] startUp) := by
    rintro stack now pending deliveries ⟨⟩ ⟨⟩ -
    refine ⟨fun _ => ⟨hroom, by decide⟩, fun _ => ?_⟩
    show s.samples + 2 < 2 ^ 64
    rw [hsamples]
    decide
  have hquiet : StoresLate smallSetup.machine (.start 1000000 64 0 startUp ⟨true, true⟩) := by
    intro stack now pending deliveries haction
    cases haction
  have hrun := Run.cons ⟨hquiet, hstart⟩ (hfront.append (.single ⟨hok, hserve⟩))
  refine ⟨_, _, hrun, ?_, lateWithin_of_run smallSetup.timer 64 256 smallSetup.slab true true (by decide)
    (by decide) (fun bytes hbytes => ?_) hrun⟩
  · show s'.deferred = 1
    rw [(State.sameLate_collect hbook).deferred]
    show u64 (s.deferred + 1) = 1
    rw [hdeferred]
    rfl
  · rw [smallSetup.slab_length bytes hbytes]
    decide

end CboxTelemetry.Profiler
