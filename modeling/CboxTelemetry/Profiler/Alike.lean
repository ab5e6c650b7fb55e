import CboxTelemetry.Profiler.AlikeTables
import CboxTelemetry.Profiler.Output

/-!
# Profilers that cannot be told apart

Two profilers are alike (`State.Alike`) if they are the same but for the tables, which are alike, and for what
does not matter any more when the profiler stands still: the limits of its last start. The period is not part
of this, because it is reported by itself. Each function takes profilers that are alike to profilers that are
alike, and returns the same in both.
-/

namespace CboxTelemetry.Profiler
namespace State

/-! ## The relations -/

/-- What is the same in profilers that are alike. -/
def core (s : State) : State := { s with
  arena := .cleared
  frames := .cleared
  tree := .cleared
  timer := .blank
  periodNs := 0
  maxDepth := 0
  deadlineNs := 0 }

/-- The storage of two profilers while a sample is taken. -/
structure Matched (s s' : State) : Prop where
  core_eq : s'.core = s.core
  frames : FrameTable.Alike s.frames s.arena s'.frames s'.arena
  tree : StackTree.Alike s.tree s'.tree
  maxDepth_eq : s'.maxDepth = s.maxDepth

/-- Profilers that are alike. If they are `tied`, so are their timers. -/
structure Alike (tied : Prop) (s s' : State) : Prop where
  core_eq : s'.core = s.core
  frames : s.ready = true → FrameTable.Alike s.frames s.arena s'.frames s'.arena
  tree : s.ready = true → StackTree.Alike s.tree s'.tree
  nothing : s.ready = false → s'.frames = s.frames ∧ s'.tree = s.tree
  live : s.running = true → s'.maxDepth = s.maxDepth ∧ s'.deadlineNs = s.deadlineNs
  timer : tied → s'.timer = s.timer

/-- What a function returns in both. -/
def MatchedResult {α : Type} (r r' : α × State) : Prop := r'.1 = r.1 ∧ Matched r.2 r'.2

variable {tied : Prop} {s s' : State}

/-! ## One sample -/

/-- Two matched states give a function the same number. -/
theorem Matched.intern (h : Matched s s') (name file : Bytes) (line : UInt32) :
    Option.Rel MatchedResult (s.intern name file line) (s'.intern name file line) := by
  obtain ⟨id, t₁, a₁, t₁', a₁', hintern, hintern', halike⟩ := h.frames.intern name file line
  unfold State.intern
  simp only [hintern, hintern']
  exact .some ⟨rfl, h.core_eq, halike, h.tree, h.maxDepth_eq⟩

theorem Matched.frameFor (h : Matched s s') (f : ZendFunction) :
    Option.Rel MatchedResult (s.frameFor f) (s'.frameFor f) :=
  h.intern _ _ _

/-- The number of a marker is kept where it is looked up. -/
theorem Matched.engineFrameId (h : Matched s s') :
    Option.Rel MatchedResult s.engineFrameId s'.engineFrameId := by
  have hmarker : s'.engineFrame = s.engineFrame :=
    show s'.core.engineFrame = s.core.engineFrame from congrArg State.engineFrame h.core_eq
  -- Both have the marker by now, or both intern it.
  have hintern := h.intern (ascii "<engine>") [] 0
  unfold State.engineFrameId
  rw [hmarker]
  cases s.engineFrame with
  | some id => exact .some ⟨rfl, h⟩
  | none =>
    generalize s.intern (ascii "<engine>") [] 0 = r at hintern
    generalize s'.intern (ascii "<engine>") [] 0 = r' at hintern
    cases hintern with
    | none => exact .none
    | @some r r' hresult =>
      obtain ⟨id, t⟩ := r
      obtain ⟨id', t'⟩ := r'
      obtain ⟨hid, hcore, hframes, htree, hdepth⟩ := hresult
      cases hid
      exact .some ⟨rfl, congrArg (fun c : State => { c with engineFrame := id }) hcore, hframes, htree, hdepth⟩

/-- The marker of a truncated stack has the same number in both. -/
theorem Matched.truncationFrameId (h : Matched s s') :
    Option.Rel MatchedResult s.truncationFrameId s'.truncationFrameId := by
  have hmarker : s'.truncatedFrame = s.truncatedFrame :=
    show s'.core.truncatedFrame = s.core.truncatedFrame from congrArg State.truncatedFrame h.core_eq
  have hintern := h.intern (ascii "<truncated>") [] 0
  unfold State.truncationFrameId
  rw [hmarker]
  cases s.truncatedFrame with
  | some id => exact .some ⟨rfl, h⟩
  | none =>
    generalize s.intern (ascii "<truncated>") [] 0 = r at hintern
    generalize s'.intern (ascii "<truncated>") [] 0 = r' at hintern
    cases hintern with
    | none => exact .none
    | @some r r' hresult =>
      obtain ⟨id, t⟩ := r
      obtain ⟨id', t'⟩ := r'
      obtain ⟨hid, hcore, hframes, htree, hdepth⟩ := hresult
      cases hid
      exact .some
        ⟨rfl, congrArg (fun c : State => { c with truncatedFrame := id }) hcore, hframes, htree, hdepth⟩

/-- A walk up the stack gives both the same numbers. -/
theorem Matched.walk (h : Matched s s') (maxDepth : Nat) (stack : Stack) (ids : List Nat) :
    Option.Rel MatchedResult (walk maxDepth stack s ids) (walk maxDepth stack s' ids) := by
  induction stack generalizing s s' ids with
  | nil => exact .some ⟨rfl, h⟩
  | cons frame stack ih =>
    cases frame with
    | none => exact ih h ids
    | some f =>
      unfold State.walk
      split
      · exact .some ⟨rfl, h⟩
      · have hframe := h.frameFor f
        generalize s.frameFor f = r at hframe
        generalize s'.frameFor f = r' at hframe
        cases hframe with
        | none => exact .none
        | @some r r' hresult =>
          obtain ⟨id, t⟩ := r
          obtain ⟨id', t'⟩ := r'
          obtain ⟨hid, hnext⟩ := hresult
          cases hid
          cases id with
          | none => exact .some ⟨rfl, hnext⟩
          | some id => exact ih hnext (ids ++ [id])

/-- Both find the same path for a sample. -/
theorem Matched.samplePath (h : Matched s s') (stack : Stack) :
    Option.Rel MatchedResult (s.samplePath stack) (s'.samplePath stack) := by
  have hlimit : s'.depthLimit = s.depthLimit := by
    unfold depthLimit
    rw [h.maxDepth_eq]
  have hwalk := h.walk s.depthLimit stack []
  unfold State.samplePath
  rw [hlimit]
  generalize State.walk s.depthLimit stack s [] = r at hwalk
  generalize State.walk s.depthLimit stack s' [] = r' at hwalk
  cases hwalk with
  | none => exact .none
  | @some r r' hresult =>
    obtain ⟨w, t⟩ := r
    obtain ⟨w', t'⟩ := r'
    obtain ⟨hw, hnext⟩ := hresult
    cases hw
    match w with
    -- No path for a dropped sample, a marked one for a truncated stack, and otherwise the walk's own.
    | .dropped => exact .some ⟨rfl, hnext⟩
    | .walked ids true =>
      have hmarker := hnext.truncationFrameId
      simp only
      generalize State.truncationFrameId t = r at hmarker
      generalize State.truncationFrameId t' = r' at hmarker
      cases hmarker with
      | none => exact .none
      | @some r r' hresult =>
        obtain ⟨id, u⟩ := r
        obtain ⟨id', u'⟩ := r'
        obtain ⟨hid, hmarked⟩ := hresult
        cases hid
        cases id <;> exact .some ⟨rfl, hmarked⟩
    | .walked ids false =>
      simp only
      split
      · have hengine := hnext.engineFrameId
        generalize State.engineFrameId t = r at hengine
        generalize State.engineFrameId t' = r' at hengine
        cases hengine with
        | none => exact .none
        | @some r r' hresult =>
          obtain ⟨id, u⟩ := r
          obtain ⟨id', u'⟩ := r'
          obtain ⟨hid, hmarked⟩ := hresult
          cases hid
          cases id <;> exact .some ⟨rfl, hmarked⟩
      · exact .some ⟨rfl, hnext⟩

/-- A dropped sample counts the same in both. -/
theorem Matched.drop (h : Matched s s') (weight : Nat) : Matched (s.drop weight) (s'.drop weight) where
  core_eq := congrArg (fun c : State => c.drop weight) h.core_eq
  frames := h.frames
  tree := h.tree
  maxDepth_eq := h.maxDepth_eq

theorem Matched.setTree (h : Matched s s') {tree tree' : StackTree} (htree : StackTree.Alike tree tree') :
    Matched { s with tree := tree } { s' with tree := tree' } :=
  ⟨h.core_eq, h.frames, htree, h.maxDepth_eq⟩

/-- **A sample** is stored in both or dropped in both. -/
theorem Matched.collect (h : Matched s s') (stack : Stack) (weight : Nat) :
    Option.Rel Matched (s.collect stack weight) (s'.collect stack weight) := by
  have hpath := h.samplePath stack
  unfold State.collect
  generalize s.samplePath stack = r at hpath
  generalize s'.samplePath stack = r' at hpath
  cases hpath with
  | none => exact .none
  | @some r r' hresult =>
    obtain ⟨path, t⟩ := r
    obtain ⟨path', t'⟩ := r'
    obtain ⟨hsame, hnext⟩ := hresult
    cases hsame
    cases path with
    -- Dropped by the walk, dropped by the tree, or booked at the same node.
    | none => exact .some (hnext.drop weight)
    | some path =>
      have hdescend := hnext.tree.descend nodeRoot path
      simp only
      generalize StackTree.descend (State.tree t) nodeRoot path = r at hdescend
      generalize StackTree.descend (State.tree t') nodeRoot path = r' at hdescend
      cases hdescend with
      | none => exact .none
      | @some r r' hresult =>
        obtain ⟨node, tree⟩ := r
        obtain ⟨node', tree'⟩ := r'
        obtain ⟨hnode, htree⟩ := hresult
        cases hnode
        cases node with
        | none => exact .some ((hnext.setTree htree).drop weight)
        | some node =>
          have hbooked := hnext.setTree (htree.record node weight)
          exact .some ⟨congrArg (fun c : State => { c with samples := u64 (c.samples + weight) }) hbooked.core_eq,
            hbooked.frames, hbooked.tree, hbooked.maxDepth_eq⟩

/-! ## Ticks and interrupts -/

theorem Alike.ready_eq (h : Alike tied s s') : s'.ready = s.ready :=
  show s'.core.ready = s.core.ready from congrArg State.ready h.core_eq

theorem Alike.running_eq (h : Alike tied s s') : s'.running = s.running :=
  show s'.core.running = s.core.running from congrArg State.running h.core_eq

/-- The counters that are reported. -/
theorem Alike.counters_eq (h : Alike tied s s') : s'.samples = s.samples ∧ s'.dropped = s.dropped ∧
    s'.deferred = s.deferred ∧ s'.deferredEvents = s.deferredEvents ∧ s'.maxDeferred = s.maxDeferred ∧
    s'.timerOverruns = s.timerOverruns ∧ s'.capped = s.capped := by
  have hcore : ∀ {α : Type} (field : State → α), field s'.core = field s.core :=
    fun field => congrArg field h.core_eq
  exact ⟨hcore State.samples, hcore State.dropped, hcore State.deferred, hcore State.deferredEvents,
    hcore State.maxDeferred, hcore State.timerOverruns, hcore State.capped⟩

/-- What is reported of the tables. -/
theorem Alike.tables_eq (h : Alike tied s s') : s'.frames.capacityHits = s.frames.capacityHits ∧
    s'.tree.capacityHits = s.tree.capacityHits ∧ s'.frames.frames = s.frames.frames ∧
    s'.tree.nodes = s.tree.nodes := by
  cases hready : s.ready with
  | true =>
    have hframes := h.frames hready
    have htree := h.tree hready
    exact ⟨hframes.capacityHits_eq, htree.capacityHits_eq, hframes.frames_eq, htree.nodes_eq⟩
  | false =>
    obtain ⟨hframes, htree⟩ := h.nothing hready
    rw [hframes, htree]
    exact ⟨rfl, rfl, rfl, rfl⟩

theorem Alike.tick (h : Alike tied s s') (ticks : Nat) : Alike tied (s.tick ticks) (s'.tick ticks) :=
  ⟨congrArg (fun c : State => c.tick ticks) h.core_eq, h.frames, h.tree, h.nothing, h.live, h.timer⟩

/-- The same ticks leave two alike states alike. -/
theorem Alike.foldl_tick (h : Alike tied s s') (ticks : List Nat) :
    Alike tied (ticks.foldl State.tick s) (ticks.foldl State.tick s') := by
  induction ticks generalizing s s' with
  | nil => exact h
  | cons n ticks ih => exact ih (h.tick n)

/-- Both take the same ticks. -/
theorem Alike.takeTicks (h : Alike tied s s') :
    s'.takeTicks.1 = s.takeTicks.1 ∧ Alike tied s.takeTicks.2 s'.takeTicks.2 :=
  ⟨show s'.core.pendingTicks = s.core.pendingTicks from congrArg State.pendingTicks h.core_eq,
    congrArg (fun c : State => c.takeTicks.2) h.core_eq, h.frames, h.tree, h.nothing, h.live, h.timer⟩

/-- Both take the same deliveries. -/
theorem Alike.takeDeliveries (h : Alike tied s s') :
    s'.takeDeliveries.1 = s.takeDeliveries.1 ∧ Alike tied s.takeDeliveries.2 s'.takeDeliveries.2 :=
  ⟨show s'.core.pendingDeliveries = s.core.pendingDeliveries from congrArg State.pendingDeliveries h.core_eq,
    congrArg (fun c : State => c.takeDeliveries.2) h.core_eq, h.frames, h.tree, h.nothing, h.live, h.timer⟩

/-- Two alike states are alike once stopped. -/
theorem Alike.stop (h : Alike tied s s') : Alike tied s.stop s'.stop := by
  cases hrunning : s.running with
  | false => rwa [stop_of_stopped hrunning, stop_of_stopped (h.running_eq.trans hrunning)]
  | true =>
    rw [stop_of_running hrunning, stop_of_running (h.running_eq.trans hrunning)]
    refine ⟨?_, h.frames, h.tree, h.nothing, nofun, fun htied => congrArg Timer.disarm (h.timer htied)⟩
    exact congrArg (fun c : State =>
      { c with running := false, pendingTicks := 0, pendingDeliveries := 0 }) h.core_eq

theorem Alike.clearDeadline (h : Alike tied s s') : Alike tied s.clearDeadline s'.clearDeadline :=
  ⟨h.core_eq, h.frames, h.tree, h.nothing, fun hrunning => ⟨(h.live hrunning).1, rfl⟩, h.timer⟩

/-- Accounting for what was taken keeps them alike. -/
theorem Alike.account (h : Alike tied s s') (pending deliveries : Nat) :
    Alike tied (s.account pending deliveries) (s'.account pending deliveries) :=
  ⟨congrArg (fun c : State => c.account pending deliveries) h.core_eq, h.frames, h.tree, h.nothing, h.live,
    h.timer⟩

/-- The storage of profilers that run. -/
theorem Alike.matched (h : Alike tied s s') (hready : s.ready = true) (hrunning : s.running = true) :
    Matched s s' :=
  ⟨h.core_eq, h.frames hready, h.tree hready, (h.live hrunning).1⟩

/-- The look at the deadline. The clock matters where there is one. -/
theorem Alike.checkDeadline (h : Alike tied s s') (hrunning : s.running = true) {now now' : Instant}
    (hnow : s.deadlineNs ≠ 0 → now' = now) :
    (s'.checkDeadline now').1 = (s.checkDeadline now).1 ∧
      Alike tied (s.checkDeadline now).2 (s'.checkDeadline now').2 := by
  have hdeadline := (h.live hrunning).2
  have hdue : s'.deadlineDue = s.deadlineDue := by
    -- When the clock is looked at depends on counters that both share.
    have hcounts : (decide (512 ≤ sub64 s'.interrupts s'.deadlineCheckedAt)
        || decide (512 ≤ sub64 s'.ticks s'.deadlineTicksAt)) =
        (decide (512 ≤ sub64 s.interrupts s.deadlineCheckedAt)
          || decide (512 ≤ sub64 s.ticks s.deadlineTicksAt)) := by
      have hcore := congrArg (fun c : State => decide (512 ≤ sub64 c.interrupts c.deadlineCheckedAt)
        || decide (512 ≤ sub64 c.ticks c.deadlineTicksAt)) h.core_eq
      exact hcore
    unfold deadlineDue
    rw [hdeadline, hcounts]
  constructor
  · show (s'.deadlineDue && decide (s'.deadlineNs < now'.ns)) = (s.deadlineDue && decide (s.deadlineNs < now.ns))
    rw [hdue, hdeadline]
    by_cases hnone : s.deadlineNs = 0
    · have hnot : s.deadlineDue = false := by
        unfold deadlineDue
        rw [hnone]
        rfl
      rw [hnot]
      rfl
    · rw [hnow hnone]
  · refine ⟨?_, h.frames, h.tree, h.nothing, h.live, h.timer⟩
    show State.core { s' with
        deadlineCheckedAt := if s'.deadlineDue then s'.interrupts else s'.deadlineCheckedAt
        deadlineTicksAt := if s'.deadlineDue then s'.ticks else s'.deadlineTicksAt } = _
    rw [hdue]
    exact congrArg (fun c : State => { c with
      deadlineCheckedAt := if s.deadlineDue then c.interrupts else c.deadlineCheckedAt
      deadlineTicksAt := if s.deadlineDue then c.ticks else c.deadlineTicksAt }) h.core_eq

/-- Two alike states serve an interrupt alike when their clocks agree wherever the deadline is
looked at. -/
theorem Alike.serve (h : Alike tied s s') (hs : s.Sound) (hs' : s'.Sound) (stack : Stack)
    (pending deliveries : Nat) {now now' : Instant}
    (hnow : s.running = true → s.deadlineNs ≠ 0 → now' = now) :
    Option.Rel (Alike tied) (s.serve stack pending deliveries now) (s'.serve stack pending deliveries now') := by
  have hbooks : s'.books pending = s.books pending := by
    unfold books
    rw [h.ready_eq, h.running_eq]
  unfold State.serve
  rw [hbooks]
  split
  · next hgo =>
    simp only [books, Bool.and_eq_true] at hgo
    obtain ⟨⟨-, hrunning⟩, hready⟩ := hgo
    have hbook := ((h.account pending deliveries).matched hready hrunning).collect stack pending
    obtain ⟨s₁, hs₁, hcollected⟩ := (hs.stored hready).book stack pending deliveries
    obtain ⟨s₁', hs₁', hcollected'⟩ := (hs'.stored (h.ready_eq.trans hready)).book stack pending deliveries
    unfold State.book at hs₁ hs₁' ⊢
    rw [hs₁, hs₁'] at hbook
    rw [hs₁, hs₁']
    obtain ⟨hrun₁, htimer₁, hready₁, -, hdeadline₁⟩ := hcollected.keeps
    obtain ⟨-, htimer₁', -, -, hdeadline₁'⟩ := hcollected'.keeps
    cases hbook with
    | some hmatched =>
      -- Collecting has left the limits and the timer alone.
      have hlimits : s₁'.deadlineNs = s₁.deadlineNs :=
        hdeadline₁'.trans ((h.live hrunning).2.trans hdeadline₁.symm)
      have halike : Alike tied s₁ s₁' :=
        ⟨hmatched.core_eq, fun _ => hmatched.frames, fun _ => hmatched.tree,
          fun hno => absurd (hno.symm.trans (hready₁.trans hready)) Bool.false_ne_true,
          fun _ => ⟨hmatched.maxDepth_eq, hlimits⟩,
          fun htied => htimer₁'.trans ((h.timer htied).trans htimer₁.symm)⟩
      have hnow₁ : s₁.deadlineNs ≠ 0 → now' = now := fun hne =>
        hnow hrunning fun hzero => hne (hdeadline₁.trans hzero)
      obtain ⟨hpassed, hchecked⟩ := halike.checkDeadline (hrun₁.trans hrunning) hnow₁
      simp only [hpassed]
      split
      · obtain ⟨hcore, hframes, htree, hnothing, hlive, htimer⟩ := hchecked.stop
        exact .some ⟨congrArg (fun c : State => { c with capped := true }) hcore, hframes, htree, hnothing, hlive,
          htimer⟩
      · exact .some hchecked
  · exact .some h

/-- **An interrupt.** -/
theorem Alike.interrupt (h : Alike tied s s') (hs : s.Sound) (hs' : s'.Sound) (stack : Stack)
    (between : List Nat) {now now' : Instant} (hnow : s.running = true → s.deadlineNs ≠ 0 → now' = now) :
    Option.Rel (Alike tied) (s.interrupt stack between now) (s'.interrupt stack between now') := by
  obtain ⟨hticks, htaken⟩ := h.takeTicks
  obtain ⟨hdeliveries, hfront⟩ := (htaken.foldl_tick between).takeDeliveries
  have hsound : ∀ s : State, s.Sound → (between.foldl State.tick s.takeTicks.2).takeDeliveries.2.Sound := by
    intro s hs
    rw [takeBoth_eq]
    exact hs.same (s.same_pending _ 0)
  have hnow₁ : (between.foldl State.tick s.takeTicks.2).takeDeliveries.2.running = true →
      -- What the interrupt took is the same, so it is served alike.
      (between.foldl State.tick s.takeTicks.2).takeDeliveries.2.deadlineNs ≠ 0 → now' = now := by
    rw [takeBoth_eq]
    exact hnow
  have hserve := hfront.serve (hsound s hs) (hsound s' hs') stack s.takeTicks.1
    (between.foldl State.tick s.takeTicks.2).takeDeliveries.1 hnow₁
  unfold State.interrupt
  simp only [hticks, hdeliveries]
  exact hserve

/-- What is handed out. -/
theorem Alike.profileInto (h : Alike tied s s') (hready : s.ready = true) (hperiod : s'.periodNs = s.periodNs)
    (includeStacks : Bool) : s'.profileInto includeStacks = s.profileInto includeStacks := by
  have hframes := h.frames hready
  have hnodes := (h.tree hready).nodes_eq
  -- An entry of the report depends on the function's key only, and the keys are the same.
  have hentry : ∀ (arena : Arena) (f : Frame), frameEntry arena f =
      ⟨(f.key arena).name, f.fileOff.map fun _ => (f.key arena).file, f.line.toNat⟩ := by
    intro arena f
    cases hoff : f.fileOff <;> simp only [frameEntry, Frame.key, hoff, Option.map_none, Option.map_some]
  have hentries : s'.frames.frames.map (frameEntry s'.arena) = s.frames.frames.map (frameEntry s.arena) := by
    have hkeys : s.frames.frames.map (Frame.key s'.arena) = s.frames.frames.map (Frame.key s.arena) := by
      have hkeys := hframes.keys_eq
      rwa [FrameTable.keys, FrameTable.keys, hframes.frames_eq] at hkeys
    rw [hframes.frames_eq]
    refine List.map_congr_left fun f hf => ?_
    have hkey := List.map_inj_left.mp hkeys f hf
    rw [hentry, hentry, hkey]
  have htotals : s'.functionTotals = s.functionTotals := by
    unfold functionTotals
    rw [hnodes, hframes.frames_eq]
  obtain ⟨hsamples, hdropped, hdeferred, hevents, hmax, hoverruns, -⟩ := h.counters_eq
  unfold State.profileInto topFunctions stackList
  rw [hperiod, hentries, htotals, hnodes, hsamples, hdropped, hdeferred, hevents, hmax, hoverruns]

end State
end CboxTelemetry.Profiler
