import CboxTelemetry.Profiler.Alike

/-!
# Starting over

A profiler never gets more room than it was set up with, and never less (`State.SameRoom`). So two of them that
were set up alike are alike whenever they are reset, whatever either has sampled before.
-/

namespace CboxTelemetry.Profiler

/-! ## What the tables keep -/

namespace FrameTable

/-- Adding a function leaves the mask. -/
theorem bucketMask_add (t : FrameTable) (a : Arena) (key : FrameKey) (slot : Nat) :
    (t.add a key slot).2.1.bucketMask = t.bucketMask := by
  unfold FrameTable.add
  split
  · rfl
  · split
    · rfl
    · simp only
      split <;> split <;> rfl

/-- Interning keeps the size of the table and of the arena. -/
theorem Valid.intern_room {t t₁ : FrameTable} {a a₁ : Arena} (h : t.Valid a) {name file : Bytes} {line : UInt32}
    {id : Option Nat} (hintern : t.intern a name file line = some (id, t₁, a₁)) :
    t₁.capacity = t.capacity ∧ t₁.bucketMask = t.bucketMask ∧ a₁.size = a.size := by
  obtain ⟨r, heq, hcases⟩ := h.intern name file line
  rw [hintern] at heq
  cases heq
  have hmask : t₁.bucketMask = t.bucketMask := by
    unfold FrameTable.intern at hintern
    split at hintern
    · cases hintern
      rfl
    · simp only at hintern
      generalize OpenAddressing.probe _ _ _ _ _ = probed at hintern
      match probed, hintern with
      | some (.found _), rfl => rfl
      | some (.free slot), hadded =>
        have hmask := bucketMask_add t a (keyOf name file line) slot
        rwa [show t.add a (keyOf name file line) slot = (id, t₁, a₁) from Option.some.inj hadded] at hmask
  cases hcases with
  | refused _ _ hgrows _ => exact ⟨rfl, hmask, hgrows.size_eq⟩
  | found _ _ => exact ⟨rfl, hmask, rfl⟩
  | added _ _ _ _ hgrows hcapacity _ _ => exact ⟨hcapacity, hmask, hgrows.size_eq⟩

end FrameTable

namespace StackTree
variable {t t₁ : StackTree}

/-- So does adding a node. -/
theorem bucketMask_child {parent frameId : Nat} {id : Option Nat} (h : t.child parent frameId = some (id, t₁)) :
    t₁.bucketMask = t.bucketMask := by
  unfold StackTree.child at h
  split at h
  · cases h
    rfl
  · simp only at h
    generalize OpenAddressing.probe _ _ _ _ _ = probed at h
    match probed, h with
    | some (.found _), rfl => rfl
    | some (.free slot), h =>
      simp only at h
      split at h <;> cases h <;> rfl

/-- So does a path of nodes. -/
theorem bucketMask_descend {node : Nat} {path : List Nat} {id : Option Nat}
    (h : t.descend node path = some (id, t₁)) : t₁.bucketMask = t.bucketMask := by
  induction path generalizing t node with
  | nil =>
    cases h
    rfl
  | cons frameId path ih =>
    unfold StackTree.descend at h
    split at h
    · cases h
    · next hchild =>
      cases h
      exact bucketMask_child hchild
    · next hchild => exact (ih h).trans (bucketMask_child hchild)

/-- Booking leaves the room of the tree. -/
theorem room_record (t : StackTree) (node weight : Nat) :
    (t.record node weight).capacity = t.capacity ∧ (t.record node weight).bucketMask = t.bucketMask := by
  unfold StackTree.record
  split <;> exact ⟨rfl, rfl⟩

end StackTree

namespace State
variable {s s' s'' : State}

/-! ## What a profiler keeps -/

/-- The counters of a profiler that is not ready. -/
def counted (s : State) : State := { s.core with running := false, pendingTicks := 0, pendingDeliveries := 0 }

/-- Tables of the same size; or none, and the same counters. -/
structure SameRoom (s s' : State) : Prop where
  ready_eq : s'.ready = s.ready
  arena_eq : s.ready = true → s'.arena.size = s.arena.size
  frames_eq : s.ready = true →
    s'.frames.capacity = s.frames.capacity ∧ s'.frames.bucketMask = s.frames.bucketMask
  tree_eq : s.ready = true → s'.tree.capacity = s.tree.capacity ∧ s'.tree.bucketMask = s.tree.bucketMask
  counted_eq : s.ready = false → s'.counted = s.counted

theorem SameRoom.refl (s : State) : SameRoom s s :=
  ⟨rfl, fun _ => rfl, fun _ => ⟨rfl, rfl⟩, fun _ => ⟨rfl, rfl⟩, fun _ => rfl⟩

/-- Having the same room is symmetric. -/
theorem SameRoom.symm (h : SameRoom s s') : SameRoom s' s := by
  obtain ⟨hready, harena, hframes, htree, hcounted⟩ := h
  rw [← hready] at harena hframes htree hcounted
  exact ⟨hready.symm, fun h => (harena h).symm, fun h => ⟨(hframes h).1.symm, (hframes h).2.symm⟩,
    fun h => ⟨(htree h).1.symm, (htree h).2.symm⟩, fun h => (hcounted h).symm⟩

/-- And transitive. -/
theorem SameRoom.trans (h : SameRoom s s') (h' : SameRoom s' s'') : SameRoom s s'' := by
  obtain ⟨hready, harena, hframes, htree, hcounted⟩ := h'
  rw [h.ready_eq] at harena hframes htree hcounted
  exact ⟨hready.trans h.ready_eq, fun h₁ => (harena h₁).trans (h.arena_eq h₁),
    fun h₁ => ⟨(hframes h₁).1.trans (h.frames_eq h₁).1, (hframes h₁).2.trans (h.frames_eq h₁).2⟩,
    fun h₁ => ⟨(htree h₁).1.trans (h.tree_eq h₁).1, (htree h₁).2.trans (h.tree_eq h₁).2⟩,
    fun h₁ => (hcounted h₁).trans (h.counted_eq h₁)⟩

/-- What leaves the storage alone. -/
theorem SameRoom.of_same (h : Same s s') (hcounted : s.ready = false → s'.counted = s.counted) : SameRoom s s' where
  ready_eq := h.ready
  arena_eq _ := by rw [h.arena]
  frames_eq _ := by rw [h.frames]; exact ⟨rfl, rfl⟩
  tree_eq _ := by rw [h.tree]; exact ⟨rfl, rfl⟩
  counted_eq := hcounted

/-- A stop leaves the room. -/
theorem sameRoom_stop (s : State) : SameRoom s s.stop := by
  refine .of_same (same_stop s) fun _ => ?_
  cases hrunning : s.running with
  | true => rw [stop_of_running hrunning]; rfl
  | false => rw [stop_of_stopped hrunning]

/-- So does a reset. -/
theorem sameRoom_reset (s : State) : SameRoom s s.reset := by
  cases hready : s.ready with
  | false =>
    have hreset : s.reset = s := by simp only [State.reset, hready, Bool.not_false, if_true]
    rw [hreset]
    exact .refl s
  | true =>
    have htree : s.tree.reset.bucketMask = s.tree.bucketMask := by
      unfold StackTree.reset
      split <;> rfl
    unfold State.reset
    simp only [hready, Bool.not_true, Bool.false_eq_true, if_false]
    exact ⟨hready.symm, fun _ => rfl, fun _ => ⟨FrameTable.capacity_reset _, FrameTable.bucketMask_reset _⟩,
      fun _ => ⟨StackTree.capacity_reset _, htree⟩, fun hno => absurd (hno.symm.trans hready) Bool.false_ne_true⟩

/-- So does a start. -/
theorem sameRoom_start (s : State) (periodNs maxDepth maxDurationNs : Nat) (now : Instant) (io : TimerIo) :
    SameRoom s (s.start periodNs maxDepth maxDurationNs now io).2 := by
  have hstarted := started_start s periodNs maxDepth maxDurationNs now io
  generalize s.start periodNs maxDepth maxDurationNs now io = result at hstarted
  have hnot : s.ready = true → ∀ s' : State, s.reset.ready = false → s'.counted = s.reset.counted := by
    intro hready s' hno
    rw [ready_reset, hready] at hno
    cases hno
  cases hstarted with
  | refused _ => exact .refl s
  | unarmed s' hready hsame _ _ _ => exact (sameRoom_reset s).trans (.of_same hsame (hnot hready s'))
  | running s' hready hsame _ _ _ _ _ => exact (sameRoom_reset s).trans (.of_same hsame (hnot hready s'))

/-- A start keeps the handler that is installed. -/
theorem start_installed (s : State) (periodNs maxDepth maxDurationNs : Nat) (now : Instant) (io : TimerIo) :
    (s.start periodNs maxDepth maxDurationNs now io).2.timer.installed = s.timer.installed := by
  unfold State.start
  split
  · rfl
  · simp only [reset_timer]
    obtain ⟨timer, harm, -, -, -, hinstalled⟩ | ⟨timer, harm, -, hinstalled, -⟩ := Timer.arm_cases io periodNs s.timer
    · rw [harm]
      exact hinstalled
    · rw [harm]
      exact hinstalled

/-! ## Room while sampling -/

/-- The sizes that interning is about. -/
structure SameSizes (s s' : State) : Prop where
  arena_eq : s'.arena.size = s.arena.size
  capacity_eq : s'.frames.capacity = s.frames.capacity
  bucketMask_eq : s'.frames.bucketMask = s.frames.bucketMask

theorem SameSizes.refl (s : State) : SameSizes s s := ⟨rfl, rfl, rfl⟩

theorem SameSizes.trans (h : SameSizes s s') (h' : SameSizes s' s'') : SameSizes s s'' :=
  ⟨h'.arena_eq.trans h.arena_eq, h'.capacity_eq.trans h.capacity_eq, h'.bucketMask_eq.trans h.bucketMask_eq⟩

/-- Interning leaves the sizes. -/
theorem Stored.intern_sizes (h : s.Stored) {name file : Bytes} {line : UInt32} {id : Option Nat}
    (hintern : s.intern name file line = some (id, s')) : SameSizes s s' := by
  unfold State.intern at hintern
  split at hintern
  · cases hintern
  · next hframes =>
    cases hintern
    obtain ⟨hcapacity, hmask, hsize⟩ := h.frames.intern_room hframes
    exact ⟨hsize, hcapacity, hmask⟩

/-- So does the marker of an empty stack. -/
theorem Stored.engineFrameId_sizes (h : s.Stored) {id : Option Nat} (hid : s.engineFrameId = some (id, s')) :
    SameSizes s s' := by
  unfold State.engineFrameId at hid
  split at hid
  · cases hid
    exact .refl _
  · split at hid
    · cases hid
    · next hintern =>
      cases hid
      obtain ⟨harena, hcapacity, hmask⟩ := h.intern_sizes hintern
      exact ⟨harena, hcapacity, hmask⟩

/-- And that of a truncated one. -/
theorem Stored.truncationFrameId_sizes (h : s.Stored) {id : Option Nat}
    (hid : s.truncationFrameId = some (id, s')) : SameSizes s s' := by
  unfold State.truncationFrameId at hid
  split at hid
  · cases hid
    exact .refl _
  · split at hid
    · cases hid
    · next hintern =>
      cases hid
      obtain ⟨harena, hcapacity, hmask⟩ := h.intern_sizes hintern
      exact ⟨harena, hcapacity, hmask⟩

/-- The walk leaves the sizes. -/
theorem Stored.walk_sizes (h : s.Stored) {maxDepth : Nat} {stack : Stack} {ids : List Nat} {w : Walk}
    (hwalk : State.walk maxDepth stack s ids = some (w, s')) : s'.Stored ∧ SameSizes s s' := by
  induction stack generalizing s ids with
  | nil =>
    cases hwalk
    exact ⟨h, .refl _⟩
  | cons frame stack ih =>
    cases frame with
    | none => exact ih h hwalk
    | some f =>
      obtain ⟨id, s₁, hframe, hframed, -⟩ := h.frameFor f
      have hsizes : SameSizes s s₁ := h.intern_sizes hframe
      unfold State.walk at hwalk
      rw [hframe] at hwalk
      split at hwalk
      · cases hwalk
        exact ⟨h, .refl _⟩
      · cases id with
        | none =>
          cases hwalk
          exact ⟨hframed.stored, hsizes⟩
        | some id =>
          obtain ⟨hstored, hrest⟩ := ih hframed.stored hwalk
          exact ⟨hstored, hsizes.trans hrest⟩

/-- Sampling a path leaves the sizes. -/
theorem Stored.samplePath_sizes (h : s.Stored) {stack : Stack} {path : Option (List Nat)}
    (hpath : s.samplePath stack = some (path, s')) : SameSizes s s' := by
  unfold State.samplePath at hpath
  split at hpath
  · cases hpath
  · next hwalk =>
    cases hpath
    exact (h.walk_sizes hwalk).2
  · next hwalk =>
    obtain ⟨hstored, hsizes⟩ := h.walk_sizes hwalk
    split at hpath
    · cases hpath
    · next hmarker =>
      cases hpath
      exact hsizes.trans (hstored.truncationFrameId_sizes hmarker)
    · next hmarker =>
      cases hpath
      exact hsizes.trans (hstored.truncationFrameId_sizes hmarker)
  · next hwalk =>
    obtain ⟨hstored, hsizes⟩ := h.walk_sizes hwalk
    split at hpath
    · split at hpath
      · cases hpath
      · next hengine =>
        cases hpath
        exact hsizes.trans (hstored.engineFrameId_sizes hengine)
      · next hengine =>
        cases hpath
        exact hsizes.trans (hstored.engineFrameId_sizes hengine)
    · cases hpath
      exact hsizes

/-- **Collecting a sample** keeps the room there is. -/
theorem Stored.collect_room (h : s.Stored) (hready : s.ready = true) {stack : Stack} {weight : Nat}
    (hcollect : s.collect stack weight = some s') : SameRoom s s' := by
  obtain ⟨path, s₁, hpath, hframed, -⟩ := h.samplePath stack
  have hsizes := h.samplePath_sizes hpath
  have hroom : ∀ s' : State, s'.ready = s₁.ready → s'.arena = s₁.arena → s'.frames = s₁.frames →
      s'.tree.capacity = s.tree.capacity ∧ s'.tree.bucketMask = s.tree.bucketMask → SameRoom s s' := by
    -- Nothing that collecting changes belongs to the room.
    intro s' hready' harena hframes htree
    refine ⟨?_, fun _ => ?_, fun _ => ?_, fun _ => htree, fun hno => ?_⟩
    · rw [hready', hframed.eq]
    · rw [harena, hsizes.arena_eq]
    · rw [hframes]
      exact ⟨hsizes.capacity_eq, hsizes.bucketMask_eq⟩
    · rw [hready] at hno
      cases hno
  unfold State.collect at hcollect
  rw [hpath] at hcollect
  cases path with
  | none =>
    cases hcollect
    refine hroom _ rfl rfl rfl ?_
    show s₁.tree.capacity = s.tree.capacity ∧ s₁.tree.bucketMask = s.tree.bucketMask
    rw [hframed.tree_eq]
    exact ⟨rfl, rfl⟩
  | some path =>
    obtain ⟨node, tree, hdescend, -, hgrows, -, -⟩ := hframed.stored.tree.descend path StackTree.IsPath.root
    have htree : tree.capacity = s.tree.capacity ∧ tree.bucketMask = s.tree.bucketMask := by
      rw [hgrows.capacity_eq, StackTree.bucketMask_descend hdescend, hframed.tree_eq]
      exact ⟨rfl, rfl⟩
    simp only [hdescend] at hcollect
    cases node with
    | none =>
      cases hcollect
      exact hroom _ rfl rfl rfl htree
    | some node =>
      cases hcollect
      obtain ⟨hcapacity, hmask⟩ := StackTree.room_record tree node weight
      exact hroom _ rfl rfl rfl ⟨hcapacity.trans htree.1, hmask.trans htree.2⟩

/-- Serving an interrupt leaves the room. -/
theorem Sound.serve_room (h : s.Sound) {stack : Stack} {pending deliveries : Nat} {now : Instant}
    (hserve : s.serve stack pending deliveries now = some s') : SameRoom s s' := by
  unfold State.serve at hserve
  split at hserve
  · next hbooks =>
    simp only [books, Bool.and_eq_true] at hbooks
    have hready := hbooks.2
    obtain ⟨s₁, hbook, hcollected⟩ := (h.stored hready).book stack pending deliveries
    rw [hbook] at hserve
    have haccount : (s.account pending deliveries).Stored := (h.stored hready).of_eq rfl rfl rfl rfl rfl
    have hroom := haccount.collect_room hready hbook
    have hnot : ∀ s₂ : State, s₂.ready = false → s₂ = s₁ → ∀ p : Prop, p := by
      rintro _ hno rfl
      rw [hcollected.ready_eq, show (s.account pending deliveries).ready = s.ready from rfl, hready] at hno
      cases hno
    have hbooked : SameRoom s s₁ :=
      ⟨hroom.ready_eq, hroom.arena_eq, hroom.frames_eq, hroom.tree_eq, fun hno => by
        rw [hready] at hno
        cases hno⟩
    have hchecked : SameRoom s₁ (s₁.checkDeadline now).2 :=
      .of_same ⟨rfl, rfl, rfl, rfl, rfl, rfl, rfl, rfl⟩ fun hno => hnot s₁ hno rfl _
    simp only at hserve
    split at hserve
    · cases hserve
      have hcapped : SameRoom (s₁.checkDeadline now).2.stop
          { (s₁.checkDeadline now).2.stop with capped := true } := by
        refine .of_same ⟨rfl, rfl, rfl, rfl, rfl, rfl, rfl, rfl⟩ fun hno => ?_
        rw [(same_stop _).ready] at hno
        exact hnot s₁ hno rfl _
      exact ((hbooked.trans hchecked).trans (sameRoom_stop _)).trans hcapped
    · cases hserve
      exact hbooked.trans hchecked
  · cases hserve
    exact .refl s

/-- **An interrupt** keeps the room there is. -/
theorem Sound.interrupt_room (h : s.Sound) {stack : Stack} {between : List Nat} {now : Instant}
    (hinterrupt : s.interrupt stack between now = some s') : SameRoom s s' := by
  unfold State.interrupt at hinterrupt
  simp only [takeBoth_eq] at hinterrupt
  have hfront : State.Sound { s with
      pendingTicks := (between.foldl tick s.takeTicks.2).pendingTicks
      pendingDeliveries := 0 } := h.same (s.same_pending _ 0)
  have htaken : SameRoom s { s with
      pendingTicks := (between.foldl tick s.takeTicks.2).pendingTicks
      pendingDeliveries := 0 } := .of_same (s.same_pending _ 0) fun _ => rfl
  exact htaken.trans (hfront.serve_room hinterrupt)

/-! ## Nothing is pending -/

/-- Nothing is pending while the profiler stands still. -/
def Settled (s : State) : Prop := s.running = false → s.pendingTicks = 0 ∧ s.pendingDeliveries = 0

/-- A stop settles the profiler. -/
theorem Settled.stop (h : s.Settled) : s.stop.Settled := by
  intro _
  cases hrunning : s.running with
  | true =>
    rw [stop_of_running hrunning]
    exact ⟨rfl, rfl⟩
  | false =>
    rw [stop_of_stopped hrunning]
    exact h hrunning

/-- A reset leaves it settled. -/
theorem Settled.reset (h : s.Settled) : s.reset.Settled := by
  obtain ⟨hrunning, -, -, -, -, hticks, hdeliveries⟩ := s.reset_keeps
  intro hstopped
  rw [hticks, hdeliveries]
  rw [hrunning] at hstopped
  exact h hstopped

/-- A start leaves it settled. -/
theorem Settled.start (h : s.Settled) (periodNs maxDepth maxDurationNs : Nat) (now : Instant) (io : TimerIo) :
    (s.start periodNs maxDepth maxDurationNs now io).2.Settled := by
  have hreset := h.reset
  unfold State.start
  split
  · exact h
  · simp only
    split
    · exact hreset
    · exact nofun

theorem Settled.afterFork (s : State) : s.afterFork.Settled := by
  have hidle : State.Settled ({ s with running := false }).takeTicks.2.takeDeliveries.2 := fun _ => ⟨rfl, rfl⟩
  exact hidle.reset

/-- Ticks that come in while an interrupt is served are those of a profiler that runs. -/
theorem Sound.interrupt_settled (h : s.Sound) {stack : Stack} {between : List Nat} {now : Instant}
    (hidle : s.running = false → between = []) (hinterrupt : s.interrupt stack between now = some s') :
    s'.Settled := by
  unfold State.interrupt at hinterrupt
  simp only [takeBoth_eq] at hinterrupt
  have hfront : State.Sound { s with
      pendingTicks := (between.foldl tick s.takeTicks.2).pendingTicks
      pendingDeliveries := 0 } := h.same (s.same_pending _ 0)
  have hsettled : State.Settled { s with
      pendingTicks := (between.foldl tick s.takeTicks.2).pendingTicks
      pendingDeliveries := 0 } := by
    -- A profiler that is stopped has no ticks to take, and none came in between.
    intro hstopped
    refine ⟨?_, rfl⟩
    have hnone := hidle hstopped
    subst hnone
    rfl
  generalize ({ s with
      pendingTicks := (between.foldl tick s.takeTicks.2).pendingTicks
      pendingDeliveries := 0 } : State) = t at hfront hsettled hinterrupt
  unfold State.serve at hinterrupt
  split at hinterrupt
  · next hbooks =>
    simp only [books, Bool.and_eq_true] at hbooks
    obtain ⟨t₁, hbook, hcollected⟩ := (hfront.stored hbooks.2).book stack s.takeTicks.1
      (between.foldl tick s.takeTicks.2).takeDeliveries.1
    have hrunning : t₁.running = true := hcollected.running_eq.trans hbooks.1.2
    rw [hbook] at hinterrupt
    simp only at hinterrupt
    split at hinterrupt
    · -- The deadline has passed, and a stop throws away what is pending.
      cases hinterrupt
      have hchecked : (t₁.checkDeadline now).2.running = true := hrunning
      rw [stop_of_running hchecked]
      exact fun _ => ⟨rfl, rfl⟩
    · cases hinterrupt
      intro hstopped
      have hstopped : t₁.running = false := hstopped
      rw [hrunning] at hstopped
      cases hstopped
  · cases hinterrupt
    exact hsettled

/-! ## Two profilers that start over -/

/-- Profilers that are alike have the same room. -/
theorem Alike.sameRoom {tied : Prop} (h : Alike tied s s') : SameRoom s s' where
  ready_eq := h.ready_eq
  arena_eq hready := (h.frames hready).arena.size_eq
  frames_eq hready := ⟨(h.frames hready).capacity_eq, (h.frames hready).bucketMask_eq⟩
  tree_eq hready := ⟨(h.tree hready).capacity_eq, (h.tree hready).bucketMask_eq⟩
  counted_eq _ := congrArg (fun c : State =>
    { c with running := false, pendingTicks := 0, pendingDeliveries := 0 }) h.core_eq

/-- Both run or neither does, and the same is pending in both. -/
structure SamePending (s s' : State) : Prop where
  running_eq : s'.running = s.running
  pendingTicks_eq : s'.pendingTicks = s.pendingTicks
  pendingDeliveries_eq : s'.pendingDeliveries = s.pendingDeliveries

theorem Alike.samePending {tied : Prop} (h : Alike tied s s') : SamePending s s' :=
  ⟨h.running_eq, h.takeTicks.1, h.takeDeliveries.1⟩

section
variable {tied : Prop} (hroom : SameRoom s s') (hs : s.Sound) (hs' : s'.Sound) (hpending : SamePending s s')
include hroom hs hs' hpending

/-- Two profilers that are not ready. -/
theorem SameRoom.alike_of_not_ready (hready : s.ready = false)
    (hlive : s.running = true → s'.maxDepth = s.maxDepth ∧ s'.deadlineNs = s.deadlineNs)
    (htimer : tied → s'.timer = s.timer) : Alike tied s s' := by
  obtain ⟨hframes, htree, -, -⟩ := hs.nothing hready
  obtain ⟨hframes', htree', -, -⟩ := hs'.nothing (hroom.ready_eq.trans hready)
  obtain ⟨hrunning, hticks, hdeliveries⟩ := hpending
  have hcore : ∀ s : State, s.core = { s.counted with
      running := s.running, pendingTicks := s.pendingTicks, pendingDeliveries := s.pendingDeliveries } :=
    fun _ => rfl
  refine ⟨?_, fun hgo => ?_, fun hgo => ?_, fun _ => ⟨?_, ?_⟩, hlive, htimer⟩
  · rw [hcore s, hcore s', hroom.counted_eq hready, hrunning, hticks, hdeliveries]
  · rw [hready] at hgo
    cases hgo
  · rw [hready] at hgo
    cases hgo
  · rw [hframes, hframes']
  · rw [htree, htree']

/-- **A reset** makes profilers with the same room alike. -/
theorem SameRoom.alike_reset
    (hlive : s.running = true → s'.maxDepth = s.maxDepth ∧ s'.deadlineNs = s.deadlineNs)
    (htimer : tied → s'.timer = s.timer) : Alike tied s.reset s'.reset := by
  cases hready : s.ready with
  | false =>
    have hreset : ∀ s : State, s.ready = false → s.reset = s := fun s hno => by
      simp only [State.reset, hno, Bool.not_false, if_true]
    rw [hreset s hready, hreset s' (hroom.ready_eq.trans hready)]
    exact hroom.alike_of_not_ready hs hs' hpending hready hlive htimer
  -- Both tables are empty now, and have the same room.
  | true =>
    have hready' := hroom.ready_eq.trans hready
    have hstored := hs.stored hready
    have hstored' := hs'.stored hready'
    obtain ⟨hrunning, hticks, hdeliveries⟩ := hpending
    obtain ⟨hcapacity, hmask⟩ := hroom.frames_eq hready
    obtain ⟨htreeCapacity, htreeMask⟩ := hroom.tree_eq hready
    have hframes : FrameTable.Alike s.frames.reset s.arena.reset s'.frames.reset s'.arena.reset := by
      have hvalid := hstored.frames.reset hstored.frames.arena_valid.reset
      have hvalid' := hstored'.frames.reset hstored'.frames.arena_valid.reset
      have hhits : ∀ t : FrameTable, t.reset.capacityHits = 0 := fun t => by
        unfold FrameTable.reset
        split <;> rfl
      refine ⟨⟨⟨rfl, hroom.arena_eq hready⟩, ?_, ?_, ?_, ?_, fun slot hslot => ?_⟩, hvalid, hvalid', ?_⟩
      · rw [FrameTable.frames_reset, FrameTable.frames_reset]
      · rw [FrameTable.capacity_reset, FrameTable.capacity_reset, hcapacity]
      · rw [FrameTable.bucketMask_reset, FrameTable.bucketMask_reset, hmask]
      · rw [hhits, hhits]
      · rw [FrameTable.bucketMask_reset] at hslot
        rw [hstored.frames.buckets_reset slot hslot, hstored'.frames.buckets_reset slot (hmask ▸ hslot)]
      · rw [FrameTable.keys, FrameTable.keys, FrameTable.frames_reset, FrameTable.frames_reset]
        rfl
    have htree : StackTree.Alike s.tree.reset s'.tree.reset := by
      have hclear := hstored.tree.buckets_reset
      have hclear' := hstored'.tree.buckets_reset
      have hvalid := hstored.tree.reset.buckets_valid
      rw [hstored.tree.reset_eq] at hclear hvalid ⊢
      rw [hstored'.tree.reset_eq] at hclear' ⊢
      refine ⟨hvalid, rfl, htreeCapacity, htreeMask, rfl, rfl, fun slot hslot => ?_⟩
      exact (hclear' slot (htreeMask ▸ hslot)).trans (hclear slot hslot).symm
    unfold State.reset
    simp only [hready, hready', Bool.not_true, Bool.false_eq_true, if_false]
    refine ⟨?_, fun _ => hframes, fun _ => htree, fun hno => absurd hno (Bool.noConfusion ·), hlive, htimer⟩
    simp only [core, hrunning, hticks, hdeliveries]

/-- **A start** makes them alike as well, if the timer can be armed in both or in neither. A limit on the time
is one from now on. -/
theorem SameRoom.alike_start {periodNs maxDepth maxDurationNs : Nat} (hperiod : periodNs ≠ 0)
    {now now' : Instant} (hnow : maxDurationNs ≠ 0 → now' = now) {io io' : TimerIo}
    (hlive : s.running = true → s'.maxDepth = s.maxDepth ∧ s'.deadlineNs = s.deadlineNs)
    (htimer : tied → s'.timer = s.timer)
    (harm : s.ready = true → (s'.timer.arm io' periodNs).1 = (s.timer.arm io periodNs).1)
    (htied : tied → (s'.timer.arm io' periodNs).2 = (s.timer.arm io periodNs).2) :
    (s'.start periodNs maxDepth maxDurationNs now' io').1 = (s.start periodNs maxDepth maxDurationNs now io).1 ∧
      Alike tied (s.start periodNs maxDepth maxDurationNs now io).2
        (s'.start periodNs maxDepth maxDurationNs now' io').2 ∧
      (s.ready = true → (s'.start periodNs maxDepth maxDurationNs now' io').2.periodNs =
        (s.start periodNs maxDepth maxDurationNs now io).2.periodNs) := by
  have hreset := hroom.alike_reset hs hs' hpending hlive htimer
  have hnonzero : (periodNs == 0) = false := beq_eq_false_iff_ne.mpr hperiod
  have hdeadline : (if maxDurationNs = 0 then 0 else u64 (now'.ns + maxDurationNs)) =
      if maxDurationNs = 0 then 0 else u64 (now.ns + maxDurationNs) := by
    split
    · rfl
    · next hlimited => rw [hnow hlimited]
  unfold State.start
  rw [hroom.ready_eq, hdeadline]
  -- The start is refused in both, or both reset and arm the timer.
  cases hready : s.ready with
  | false =>
    simp only [Bool.not_false, Bool.true_or, if_true]
    exact ⟨trivial, hroom.alike_of_not_ready hs hs' hpending hready hlive htimer, nofun⟩
  | true =>
    obtain ⟨hcore, hframes, htree, hnothing, -, -⟩ := hreset
    have harm := harm hready
    simp only [Bool.not_true, Bool.false_or, hnonzero, Bool.false_eq_true, if_false, reset_timer]
    generalize s.timer.arm io periodNs = r at harm htied
    generalize s'.timer.arm io' periodNs = r' at harm htied
    obtain ⟨ok, timer⟩ := r
    obtain ⟨ok', timer'⟩ := r'
    cases harm
    cases ok with
    | false => exact ⟨rfl, ⟨hcore, hframes, htree, hnothing, fun _ => ⟨rfl, rfl⟩, htied⟩, fun _ => rfl⟩
    | true =>
      have hrunning := congrArg (fun c : State => { c with running := true }) hcore
      exact ⟨rfl, ⟨hrunning, hframes, htree, hnothing, fun _ => ⟨rfl, rfl⟩, htied⟩, fun _ => rfl⟩

end

end State
end CboxTelemetry.Profiler
