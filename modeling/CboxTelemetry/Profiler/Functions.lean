import CboxTelemetry.Profiler.SampledPath

/-!
# The functions of the profiler, called whole

The callers of the profiler see its functions as single steps. This is what each of them does to the flags,
the timer and the tables, for a profiler whose tables are sound.
-/

namespace CboxTelemetry.Profiler
namespace State
variable {s s' : State}

/-! ## Start, stop and reset -/

/-- What a stop of a running profiler changes. -/
theorem stop_of_running (h : s.running = true) : s.stop =
    { s with timer := s.timer.disarm, running := false, pendingTicks := 0, pendingDeliveries := 0 } := by
  simp only [stop, h, Bool.not_true, Bool.false_eq_true, if_false]
  rfl

theorem stop_of_stopped (h : s.running = false) : s.stop = s := by
  simp only [stop, h, Bool.not_false, if_true]

/-- Behind a stop the profiler is not running. -/
@[simp] theorem stop_running (s : State) : s.stop.running = false := by
  cases h : s.running with
  | true => rw [stop_of_running h]
  | false => rw [stop_of_stopped h, h]

/-- What a stop leaves alone. -/
theorem same_stop (s : State) : Same s s.stop := by
  cases h : s.running with
  | true =>
    rw [stop_of_running h]
    exact ⟨rfl, rfl, rfl, rfl, rfl, rfl, rfl, rfl⟩
  | false =>
    rw [stop_of_stopped h]
    exact .refl s

/-- A stop leaves the period. -/
@[simp] theorem stop_periodNs (s : State) : s.stop.periodNs = s.periodNs := by
  cases h : s.running with
  | true => rw [stop_of_running h]
  | false => rw [stop_of_stopped h]

/-- Behind a stop the timer is disarmed. -/
theorem stop_isArmed (h : s.timer.isArmed = true → s.running = true) : s.stop.timer.isArmed = false := by
  cases hrunning : s.running with
  | true =>
    rw [stop_of_running hrunning]
    exact Timer.disarm_isArmed _
  | false =>
    rw [stop_of_stopped hrunning]
    cases harmed : s.timer.isArmed with
    | false => rfl
    | true =>
      rw [h harmed] at hrunning
      cases hrunning

/-- What a reset leaves alone. -/
theorem reset_keeps (s : State) : s.reset.running = s.running ∧ s.reset.timer = s.timer ∧
    s.reset.ready = s.ready ∧ s.reset.periodNs = s.periodNs ∧ s.reset.deadlineNs = s.deadlineNs ∧
    s.reset.pendingTicks = s.pendingTicks ∧ s.reset.pendingDeliveries = s.pendingDeliveries := by
  unfold reset
  split <;> exact ⟨rfl, rfl, rfl, rfl, rfl, rfl, rfl⟩

@[simp] theorem reset_running (s : State) : s.reset.running = s.running := s.reset_keeps.1

@[simp] theorem reset_timer (s : State) : s.reset.timer = s.timer := s.reset_keeps.2.1

@[simp] theorem reset_periodNs (s : State) : s.reset.periodNs = s.periodNs := s.reset_keeps.2.2.2.1

/-- A profiler whose storage is empty. -/
structure Empty (s : State) : Prop where
  samples_eq : s.samples = 0
  dropped_eq : s.dropped = 0
  frames_eq : s.frames.frames = []
  nodes_eq : s.tree.nodes = [] ∨ s.tree.nodes = [rootNode]

/-- Emptiness does not depend on the counters of ticks. -/
theorem Empty.same (h : s.Empty) (hsame : Same s s') : s'.Empty where
  samples_eq := hsame.samples.trans h.samples_eq
  dropped_eq := hsame.dropped.trans h.dropped_eq
  frames_eq := by rw [hsame.frames, h.frames_eq]
  nodes_eq := by
    rw [hsame.tree]
    exact h.nodes_eq

/-- A reset keeps the profiler sound. -/
theorem Sound.reset (h : s.Sound) : s.reset.Sound := by
  cases hready : s.ready with
  | true =>
    refine ⟨fun _ => (h.stored hready).reset hready, fun hno => ?_⟩
    rw [ready_reset, hready] at hno
    cases hno
  | false =>
    have hreset : s.reset = s := by simp only [State.reset, hready, Bool.not_false, if_true]
    rwa [hreset]

/-- A reset empties the storage. -/
theorem Sound.empty_reset (h : s.Sound) : s.reset.Empty := by
  cases hready : s.ready with
  | true =>
    have hcapacity := (h.stored hready).tree.capacity_pos
    have hnodes : s.tree.reset.nodes = [rootNode] := by rw [StackTree.reset, if_neg hcapacity.ne']
    simp only [State.reset, hready, Bool.not_true, Bool.false_eq_true, if_false]
    exact ⟨rfl, rfl, FrameTable.frames_reset _, .inr hnodes⟩
  | false =>
    obtain ⟨hframes, htree, hsamples, hdropped⟩ := h.nothing hready
    have hreset : s.reset = s := by simp only [State.reset, hready, Bool.not_false, if_true]
    rw [hreset]
    exact ⟨hsamples, hdropped, by rw [hframes]; rfl, .inl (by rw [htree]; rfl)⟩

theorem Sound.stop (h : s.Sound) : s.stop.Sound := h.same (same_stop s)

/-- What `cbox_profiler_init` leaves: a profiler that does not run, with nothing in its storage. -/
theorem setup_idle (c : Setup) : c.prof.running = false ∧ c.prof.timer = c.timer ∧ c.prof.Empty := by
  have hblank : ({ State.blank with timer := c.timer } : State).ready = false := rfl
  obtain hnothing | ⟨bytes, ft, tree, -, hft, htree, hready⟩ :=
    State.init_cases hblank c.maxFrames c.maxNodes c.slab c.frames c.nodes
  · unfold Setup.prof
    rw [hnothing]
    exact ⟨rfl, rfl, rfl, rfl, rfl, .inl rfl⟩
  · unfold Setup.prof
    rw [hready]
    refine ⟨rfl, rfl, rfl, rfl, ?_, ?_⟩
    · unfold FrameTable.init at hft
      split at hft
      · cases hft
      · cases hft
        rfl
    · unfold StackTree.init at htree
      split at htree
      · cases htree
      · cases htree
        exact .inr rfl

/-- What a start does. When it fails there is nothing to see of it but a reset, and the period is zero if
the timer is to blame. -/
inductive Started (s : State) (periodNs maxDurationNs : Nat) (now : Instant) : Bool × State → Prop
  | refused : s.ready = false ∨ periodNs = 0 → Started s periodNs maxDurationNs now (false, s)
  | unarmed (s' : State) : s.ready = true → Same s.reset s' → s'.running = s.running →
      s'.timer.isArmed = s.timer.isArmed → s'.periodNs = 0 → Started s periodNs maxDurationNs now (false, s')
  | running (s' : State) : s.ready = true → Same s.reset s' → s'.running = true →
      s'.timer.isArmed = true → s'.timer.kernel = .ticking → s'.periodNs = periodNs →
      s'.deadlineNs = (if maxDurationNs = 0 then 0 else u64 (now.ns + maxDurationNs)) →
      Started s periodNs maxDurationNs now (true, s')

/-- A start is refused, or starts the profiler, or leaves it unarmed. -/
theorem started_start (s : State) (periodNs maxDepth maxDurationNs : Nat) (now : Instant) (io : TimerIo) :
    Started s periodNs maxDurationNs now (s.start periodNs maxDepth maxDurationNs now io) := by
  unfold State.start
  cases hready : s.ready with
  | false => exact .refused (.inl hready)
  | true =>
    by_cases hperiod : periodNs = 0
    · simp only [hperiod, beq_self_eq_true, Bool.not_true, Bool.or_true, if_true]
      exact .refused (.inr rfl)
    · simp only [beq_eq_false_iff_ne.mpr hperiod, Bool.not_true, Bool.or_self, Bool.false_eq_true, if_false]
      obtain ⟨timer, harm, harmed, hkernel, -, -⟩ | ⟨timer, harm, harmed, -, -⟩ :=
        Timer.arm_cases io periodNs s.timer
      · rw [reset_timer, harm]
        exact .running _ hready ⟨rfl, rfl, rfl, rfl, rfl, rfl, rfl, rfl⟩ rfl harmed hkernel rfl rfl
      · rw [reset_timer, harm]
        exact .unarmed _ hready ⟨rfl, rfl, rfl, rfl, rfl, rfl, rfl, rfl⟩ (reset_running s) harmed rfl

/-- A start keeps the profiler sound. -/
theorem Sound.start (h : s.Sound) (periodNs maxDepth maxDurationNs : Nat) (now : Instant) (io : TimerIo) :
    (s.start periodNs maxDepth maxDurationNs now io).2.Sound := by
  have hstarted := started_start s periodNs maxDepth maxDurationNs now io
  generalize s.start periodNs maxDepth maxDurationNs now io = result at hstarted
  cases hstarted with
  | refused _ => exact h
  | unarmed s' _ hsame _ _ _ => exact h.reset.same hsame
  | running s' _ hsame _ _ _ _ _ => exact h.reset.same hsame

/-- The timer after a start is that after an attempt to arm it, if there was one. -/
theorem start_timer_sound (h : s.timer.Sound) (periodNs maxDepth maxDurationNs : Nat) (now : Instant)
    (io : TimerIo) : (s.start periodNs maxDepth maxDurationNs now io).2.timer.Sound := by
  have harm := h.arm io periodNs
  unfold State.start
  split
  · exact h
  · simp only [reset_timer]
    split
    · next timer heq =>
      rw [heq] at harm
      exact harm
    · next timer heq =>
      rw [heq] at harm
      exact harm

/-! ## Interrupts -/

/-- What an interrupt can do. A profiler that is not running loses its pending ticks. -/
structure Interrupted (s s' : State) : Prop where
  sound : s'.Sound
  ready_eq : s'.ready = s.ready
  periodNs_eq : s'.periodNs = s.periodNs
  deadlineNs_eq : s'.deadlineNs = s.deadlineNs
  stopped : s.running = false → Same s s' ∧ s'.running = false ∧ s'.timer = s.timer
  running : s.running = true →
    s'.running = true ∧ s'.timer = s.timer ∨ s'.running = false ∧ s'.timer = s.timer.disarm

/-- An interrupt leaves the timer alone or disarms it. -/
theorem Interrupted.timer (h : Interrupted s s') : s'.timer = s.timer ∨ s'.timer = s.timer.disarm := by
  cases hrunning : s.running with
  | false => exact .inl (h.stopped hrunning).2.2
  | true => exact (h.running hrunning).imp And.right And.right

/-- The fields that collecting a sample leaves alone. -/
theorem Collected.keeps {stack : Stack} {weight : Nat} (h : Collected s stack weight s') :
    s'.running = s.running ∧ s'.timer = s.timer ∧ s'.ready = s.ready ∧ s'.periodNs = s.periodNs ∧
      s'.deadlineNs = s.deadlineNs := by
  cases h with
  | dropped s₁ tree hframed _ _ _ =>
    rw [State.drop, hframed.eq]
    exact ⟨rfl, rfl, rfl, rfl, rfl⟩
  | booked s₁ tree path node hframed _ _ _ _ _ =>
    rw [hframed.eq]
    exact ⟨rfl, rfl, rfl, rfl, rfl⟩

/-- Booking comes to an end, and leaves the storage in order. -/
theorem Sound.book (h : s.Sound) {pending : Nat} (hbooks : s.books pending = true) (stack : Stack)
    (deliveries : Nat) : ∃ s₁, s.book stack pending deliveries = some s₁ ∧
      Collected (s.account pending deliveries) stack pending s₁ ∧ ∀ s', Same s₁ s' → s'.Sound := by
  simp only [State.books, Bool.and_eq_true] at hbooks
  obtain ⟨-, hready⟩ := hbooks
  obtain ⟨s₁, hbook, hcollected⟩ := (h.stored hready).book stack pending deliveries
  have hready₁ : s₁.ready = true := hcollected.ready_eq.trans hready
  refine ⟨s₁, hbook, hcollected, fun s' hsame => ⟨fun _ => hsame.stored hcollected.stored, fun hno => ?_⟩⟩
  rw [hsame.ready, hready₁] at hno
  cases hno

/-- The interrupt handler behind its two exchanges. -/
theorem Sound.serve (h : s.Sound) {stack : Stack} {pending deliveries : Nat} {now : Instant}
    (hserve : s.serve stack pending deliveries now = some s') : Interrupted s s' := by
  unfold State.serve at hserve
  cases hbooks : s.books pending with
  | false =>
    simp only [hbooks, Bool.false_eq_true, if_false] at hserve
    cases hserve
    exact ⟨h, rfl, rfl, rfl, fun hstopped => ⟨.refl s, hstopped, rfl⟩, fun hrunning => .inl ⟨hrunning, rfl⟩⟩
  | true =>
    obtain ⟨s₁, hbook, hcollected, hsound⟩ := h.book hbooks stack deliveries
    simp only [hbooks, if_true] at hserve
    simp only [State.books, Bool.and_eq_true] at hbooks
    obtain ⟨⟨-, hrunning⟩, -⟩ := hbooks
    obtain ⟨hrun₁, htimer₁, hready₁, hperiod₁, hdeadline₁⟩ := hcollected.keeps
    rw [hbook] at hserve
    have hstopped : s.running = false → ∀ p : Prop, p := fun hno => by
      rw [hrunning] at hno
      cases hno
    simp only at hserve
    split at hserve
    · -- The deadline has passed: the profiler is stopped and marked.
      cases hserve
      have hrun₂ : (s₁.checkDeadline now).2.running = true := hrun₁.trans hrunning
      rw [stop_of_running hrun₂]
      exact ⟨hsound _ ⟨rfl, rfl, rfl, rfl, rfl, rfl, rfl, rfl⟩, hready₁, hperiod₁, hdeadline₁,
        fun hno => hstopped hno _, fun _ => .inr ⟨rfl, congrArg Timer.disarm htimer₁⟩⟩
    · cases hserve
      exact ⟨hsound _ ⟨rfl, rfl, rfl, rfl, rfl, rfl, rfl, rfl⟩, hready₁, hperiod₁, hdeadline₁,
        fun hno => hstopped hno _, fun _ => .inl ⟨hrun₁.trans hrunning, htimer₁⟩⟩

/-- The state in which the interrupt handler has taken its counters. -/
theorem takeBoth_eq (s : State) (between : List Nat) :
    (between.foldl tick s.takeTicks.2).takeDeliveries.2 = { s with
      pendingTicks := (between.foldl tick s.takeTicks.2).pendingTicks
      pendingDeliveries := 0 } := by
  rw [foldl_tick_eq]
  rfl

/-- **Interrupts.** -/
theorem Sound.interrupt (h : s.Sound) {stack : Stack} {between : List Nat} {now : Instant}
    (hinterrupt : s.interrupt stack between now = some s') : Interrupted s s' := by
  unfold State.interrupt at hinterrupt
  simp only [takeBoth_eq] at hinterrupt
  have hfront : State.Sound { s with
      pendingTicks := (between.foldl tick s.takeTicks.2).pendingTicks
      pendingDeliveries := 0 } := h.same (s.same_pending _ 0)
  obtain ⟨hsound, hready, hperiod, hdeadline, hstopped, hrunning⟩ := hfront.serve hinterrupt
  refine ⟨hsound, hready, hperiod, hdeadline, fun hno => ?_, hrunning⟩
  obtain ⟨hsame, hstays⟩ := hstopped hno
  exact ⟨⟨hsame.arena, hsame.frames, hsame.tree, hsame.truncatedFrame, hsame.engineFrame, hsame.samples,
    hsame.dropped, hsame.ready⟩, hstays⟩

/-- An interrupt always comes to an end. -/
theorem Sound.exists_interrupt (h : s.Sound) (stack : Stack) (between : List Nat) (now : Instant) :
    ∃ s', s.interrupt stack between now = some s' := by
  unfold State.interrupt
  simp only [takeBoth_eq]
  -- Taking both counters leaves the profiler sound, so what was taken can be served.
  have hfront : State.Sound { s with
      pendingTicks := (between.foldl tick s.takeTicks.2).pendingTicks
      pendingDeliveries := 0 } := h.same (s.same_pending _ 0)
  generalize { s with
      pendingTicks := (between.foldl tick s.takeTicks.2).pendingTicks
      pendingDeliveries := 0 } = t at hfront
  unfold State.serve
  split
  · next hbooks =>
    obtain ⟨s₁, hbook, -, -⟩ := hfront.book hbooks stack (between.foldl tick s.takeTicks.2).takeDeliveries.1
    rw [hbook]
    simp only
    split <;> exact ⟨_, rfl⟩
  · exact ⟨_, rfl⟩

end State
end CboxTelemetry.Profiler
