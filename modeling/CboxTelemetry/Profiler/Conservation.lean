import CboxTelemetry.Profiler.Machine

/-!
# Every tick is accounted for

Between the signal handler, which only counts, and the tree, which stores, a tick can be pending, in the
hands of the interrupt handler, booked as a sample, booked as dropped, or thrown away. `Conserved` says
that these add up, and that the profile's totals, the tree's own total and the nodes' counters are three
ways to say the same. It holds at every point of every run with fewer than `2 ^ 32` ticks
(`conserved_of_run`).
-/

namespace CboxTelemetry.Profiler

/-! ## Setting up -/

def framesMin : Nat := 64
def framesMax : Nat := 65536
def nodesMin : Nat := 256
def nodesMax : Nat := 262144

/-- The arena has this many bytes for each frame. -/
def arenaBytesPerFrame : Nat := 256

/-- What `cbox_profiler_init` is called with, and how its allocations come out. The numbers are those
that module startup lets through. -/
structure Setup where
  maxFrames : Nat
  maxNodes : Nat
  slab : Option Bytes
  frames : Bool
  nodes : Bool
  timer : Timer
  frames_ge : framesMin ≤ maxFrames
  frames_le : maxFrames ≤ framesMax
  nodes_ge : nodesMin ≤ maxNodes
  nodes_le : maxNodes ≤ nodesMax
  slab_length : ∀ bytes, slab = some bytes → bytes.length = maxFrames * arenaBytesPerFrame

/-- The profiler after `cbox_profiler_init`. -/
def Setup.prof (c : Setup) : State :=
  (State.init { State.blank with timer := c.timer } c.maxFrames c.maxNodes c.slab c.frames c.nodes).2

/-- A profiler that is ready has good tables, and one that is not has nothing. -/
structure State.Sound (s : State) : Prop where
  stored : s.ready = true → s.Stored
  nothing : s.ready = false → s.frames = .cleared ∧ s.tree = .cleared ∧ s.samples = 0 ∧ s.dropped = 0

/-- A profiler that has not sampled anything. -/
structure State.Fresh (s : State) : Prop where
  sound : s.Sound
  samples : s.samples = 0
  dropped : s.dropped = 0
  total : s.tree.total = 0
  nodes : s.tree.nodes = [] ∨ s.tree.nodes = [rootNode]
  pendingTicks : s.pendingTicks = 0

/-- The initialisation sets the profiler up, or leaves it zeroed when something cannot be allocated. -/
theorem State.init_cases {s : State} (h : s.ready = false) (maxFrames maxNodes : Nat)
    (slab : Option Bytes) (frames nodes : Bool) :
    (s.init maxFrames maxNodes slab frames nodes).2 = s.zeroed ∨
    ∃ bytes ft tree, slab = some bytes ∧ FrameTable.init maxFrames = some ft ∧
      StackTree.init maxNodes = some tree ∧
      (s.init maxFrames maxNodes slab frames nodes).2 =
        { s.zeroed with arena := ⟨bytes, 0, 0, 0⟩, frames := ft, tree := tree, ready := true } := by
  unfold State.init
  simp only [h, Bool.false_eq_true, if_false]
  split
  · exact .inl rfl
  next arena harena =>
    obtain ⟨bytes, hslab, hinit⟩ := Option.bind_eq_some_iff.mp harena
    unfold Arena.init at hinit
    split at hinit
    · cases hinit
    · cases hinit
      split
      · exact .inl rfl
      next ft hft =>
        split
        · exact .inl rfl
        next tree htree =>
          have hft' := (Option.ite_none_right_eq_some.mp hft).2
          have htree' := (Option.ite_none_right_eq_some.mp htree).2
          exact .inr ⟨bytes, ft, tree, hslab, hft', htree', rfl⟩

/-- `cbox_profiler_init` leaves a profiler that has not sampled anything, whatever capacities it is asked
for, as long as the tables' indices and the arena's offsets fit in 32 bits. -/
theorem State.fresh_init (timer : Timer) {maxFrames maxNodes : Nat} {slab : Option Bytes}
    (frames nodes : Bool) (hframes : maxFrames ≤ capacityMax) (hnodes : maxNodes ≤ capacityMax)
    (hslab : ∀ bytes, slab = some bytes → bytes.length < 2 ^ 32 - arenaAlign) :
    (State.init { State.blank with timer := timer } maxFrames maxNodes slab frames nodes).2.Fresh := by
  have hblank : ({ State.blank with timer := timer } : State).ready = false := rfl
  obtain hnothing | ⟨bytes, ft, tree, hbytes, hft, htree, hready⟩ :=
    State.init_cases hblank maxFrames maxNodes slab frames nodes
  · rw [hnothing]
    exact ⟨⟨nofun, fun _ => ⟨rfl, rfl, rfl, rfl⟩⟩, rfl, rfl, rfl, .inl rfl, rfl⟩
  · have harena : Arena.Valid ⟨bytes, 0, 0, 0⟩ := ⟨Nat.zero_le _, hslab bytes hbytes⟩
    have hftValid := FrameTable.valid_init hft hframes harena
    have htreeValid := StackTree.valid_init htree hnodes
    have hnodesEq : tree.nodes = [rootNode] ∧ tree.total = 0 := by
      unfold StackTree.init at htree
      split at htree
      · cases htree
      · cases htree
        exact ⟨rfl, rfl⟩
    rw [hready]
    refine ⟨⟨fun _ => ⟨hftValid, htreeValid, ?_, nofun, nofun⟩, nofun⟩, rfl, rfl, hnodesEq.2,
      .inr hnodesEq.1, rfl⟩
    intro id edge hid hedge
    obtain ⟨hlt, -⟩ := List.getElem?_eq_some_iff.mp hedge
    rw [StackTree.length_edges, hnodesEq.1, List.length_singleton] at hlt
    omega

/-- The profiler of a setup is fresh. -/
theorem Setup.fresh (c : Setup) : c.prof.Fresh := by
  have hframes : c.maxFrames ≤ 65536 := c.frames_le
  have hnodes : c.maxNodes ≤ 262144 := c.nodes_le
  refine State.fresh_init c.timer c.frames c.nodes ?_ ?_ ?_
  · exact hframes.trans (by decide)
  · exact hnodes.trans (by decide)
  · intro bytes hbytes
    rw [c.slab_length bytes hbytes]
    unfold arenaBytesPerFrame arenaAlign
    omega

/-- The machine at the end of `cbox_profiler_init`. -/
def Setup.machine (c : Setup) : Machine := ⟨c.prof, .idle, .empty⟩

/-! ## The books -/

/-- The books of a profiler balance. -/
structure Conserved (m : Machine) : Prop where
  /-- What has been booked since the last reset has been stored or dropped. -/
  bookedNow_eq : m.prof.samples + m.prof.dropped = m.ledger.bookedNow
  total_eq : m.prof.tree.total = m.prof.tree.sampleSum
  samples_eq : m.prof.tree.sampleSum = m.prof.samples
  root_eq : ∀ n, m.prof.tree.nodes[0]? = some n → n.samples = 0
  /-- What has been delivered has been booked, is pending, or has been thrown away. -/
  delivered_eq : m.ledger.delivered = m.ledger.booked + m.stillPending + m.ledger.discarded

/-- The invariant of a run. -/
structure Balanced (m : Machine) : Prop where
  sound : m.prof.Sound
  conserved : Conserved m
  bookedNow_le : m.ledger.bookedNow ≤ m.ledger.booked

/-- A fresh machine is balanced. -/
theorem Setup.balanced (c : Setup) : Balanced c.machine := by
  have hfresh := c.fresh
  refine ⟨hfresh.sound, ⟨?_, ?_, ?_, ?_, ?_⟩, Nat.le_refl _⟩
  · show c.prof.samples + c.prof.dropped = 0
    rw [hfresh.samples, hfresh.dropped]
  · show c.prof.tree.total = c.prof.tree.sampleSum
    rw [hfresh.total, StackTree.sampleSum]
    rcases hfresh.nodes with h | h <;> rw [h] <;> rfl
  · show c.prof.tree.sampleSum = c.prof.samples
    rw [hfresh.samples, StackTree.sampleSum]
    rcases hfresh.nodes with h | h <;> rw [h] <;> rfl
  · intro n hn
    rcases hfresh.nodes with h | h
    · rw [show c.machine.prof.tree.nodes = [] from h] at hn
      cases hn
    · rw [show c.machine.prof.tree.nodes = [rootNode] from h] at hn
      cases hn
      rfl
  · show 0 = 0 + (c.prof.pendingTicks + 0) + 0
    rw [hfresh.pendingTicks]

/-! ## Steps -/

section step
variable {m m' : Machine} {s s' : State}

/-- Soundness does not depend on the counters of ticks. -/
theorem State.Sound.same (h : s.Sound) (hsame : State.Same s s') : s'.Sound where
  stored hready := hsame.stored (h.stored (hsame.ready ▸ hready))
  nothing hready := by
    obtain ⟨hframes, htree, hsamples, hdropped⟩ := h.nothing (hsame.ready ▸ hready)
    exact ⟨hsame.frames.trans hframes, hsame.tree.trans htree, hsame.samples.trans hsamples,
      hsame.dropped.trans hdropped⟩

/-- The totals of a state that has the same storage. -/
theorem Conserved.same (h : Conserved m) (hsame : State.Same m.prof m'.prof)
    (hbooked : m'.ledger.bookedNow = m.ledger.bookedNow)
    (hdelivered : m'.ledger.delivered = m'.ledger.booked + m'.stillPending + m'.ledger.discarded) :
    Conserved m' where
  bookedNow_eq := by rw [hsame.samples, hsame.dropped, hbooked, h.bookedNow_eq]
  total_eq := by rw [hsame.tree, h.total_eq]
  samples_eq := by rw [hsame.tree, hsame.samples, h.samples_eq]
  root_eq := by
    rw [hsame.tree]
    exact h.root_eq
  delivered_eq := hdelivered

/-- What a reset of a profiler that is set up changes. -/
theorem State.reset_ready (h : s.ready = true) : s.reset = { s with
    arena := s.arena.reset
    frames := s.frames.reset
    tree := s.tree.reset
    samples := 0
    dropped := 0
    deferred := 0
    interrupts := 0
    ticks := 0
    deadlineCheckedAt := 0
    deadlineTicksAt := 0
    deferredEvents := 0
    timerOverruns := 0
    maxDeferred := 0
    truncatedFrame := none
    engineFrame := none
    capped := false } := by
  simp only [State.reset, h, Bool.not_true, Bool.false_eq_true, if_false]

/-- A reset keeps what is stored valid. -/
theorem State.Stored.reset (h : s.Stored) (hready : s.ready = true) : s.reset.Stored := by
  rw [State.reset_ready hready]
  refine ⟨h.frames.reset h.frames.arena_valid.reset, h.tree.reset, ?_, nofun, nofun⟩
  intro id edge hid hedge
  obtain ⟨hlt, -⟩ := List.getElem?_eq_some_iff.mp hedge
  rw [StackTree.length_edges, h.tree.reset_eq, List.length_singleton] at hlt
  omega

/-- A reset leaves the root alone, without samples. -/
theorem State.Stored.tree_reset (h : s.Stored) (hready : s.ready = true) :
    s.reset.tree.nodes = [rootNode] ∧ s.reset.tree.total = 0 := by
  rw [State.reset_ready hready]
  show s.tree.reset.nodes = _ ∧ s.tree.reset.total = _
  rw [h.tree.reset_eq]
  exact ⟨rfl, rfl⟩

/-- Ticks delivered keep the balance while their number has not gone round. -/
theorem Balanced.ticked (h : Balanced m) (ticks : Nat)
    (hsmall : m.ledger.delivered + tickCount ticks < 2 ^ 32) :
    Balanced { m with
      prof := m.prof.tick ticks
      ledger := { m.ledger with delivered := m.ledger.delivered + tickCount ticks } } := by
  have hsame := m.prof.same_tick ticks
  refine ⟨h.sound.same hsame, h.conserved.same hsame rfl ?_, h.bookedNow_le⟩
  have hdelivered := h.conserved.delivered_eq
  have hpending : (m.prof.tick ticks).pendingTicks = m.prof.pendingTicks + tickCount ticks :=
    u32_of_lt (by
      unfold Machine.stillPending at hdelivered
      unfold tickCount at hsmall
      omega)
  unfold Machine.stillPending at hdelivered ⊢
  simp only [hpending]
  omega

/-- A step that books nothing keeps the balance. -/
theorem Balanced.quiet (h : Balanced m) (hsame : State.Same m.prof m'.prof) {discarded : Nat}
    (hledger : m'.ledger = m.ledger.discard discarded)
    (hpending : m'.stillPending + discarded = m.stillPending) : Balanced m' := by
  have hdelivered := h.conserved.delivered_eq
  refine ⟨h.sound.same hsame, h.conserved.same hsame (by rw [hledger]; rfl) ?_, ?_⟩
  · rw [hledger]
    show m.ledger.delivered = m.ledger.booked + m'.stillPending + (m.ledger.discarded + discarded)
    omega
  · rw [hledger]
    exact h.bookedNow_le

/-- A restart keeps the balance, from zero on. -/
theorem Balanced.restarted (h : Balanced m) (hready : m.prof.ready = true)
    (hsame : State.Same m.prof.reset m'.prof) (hledger : m'.ledger = m.ledger.restart true)
    (hpending : m'.stillPending = m.stillPending) : Balanced m' := by
  have hstored := h.sound.stored hready
  have hreset := hstored.reset hready
  obtain ⟨hnodes, htotal⟩ := hstored.tree_reset hready
  have hzero : m.prof.reset.samples = 0 ∧ m.prof.reset.dropped = 0 := by
    rw [State.reset_ready hready]
    exact ⟨rfl, rfl⟩
  have hready' : m'.prof.ready = true := by
    rw [hsame.ready, ready_reset, hready]
  have hsum : m'.prof.tree.sampleSum = 0 := by
    rw [hsame.tree, StackTree.sampleSum, hnodes]
    rfl
  refine ⟨⟨fun _ => hsame.stored hreset, fun hno => ?_⟩, ⟨?_, ?_, ?_, ?_, ?_⟩, ?_⟩
  · rw [hready'] at hno
    cases hno
  · rw [hsame.samples, hsame.dropped, hzero.1, hzero.2, hledger]
    rfl
  · rw [hsum, hsame.tree, htotal]
  · rw [hsum, hsame.samples, hzero.1]
  · intro n hn
    rw [hsame.tree, hnodes] at hn
    cases hn
    rfl
  · rw [hledger, hpending]
    exact h.conserved.delivered_eq
  · rw [hledger]
    exact Nat.zero_le _

/-- The totals after a sample has been collected. One of the two totals of the profile grows by the
weight, and the tree's own with the stored one. -/
theorem State.Collected.totals {stack : Stack} {weight : Nat} (h : s.Collected stack weight s')
    (hweight : 0 < weight) (hsum : s.tree.sampleSum = s.samples) (htotal : s.tree.total = s.samples)
    (hsmall : s.samples + s.dropped + weight < 2 ^ 32)
    (hroot : ∀ n, s.tree.nodes[0]? = some n → n.samples = 0) (hstored : s.Stored) :
    s'.samples + s'.dropped = s.samples + s.dropped + weight ∧ s'.tree.total = s'.samples ∧
      s'.tree.sampleSum = s'.samples ∧ ∀ n, s'.tree.nodes[0]? = some n → n.samples = 0 := by
  have hgrown : ∀ tree, StackTree.Grows s.tree tree → ∀ n, tree.nodes[0]? = some n → n.samples = 0 := by
    intro tree hgrows n hn
    rcases hgrows.get_cases hn with hold | ⟨hnew, -⟩
    · exact hroot n hold
    · exact absurd hstored.tree.length_pos (Nat.not_lt.mpr hnew)
  -- The sample is dropped and counted as such, or booked at the node of its path.
  cases h with
  | dropped s₁ tree hframed _ hgrows _ =>
    refine ⟨?_, ?_, ?_, hgrown tree hgrows⟩
    · show s₁.samples + u64 (s₁.dropped + weight) = _
      rw [hframed.samples_eq, hframed.dropped_eq, u64_of_lt (by omega)]
      omega
    · show tree.total = s₁.samples
      rw [hgrows.total_eq, hframed.samples_eq, htotal]
    · show tree.sampleSum = s₁.samples
      rw [hgrows.sampleSum_eq, hframed.samples_eq, hsum]
  | booked s₁ tree path node hframed _ hgrows htree hnode hpath =>
    have hlt := hpath.lt htree.tree
    have hsamples : u64 (s.samples + weight) = s.samples + weight := u64_of_lt (by omega)
    refine ⟨?_, ?_, ?_, ?_⟩
    · show u64 (s.samples + weight) + s₁.dropped = _
      rw [hframed.dropped_eq, hsamples]
      omega
    · show (tree.record node weight).total = u64 (s.samples + weight)
      rw [StackTree.record_eq htree.tree hlt hweight, hgrows.total_eq, htotal]
    · show (tree.record node weight).sampleSum = u64 (s.samples + weight)
      have hold : tree.sampleSum = s.samples := by rw [hgrows.sampleSum_eq, hsum]
      have hroom : tree.sampleSum + weight < 2 ^ 32 := by omega
      rw [StackTree.sampleSum_record htree.tree hlt hweight hroom, hold, hsamples]
    · intro n hn
      -- The node that the sample was added to is not the root.
      have hget : (tree.record node weight).nodes[0]? = _ :=
        StackTree.record_get htree.tree hlt hweight
      rw [show (tree.record node weight).nodes[0]? = some n from hn, eq_comm,
        Option.map_eq_some_iff] at hget
      obtain ⟨n₀, hn₀, rfl⟩ := hget
      rw [if_neg (by omega)]
      exact hgrown tree hgrows n₀ hn₀

/-- Booking or dropping what an interrupt took keeps the balance. -/
theorem Balanced.collected (h : Balanced m) {stack : Stack} {weight : Nat}
    (hbefore : State.Same m.prof s) (hcollected : s.Collected stack weight s')
    (hafter : State.Same s' m'.prof) (hweight : 0 < weight) (hready : m.prof.ready = true)
    (hledger : m'.ledger = m.ledger.book (s.bookedPath stack) weight)
    (hpending : m'.stillPending + weight = m.stillPending)
    (hsmall : m.ledger.delivered < 2 ^ 32) : Balanced m' := by
  have hle := h.bookedNow_le
  obtain ⟨hnow, htotal, hsum, hroot, hdelivered⟩ := h.conserved
  have hstored : s.Stored := hbefore.stored (h.sound.stored hready)
  obtain ⟨hnow', htotal', hsum', hroot'⟩ := hcollected.totals hweight
    (by rw [hbefore.tree, hbefore.samples, hsum])
    (by rw [hbefore.tree, hbefore.samples, htotal, hsum])
    (by rw [hbefore.samples, hbefore.dropped]; omega)
    (by rw [hbefore.tree]; exact hroot) hstored
  have hready' : m'.prof.ready = true := by
    rw [hafter.ready, hcollected.ready_eq, hbefore.ready, hready]
  refine ⟨⟨fun _ => hafter.stored hcollected.stored, fun hno => ?_⟩, ⟨?_, ?_, ?_, ?_, ?_⟩, ?_⟩
  · rw [hready'] at hno
    cases hno
  · rw [hafter.samples, hafter.dropped, hnow', hbefore.samples, hbefore.dropped, hnow, hledger]
    rfl
  · rw [hafter.tree, htotal', hsum']
  · rw [hafter.tree, hafter.samples, hsum']
  · rw [hafter.tree]
    exact hroot'
  -- Every tick is booked, pending or discarded.
  · rw [hledger]
    show m.ledger.delivered = m.ledger.booked + weight + m'.stillPending + m.ledger.discarded
    omega
  · rw [hledger]
    exact Nat.add_le_add_right hle weight

/-- A step keeps the balance. -/
theorem Balanced.step (h : Balanced m) (heffect : Effect m m') (hsmall : m'.ledger.delivered < 2 ^ 32) :
    Balanced m' := by
  cases heffect with
  | ticked ticks heq =>
    subst heq
    exact h.ticked ticks hsmall
  | quiet discarded hsame hledger hpending => exact h.quiet hsame hledger hpending
  | restarted hready hsame hledger hpending => exact h.restarted hready hsame hledger hpending
  | collected s s' stack weight hbefore hcollected hafter hweight hready hledger hpending =>
    exact h.collected hbefore hcollected hafter hweight hready hledger hpending
      (by rw [hledger] at hsmall; exact hsmall)

theorem Ledger.delivered_restart (l : Ledger) (ready : Bool) :
    (l.restart ready).delivered = l.delivered := by
  cases ready <;> rfl

/-- Ticks are only ever added to those delivered. -/
theorem delivered_le_of_step {a : Action} (h : MachineSteps m a m') :
    m.ledger.delivered ≤ m'.ledger.delivered := by
  obtain ⟨s, pc, l⟩ := m
  unfold MachineSteps Machine.step at h
  split at h
  next ticks => cases h; exact Nat.le_add_right _ _
  next => cases h; exact (l.delivered_restart _).ge
  next => split at h <;> cases h <;> exact Nat.le_refl _
  next => cases h; exact Nat.le_refl _
  next => cases h; exact (l.delivered_restart _).ge
  next => cases h; exact Nat.le_refl _
  next => cases h; exact Nat.le_refl _
  next => cases h; exact Nat.le_refl _
  next => cases h; exact Nat.le_refl _
  next => cases h; exact Nat.le_refl _
  next =>
    unfold Machine.serve at h
    split at h
    · split at h
      · cases h
      · split at h <;> cases h <;> exact Nat.le_refl _
    · cases h; exact Nat.le_refl _
  next => cases h; exact Nat.le_refl _
  next after _ =>
    cases h
    cases after with
    | stop => exact Nat.le_refl _
    | cap => exact Nat.le_refl _
    | fork => exact (l.delivered_restart _).ge
  · cases h

end step

/-! ## Runs -/

section run
variable {c : Setup} {as : List Action} {m : Machine}

/-- Every run of the machine is balanced. -/
theorem balanced_of_run (hrun : Run MachineSteps c.machine as m)
    (hticks : m.ledger.delivered < 2 ^ 32) : Balanced m := by
  have hstep : ∀ m a m', (m.ledger.delivered < 2 ^ 32 → Balanced m) → MachineSteps m a m' →
      m'.ledger.delivered < 2 ^ 32 → Balanced m' := by
    intro m a m' hm hstep hsmall
    have hbalanced := hm ((delivered_le_of_step hstep).trans_lt hsmall)
    exact hbalanced.step (step_effect hbalanced.sound.stored hstep) hsmall
  exact Run.invariant hstep (fun _ => c.balanced) hrun hticks

/-- The handler never hangs: on sound tables, what it has taken is dealt with in one step. -/
theorem serve_isSome (hsound : m.prof.Sound) {pending deliveries : Nat}
    (hpc : m.pc = .serving pending deliveries) (stack : Stack) (now : Instant) :
    ∃ m', MachineSteps m (.serve stack now) m' ∧ m'.ledger.delivered = m.ledger.delivered := by
  obtain ⟨s, pc, l⟩ := m
  cases hpc
  unfold MachineSteps Machine.step Machine.serve
  cases hbooks : s.books pending with
  | false =>
    simp only [hbooks, Bool.false_eq_true, if_false]
    exact ⟨_, rfl, rfl⟩
  | true =>
    have hready : s.ready = true := by
      simp only [State.books, Bool.and_eq_true] at hbooks
      exact hbooks.2
    obtain ⟨s₁, hbook, -⟩ := (hsound.stored hready).book stack pending deliveries
    simp only [hbooks, if_true, hbook]
    split
    · exact ⟨_, rfl, rfl⟩
    · exact ⟨_, rfl, rfl⟩

end run

/-- The smallest profiler that module startup sets up. -/
def smallSetup : Setup where
  maxFrames := 64
  maxNodes := 256
  slab := some (List.replicate (64 * 256) 0)
  frames := true
  nodes := true
  timer := ⟨false, true, false, .none⟩
  frames_ge := Nat.le_refl _
  frames_le := by decide
  nodes_ge := Nat.le_refl _
  nodes_le := by decide
  slab_length bytes h := by
    cases h
    exact List.length_replicate

/-- A function of no class, in no file. -/
def plainFunction (name : String) : ZendFunction := ⟨none, some (ascii name), false, none, 0⟩

def startUp : Instant := ⟨0, by decide⟩

/-- A profile is started; ticks land before an interrupt and between its two exchanges. -/
def racingTicks : List Action :=
  [.start 1000000 64 0 startUp ⟨true, true⟩, .tick 2, .interrupt, .tick 3, .takeDeliveries]

/-- Ticks racing the exchange are all delivered. -/
theorem run_racingTicks (s : State) : ∃ m pending deliveries,
    Run MachineSteps ⟨s, .idle, .empty⟩ racingTicks m ∧ m.pc = .serving pending deliveries ∧
      m.ledger.delivered = 5 := by
  refine ⟨_, _, _, .cons rfl (.cons rfl (.cons rfl (.cons rfl (.cons rfl (.nil _))))), rfl, ?_⟩
  show (Ledger.restart _ _).delivered + 2 + 3 = 5
  rw [Ledger.delivered_restart]
  rfl

end CboxTelemetry.Profiler
