import CboxTelemetry.Profiler.SampledPath

/-!
# Late samples and overruns

Each delivery of the timer's signal stands for one tick and for the overruns that the kernel has counted
since the one before. A safe point that finds more ticks than deliveries counts the difference as
overruns, and one that finds more than one delivery counts the others as deferred. `Reported` keeps what
the kernel did report; the counters stay within it as long as no tick lands between the exchange of the
tick counter and the exchange of the delivery counter (`within_of_run`).
-/

namespace CboxTelemetry.Profiler

/-! ## What the kernel has reported -/

/-- The overruns of the deliveries that were taken since the profile was started, and of those that were
not yet, and the number of safe points at which ticks were booked. -/
structure Reported where
  taken : List Nat
  pending : List Nat
  bookings : Nat

/-- The overruns that a delivery carries. -/
def overrunCount (ticks : Nat) : Nat := tickCount ticks - 1

namespace Reported

def empty : Reported := ⟨[], [], 0⟩

/-- The deliveries of the profile, in the order they came. -/
def delivered (r : Reported) : List Nat := r.taken ++ r.pending

def take (r : Reported) : Reported := { r with taken := r.taken ++ r.pending, pending := [] }

/-- A reset of a profiler that is ready. What is pending is booked on the next profile. -/
def restart (r : Reported) (ready : Bool) : Reported :=
  if ready then { r with taken := [], bookings := 0 } else r

/-- What an action does to the report. The ticks are taken with the exchange of their counter. -/
def step (r : Reported) (m : Machine) (a : Action) : Reported :=
  match a, m.pc with
  | .tick ticks, _ => { r with pending := r.pending ++ [overrunCount ticks] }
  | .start periodNs _ _ _ _, .idle => r.restart (m.prof.ready && periodNs != 0)
  | .reset, .idle => r.restart m.prof.ready
  | .interrupt, .idle => r.take
  | .serve _ _, .serving pending _ =>
    if m.prof.books pending then { r with bookings := r.bookings + 1 } else r
  | .discardTicks, .discarding _ => r.take
  | .discardDeliveries, .discarded .fork => r.restart m.prof.ready
  | _, _ => r

end Reported

/-- The machine and the report next to it. -/
def ReportingSteps (w : Machine × Reported) (a : Action) (w' : Machine × Reported) : Prop :=
  MachineSteps w.1 a w'.1 ∧ w'.2 = w.2.step w.1 a

/-- The counters of the profile are within what was reported. -/
structure Within (s : State) (r : Reported) : Prop where
  overruns_le : s.timerOverruns ≤ r.delivered.sum
  deferred_le : s.deferred + r.bookings ≤ r.delivered.length

/-! ## Counters and deliveries -/

/-- The two counters of the signal handler, for deliveries with these overruns. -/
structure Counts (ticks deliveries : Nat) (overruns : List Nat) : Prop where
  ticks_eq : ticks = u32 (overruns.length + overruns.sum)
  deliveries_eq : deliveries = u32 overruns.length

section counts
variable {ticks deliveries : Nat} {overruns : List Nat}

theorem Counts.nil : Counts 0 0 [] := ⟨rfl, rfl⟩

/-- One delivery more, with its overruns. -/
theorem Counts.tick (h : Counts ticks deliveries overruns) (n : Nat) :
    Counts (u32 (ticks + tickCount n)) (u32 (deliveries + 1)) (overruns ++ [overrunCount n]) := by
  have hcount : tickCount n = 1 + overrunCount n := by
    unfold overrunCount tickCount
    split <;> omega
  obtain ⟨rfl, rfl⟩ := h
  constructor
  · rw [List.length_append, List.sum_append, List.length_singleton, List.sum_singleton, hcount]
    unfold u32
    omega
  · rw [List.length_append, List.length_singleton]
    unfold u32
    omega

/-- More ticks than deliveries are overruns. -/
theorem Counts.sub_le (h : Counts ticks deliveries overruns) : ticks - deliveries ≤ overruns.sum := by
  obtain ⟨rfl, rfl⟩ := h
  unfold u32
  omega

theorem Counts.deliveries_le (h : Counts ticks deliveries overruns) : deliveries ≤ overruns.length := by
  obtain ⟨-, rfl⟩ := h
  exact Nat.mod_le _ _

/-- Ticks come with deliveries. -/
theorem Counts.length_pos (h : Counts ticks deliveries overruns) (hpos : 0 < ticks) :
    0 < overruns.length := by
  rw [List.length_pos_iff]
  rintro rfl
  obtain ⟨rfl, -⟩ := h
  exact Nat.lt_irrefl _ hpos

end counts

/-! ## The invariant -/

/-- What has been taken is counted, apart from what the thread holds. -/
def Held (s : State) (r : Reported) (held : List Nat) : Prop :=
  ∃ before, r.taken = before ++ held ∧ s.timerOverruns ≤ before.sum ∧
    s.deferred + r.bookings ≤ before.length

/-- The signal handler's counters stand for the deliveries that are pending. -/
def PendingCounts (s : State) (r : Reported) : Prop :=
  Counts s.pendingTicks s.pendingDeliveries r.pending

/-- The invariant, by where the thread is. Between two exchanges nothing is pending, and the count of
deliveries is still that of the ticks which were taken. -/
def Reporting (m : Machine) (r : Reported) : Prop :=
  match m.pc with
  | .idle => PendingCounts m.prof r ∧ Held m.prof r []
  | .discarding _ => PendingCounts m.prof r ∧ Held m.prof r []
  | .interrupted pending => (m.prof.pendingTicks = 0 ∧ r.pending = []) ∧
      ∃ held, Counts pending m.prof.pendingDeliveries held ∧ Held m.prof r held
  | .serving pending deliveries => PendingCounts m.prof r ∧
      ∃ held, Counts pending deliveries held ∧ Held m.prof r held
  | .discarded _ => (m.prof.pendingTicks = 0 ∧ r.pending = []) ∧ Held m.prof r []

section invariant
variable {s s' : State} {r : Reported} {held : List Nat} {m m' : Machine}

/-- What is held counts within the reported overruns. -/
theorem Held.within (h : Held s r held) : Within s r := by
  obtain ⟨before, htaken, hoverruns, hdeferred⟩ := h
  constructor
  · rw [Reported.delivered, htaken, List.sum_append, List.sum_append]
    omega
  · rw [Reported.delivered, htaken, List.length_append, List.length_append]
    omega

/-- So do the counters of a run. -/
theorem Reporting.within (h : Reporting m r) : Within m.prof r := by
  obtain ⟨s, pc, l⟩ := m
  cases pc with
  | idle => exact h.2.within
  | discarding after => exact h.2.within
  | discarded after => exact h.2.within
  | interrupted pending =>
    obtain ⟨-, held, -, hheld⟩ := h
    exact hheld.within
  | serving pending deliveries =>
    obtain ⟨-, held, -, hheld⟩ := h
    exact hheld.within

/-- What does not touch the counters of the profile keeps what is held. -/
theorem Held.of_eq (h : Held s r held) (hoverruns : s'.timerOverruns = s.timerOverruns)
    (hdeferred : s'.deferred = s.deferred) : Held s' r held := by
  unfold Held
  rw [hoverruns, hdeferred]
  exact h

/-- The counters decide. -/
theorem PendingCounts.of_eq (h : PendingCounts s r) (hticks : s'.pendingTicks = s.pendingTicks)
    (hdeliveries : s'.pendingDeliveries = s.pendingDeliveries) : PendingCounts s' r := by
  unfold PendingCounts
  rw [hticks, hdeliveries]
  exact h

theorem Held.pending (h : Held s r held) (pending : List Nat) : Held s { r with pending := pending } held :=
  h

/-- All that was pending is held. -/
theorem Held.take (h : Held s r []) : Held s r.take r.pending := by
  obtain ⟨before, htaken, hcounters⟩ := h
  refine ⟨before, ?_, hcounters⟩
  rw [Reported.take, htaken, List.append_nil]

/-- What was held and is not booked is counted as delivered all the same. -/
theorem Held.release (h : Held s r held) : Held s r [] := by
  obtain ⟨before, htaken, hoverruns, hdeferred⟩ := h
  refine ⟨before ++ held, by rw [htaken, List.append_nil], ?_, ?_⟩
  · rw [List.sum_append]
    omega
  · rw [List.length_append]
    omega

/-- Booking what is held. -/
theorem Held.account (h : Held s r held) {pending deliveries : Nat}
    (hcounts : Counts pending deliveries held) (hpos : 0 < pending) :
    Held (s.account pending deliveries) { r with bookings := r.bookings + 1 } [] := by
  obtain ⟨before, htaken, hoverruns, hdeferred⟩ := h
  have hover := hcounts.sub_le
  have hlate := hcounts.deliveries_le
  have hsome := hcounts.length_pos hpos
  have hle : ∀ n, u64 n ≤ n := fun n => Nat.mod_le _ _
  refine ⟨before ++ held, by rw [List.append_nil, htaken], ?_, ?_⟩
  · have hsum := hle (s.timerOverruns + (pending - deliveries))
    rw [List.sum_append]
    show (if deliveries < pending then u64 (s.timerOverruns + (pending - deliveries))
      else s.timerOverruns) ≤ _
    split <;> omega
  · have hsum := hle (s.deferred + (deliveries - 1))
    rw [List.length_append]
    show (if 1 < deliveries then u64 (s.deferred + (deliveries - 1)) else s.deferred) +
      (r.bookings + 1) ≤ _
    split <;> omega

/-- A reset of a ready profiler starts the counts anew. -/
theorem held_restart (hready : s.ready = true) (r : Reported) : Held s.reset (r.restart true) [] := by
  rw [State.reset_ready hready]
  exact ⟨[], rfl, Nat.le_refl _, Nat.le_refl _⟩

/-- A reset holds nothing. -/
theorem Held.reset (h : Held s r []) : Held s.reset (r.restart s.ready) [] := by
  cases hready : s.ready with
  | true => exact held_restart hready r
  | false =>
    have hreset : s.reset = s := by simp only [State.reset, hready, Bool.not_false, if_true]
    rw [hreset]
    exact h

theorem PendingCounts.restart (h : PendingCounts s r) (ready : Bool) :
    PendingCounts s (r.restart ready) := by
  cases ready <;> exact h

/-- A reset leaves what is pending. -/
theorem PendingCounts.reset (h : PendingCounts s r) : PendingCounts s.reset r := by
  refine h.of_eq (pendingTicks_reset s) ?_
  unfold State.reset
  split <;> rfl

end invariant

/-! ## Steps -/

/-- No tick lands between the exchange of the tick counter and the exchange of the delivery counter. -/
def TicksApart (w : Machine × Reported) (a : Action) : Prop :=
  ∀ n, a = .tick n → (∀ pending, w.1.pc ≠ .interrupted pending) ∧ ∀ after, w.1.pc ≠ .discarded after

section step
variable {s : State} {pc : Pc} {l : Ledger} {r : Reported} {m' : Machine}

/-- A tick outside the exchanges is counted with its delivery. -/
theorem Reporting.tick (h : Reporting ⟨s, pc, l⟩ r) (n : Nat)
    (happart : (∀ pending, pc ≠ .interrupted pending) ∧ ∀ after, pc ≠ .discarded after) (l' : Ledger) :
    Reporting ⟨s.tick n, pc, l'⟩ { r with pending := r.pending ++ [overrunCount n] } := by
  have htick : PendingCounts s r →
      PendingCounts (s.tick n) { r with pending := r.pending ++ [overrunCount n] } := by
    intro hcounts
    exact Counts.tick hcounts n
  cases pc with
  | idle => exact ⟨htick h.1, h.2⟩
  | discarding after => exact ⟨htick h.1, h.2⟩
  | serving pending deliveries => exact ⟨htick h.1, h.2⟩
  | interrupted pending => exact absurd rfl (happart.1 pending)
  | discarded after => exact absurd rfl (happart.2 after)

/-- A start keeps the report. -/
theorem Reporting.start (h : Reporting ⟨s, .idle, l⟩ r) (periodNs maxDepth maxDurationNs : Nat)
    (now : Instant) (io : TimerIo) (l' : Ledger) :
    Reporting ⟨(s.start periodNs maxDepth maxDurationNs now io).2, .idle, l'⟩
      (r.restart (s.ready && periodNs != 0)) := by
  obtain ⟨hcounts, hheld⟩ := h
  unfold State.start
  cases hready : s.ready with
  | false => exact ⟨hcounts, hheld⟩
  | true =>
    cases hperiod : periodNs == 0 with
    | true =>
      simp only [Bool.not_true, Bool.or_true, if_true, bne, hperiod, Bool.and_false]
      exact ⟨hcounts, hheld⟩
    | false =>
      have hreset := hcounts.reset.restart true
      have hnew := held_restart hready r
      simp only [Bool.not_true, Bool.false_or, Bool.false_eq_true, if_false, bne, hperiod,
        Bool.not_false, Bool.and_self]
      split
      · exact ⟨hreset.of_eq rfl rfl, hnew.of_eq rfl rfl⟩
      · exact ⟨hreset.of_eq rfl rfl, hnew.of_eq rfl rfl⟩

/-- Serving keeps the report, with one more booking when there is something to book. -/
theorem Reporting.serve {pending deliveries : Nat} (h : Reporting ⟨s, .serving pending deliveries, l⟩ r)
    (hstored : s.ready = true → s.Stored) {stack : Stack} {now : Instant}
    (hserve : Machine.serve ⟨s, .serving pending deliveries, l⟩ stack pending deliveries now = some m') :
    Reporting m' (if s.books pending then { r with bookings := r.bookings + 1 } else r) := by
  obtain ⟨hpending, held, hcounts, hheld⟩ := h
  unfold Machine.serve at hserve
  cases hbooks : s.books pending with
  | false =>
    simp only [hbooks, Bool.false_eq_true, if_false] at hserve
    cases hserve
    exact ⟨hpending, hheld.release⟩
  | true =>
    simp only [hbooks, if_true] at hserve
    simp only [State.books, Bool.and_eq_true, decide_eq_true_eq] at hbooks
    obtain ⟨⟨hpos, -⟩, hready⟩ := hbooks
    obtain ⟨s₁, hbook, hcollected⟩ := (hstored hready).book stack pending deliveries
    simp only [hbook] at hserve
    -- Collecting changes none of the counters.
    have heq := hcollected.eq
    have hcounts₁ : PendingCounts s₁ { r with bookings := r.bookings + 1 } := by
      have hbase : PendingCounts (s.account pending deliveries) { r with bookings := r.bookings + 1 } :=
        hpending
      exact hbase.of_eq (by rw [heq]) (by rw [heq])
    have hheld₁ : Held s₁ { r with bookings := r.bookings + 1 } [] :=
      (hheld.account hcounts hpos).of_eq (by rw [heq]) (by rw [heq])
    split at hserve
    · cases hserve
      exact ⟨hcounts₁, hheld₁⟩
    · cases hserve
      exact ⟨hcounts₁, hheld₁⟩

/-- A step keeps the report when no tick falls between the two exchanges. -/
theorem Reporting.step {m m' : Machine} {a : Action} (h : Reporting m r)
    (hstored : m.prof.ready = true → m.prof.Stored) (happart : TicksApart (m, r) a)
    (hstep : MachineSteps m a m') : Reporting m' (r.step m a) := by
  obtain ⟨s, pc, l⟩ := m
  unfold MachineSteps Machine.step at hstep
  split at hstep
  next ticks => cases hstep; exact h.tick ticks (happart ticks rfl) _
  next periodNs maxDepth maxDurationNs now io hpc =>
    cases hpc; cases hstep
    exact h.start periodNs maxDepth maxDurationNs now io _
  next hpc =>
    cases hpc
    split at hstep
    · cases hstep; exact ⟨h.1.of_eq rfl rfl, h.2.of_eq rfl rfl⟩
    · cases hstep; exact h
  next hpc => cases hpc; cases hstep; exact ⟨h.1.of_eq rfl rfl, h.2.of_eq rfl rfl⟩
  next hpc => cases hpc; cases hstep; exact ⟨h.1.reset.restart _, h.2.reset⟩
  next hpc => cases hpc; cases hstep; exact ⟨h.1.of_eq rfl rfl, h.2.of_eq rfl rfl⟩
  next hpc => cases hpc; cases hstep; exact ⟨h.1.of_eq rfl rfl, h.2.of_eq rfl rfl⟩
  next hpc => cases hpc; cases hstep; exact ⟨h.1.of_eq rfl rfl, h.2.of_eq rfl rfl⟩
  -- The first exchange takes the ticks, and the deliveries still belong to them.
  next hpc =>
    cases hpc; cases hstep
    exact ⟨⟨rfl, rfl⟩, r.pending, h.1, h.2.take⟩
  -- The second exchange takes the deliveries. No tick came between, so both are of the same ticks.
  next pending hpc =>
    cases hpc; cases hstep
    obtain ⟨⟨hticks, hnone⟩, held, hcounts, hheld⟩ := h
    refine ⟨?_, held, hcounts, hheld⟩
    show Counts s.pendingTicks 0 r.pending
    rw [show s.pendingTicks = 0 from hticks, hnone]
    exact .nil
  next stack now pending deliveries hpc => cases hpc; exact h.serve hstored hstep
  next after hpc =>
    cases hpc; cases hstep
    exact ⟨⟨rfl, rfl⟩, h.2.take.release⟩
  next after hpc =>
    cases hpc; cases hstep
    obtain ⟨⟨hticks, hnone⟩, hheld⟩ := h
    have hcounts : PendingCounts s.takeDeliveries.2 r := by
      show Counts s.pendingTicks 0 r.pending
      rw [show s.pendingTicks = 0 from hticks, hnone]
      exact .nil
    cases after with
    | stop => exact ⟨hcounts, hheld⟩
    | cap => exact ⟨hcounts, hheld⟩
    | fork => exact ⟨hcounts.reset.restart _, Held.reset hheld⟩
  · cases hstep

end step

/-! ## Runs -/

/-- `cbox_profiler_init` leaves all counters zero. -/
theorem Setup.reporting (c : Setup) : Reporting c.machine .empty := by
  have hblank : ({ State.blank with timer := c.timer } : State).ready = false := rfl
  have hzero : PendingCounts c.prof .empty ∧ Held c.prof .empty [] := by
    obtain hnothing | ⟨bytes, ft, tree, -, -, -, hready⟩ :=
      State.init_cases hblank c.maxFrames c.maxNodes c.slab c.frames c.nodes
    · unfold Setup.prof
      rw [hnothing]
      exact ⟨.nil, [], rfl, Nat.le_refl _, Nat.le_refl _⟩
    · unfold Setup.prof
      rw [hready]
      exact ⟨.nil, [], rfl, Nat.le_refl _, Nat.le_refl _⟩
  exact hzero

/-- **The counters of late samples and overruns stay within what was reported**, in every run in which
no tick lands between two exchanges. -/
theorem within_of_run (c : Setup) {as : List Action} {m : Machine} {r : Reported}
    (hrun : Run (Guarded TicksApart ReportingSteps) (c.machine, .empty) as (m, r)) : Within m.prof r := by
  have hstep : ∀ w a w', (State.Sound w.1.prof ∧ Reporting w.1 w.2) →
      Guarded TicksApart ReportingSteps w a w' → w'.1.prof.Sound ∧ Reporting w'.1 w'.2 := by
    rintro ⟨m, r⟩ a ⟨m', r'⟩ ⟨hsound, hreporting⟩ ⟨happart, hmachine, hreport⟩
    cases hreport
    exact ⟨hsound.step (step_effect hsound.stored hmachine), hreporting.step hsound.stored happart hmachine⟩
  have hstart : c.machine.prof.Sound ∧ Reporting c.machine .empty := ⟨c.fresh.sound, c.reporting⟩
  exact (Run.invariant hstep hstart hrun).2.within

/-! ## A tick between two exchanges -/

/-- Ticks land while the profiler runs. -/
def TicksRunning (w : Machine × Reported) (a : Action) : Prop :=
  ∀ n, a = .tick n → w.1.prof.running = true

/-- A profile is running, and nothing will stop it. -/
structure Sampling (s : State) : Prop where
  stored : s.Stored
  ready : s.ready = true
  running : s.running = true
  deadlineNs : s.deadlineNs = 0

section sampling
variable {s : State}

/-- The step that books what has been taken while a profile is running. -/
theorem Sampling.step_serve (h : Sampling s) {pending : Nat} (hpos : 0 < pending) {deliveries : Nat}
    {stack : Stack} {s' : State} (hbook : s.book stack pending deliveries = some s') (now : Instant)
    (l : Ledger) : s.books pending = true ∧ MachineSteps ⟨s, .serving pending deliveries, l⟩ (.serve stack now)
      ⟨s', .idle, l.book ((s.account pending deliveries).bookedPath stack) pending⟩ := by
  obtain ⟨s₁, hbook₁, hcollected⟩ := h.stored.book stack pending deliveries
  cases hbook.symm.trans hbook₁
  have hbooks : s.books pending = true := by
    rw [State.books, h.running, h.ready, decide_eq_true hpos]
    rfl
  have hdeadline : s'.deadlineNs = 0 := by
    rw [hcollected.eq]
    exact h.deadlineNs
  have hdue : s'.deadlineDue = false := by
    rw [State.deadlineDue, hdeadline]
    rfl
  have hcheck : s'.checkDeadline now = (false, s') := by
    rw [State.checkDeadline, hdue]
    rfl
  refine ⟨hbooks, ?_⟩
  simp only [MachineSteps, Machine.step, Machine.serve, hbooks, hbook, hcheck, if_true,
    Bool.false_eq_true, if_false]

/-- What has been taken while a profile is running is booked. -/
theorem Sampling.serve (h : Sampling s) {pending : Nat} (hpos : 0 < pending) (deliveries : Nat)
    (stack : Stack) (now : Instant) (l : Ledger) (r : Reported) :
    ∃ s' l', Guarded TicksRunning ReportingSteps (⟨s, .serving pending deliveries, l⟩, r)
        (.serve stack now) (⟨s', .idle, l'⟩, { r with bookings := r.bookings + 1 }) ∧ Sampling s' ∧
      s'.pendingTicks = s.pendingTicks ∧ s'.pendingDeliveries = s.pendingDeliveries ∧
      s'.timerOverruns = (s.account pending deliveries).timerOverruns := by
  obtain ⟨s', hbook, hcollected⟩ := h.stored.book stack pending deliveries
  have heq := hcollected.eq
  obtain ⟨hbooks, hstep⟩ := h.step_serve hpos hbook now l
  have hdeadline : s'.deadlineNs = 0 := by
    rw [heq]
    exact h.deadlineNs
  refine ⟨s', _, ⟨nofun, hstep, ?_⟩, ?_, ?_, ?_, ?_⟩
  · simp only [Reported.step, hbooks, if_true]
  · exact ⟨hcollected.stored, hcollected.ready_eq.trans h.ready, hcollected.running_eq.trans h.running,
      hdeadline⟩
  · exact hcollected.pendingTicks_eq
  · rw [heq]
    rfl
  · rw [heq]

/-- A tick of a running profiler is counted. -/
theorem steps_tick {s : State} (hrunning : s.running = true) (pc : Pc) (l : Ledger) (r : Reported)
    (n : Nat) : Guarded TicksRunning ReportingSteps (⟨s, pc, l⟩, r) (.tick n)
      (⟨s.tick n, pc, { l with delivered := l.delivered + tickCount n }⟩,
        { r with pending := r.pending ++ [overrunCount n] }) :=
  ⟨fun _ _ => hrunning, rfl, rfl⟩

/-- An interrupt begins with the exchange of the ticks. -/
theorem steps_interrupt (s : State) (l : Ledger) (r : Reported) :
    Guarded TicksRunning ReportingSteps (⟨s, .idle, l⟩, r) .interrupt
      (⟨s.takeTicks.2, .interrupted s.pendingTicks, l⟩, r.take) :=
  ⟨nofun, rfl, rfl⟩

theorem steps_takeDeliveries (s : State) (pending : Nat) (l : Ledger) (r : Reported) :
    Guarded TicksRunning ReportingSteps (⟨s, .interrupted pending, l⟩, r) .takeDeliveries
      (⟨s.takeDeliveries.2, .serving pending s.pendingDeliveries, l⟩, r) :=
  ⟨nofun, rfl, rfl⟩

/-- What two ticks leave, when the ticks of the first and the deliveries of both are taken. -/
theorem overtaken {s : State} (hticks : s.pendingTicks = 0) (hdeliveries : s.pendingDeliveries = 0) :
    ((s.tick 1).takeTicks.2.tick 1).takeDeliveries.2 = { s with pendingTicks := 1 } := by
  cases s
  cases hticks
  cases hdeliveries
  rfl

/-- Two ticks without overruns, and two interrupts; the second tick lands between the two exchanges of
the first interrupt. -/
def overtakenTicks (stack : Stack) : List Action :=
  [.tick 1, .interrupt, .tick 1, .takeDeliveries, .serve stack startUp, .interrupt, .takeDeliveries,
    .serve stack startUp]

theorem run_overtakenTicks (h : Sampling s) (hticks : s.pendingTicks = 0)
    (hdeliveries : s.pendingDeliveries = 0) (hoverruns : s.timerOverruns = 0) (stack : Stack)
    (l : Ledger) : ∃ m r, Run (Guarded TicksRunning ReportingSteps) (⟨s, .idle, l⟩, .empty)
      (overtakenTicks stack) (m, r) ∧ m.prof.timerOverruns = 1 ∧ r.delivered = [0, 0] := by
  let deliver : Ledger → Ledger := fun l => { l with delivered := l.delivered + tickCount 1 }
  -- The first interrupt holds the first tick when the second lands, and then takes both deliveries.
  have hfirst : (s.tick 1).pendingTicks = 1 := by
    show u32 (s.pendingTicks + 1) = 1
    rw [hticks]
    rfl
  have hboth : ((s.tick 1).takeTicks.2.tick 1).pendingDeliveries = 2 := by
    show u32 (u32 (s.pendingDeliveries + 1) + 1) = 2
    rw [hdeliveries]
    rfl
  have hstill : (s.tick 1).takeTicks.2.running = true := h.running
  have hfront : Run (Guarded TicksRunning ReportingSteps) (⟨s, .idle, l⟩, .empty)
      [.tick 1, .interrupt, .tick 1, .takeDeliveries]
      (⟨((s.tick 1).takeTicks.2.tick 1).takeDeliveries.2, .serving (s.tick 1).pendingTicks
        ((s.tick 1).takeTicks.2.tick 1).pendingDeliveries, deliver (deliver l)⟩, ⟨[0], [0], 0⟩) :=
    .cons (steps_tick h.running _ _ _ _) (.cons (steps_interrupt _ _ _)
      (.cons (steps_tick hstill _ _ _ _) (.single (steps_takeDeliveries _ _ _ _))))
  rw [overtaken hticks hdeliveries, hfirst, hboth] at hfront
  have hsampling : Sampling { s with pendingTicks := 1 } :=
    ⟨h.stored.of_eq rfl rfl rfl rfl rfl, h.ready, h.running, h.deadlineNs⟩
  obtain ⟨s₁, l₁, hserve₁, hsampling₁, hticks₁, hdeliveries₁, hoverruns₁⟩ :=
    hsampling.serve Nat.one_pos 2 stack startUp (deliver (deliver l)) ⟨[0], [0], 0⟩
  -- The second interrupt finds the second tick without a delivery.
  have hticks₁' : s₁.pendingTicks = 1 := hticks₁
  have hdeliveries₁' : s₁.takeTicks.2.pendingDeliveries = 0 := hdeliveries₁.trans hdeliveries
  have hmiddle : Run (Guarded TicksRunning ReportingSteps) (⟨s₁, .idle, l₁⟩, ⟨[0], [0], 1⟩) [.interrupt, .takeDeliveries]
      (⟨s₁.takeTicks.2.takeDeliveries.2, .serving s₁.pendingTicks s₁.takeTicks.2.pendingDeliveries, l₁⟩,
        ⟨[0, 0], [], 1⟩) :=
    .cons (steps_interrupt _ _ _) (.single (steps_takeDeliveries _ _ _ _))
  rw [hticks₁', hdeliveries₁'] at hmiddle
  have hsampling₂ : Sampling s₁.takeTicks.2.takeDeliveries.2 :=
    ⟨hsampling₁.stored.of_eq rfl rfl rfl rfl rfl, hsampling₁.ready, hsampling₁.running,
      hsampling₁.deadlineNs⟩
  obtain ⟨s₂, l₂, hserve₂, -, -, -, hoverruns₂⟩ :=
    hsampling₂.serve Nat.one_pos 0 stack startUp l₁ ⟨[0, 0], [], 1⟩
  refine ⟨_, _, hfront.append (.cons hserve₁ (hmiddle.append (.single hserve₂))), ?_, rfl⟩
  have hnone : s₁.timerOverruns = 0 := hoverruns₁.trans hoverruns
  rw [hoverruns₂]
  show u64 (s₁.timerOverruns + (1 - 0)) = 1
  rw [hnone]
  rfl

end sampling

/-- A profile that has just been started has nothing pending and nothing counted. -/
theorem sampling_start {c : Setup} (hworks : c.Works) :
    let s := (c.prof.start 1000000 64 0 startUp ⟨true, true⟩).2
    Sampling s ∧ s.pendingTicks = 0 ∧ s.pendingDeliveries = 0 ∧ s.timerOverruns = 0 ∧ s.deferred = 0 := by
  have hwide := wide_start hworks (by decide : 0 < 64) (by decide)
  have hready : c.prof.ready = true := by
    obtain ⟨slab, ft, tree, -, -, -, hprof⟩ := hworks.prof_eq
    rw [hprof]
  have hstart := Reporting.start c.reporting 1000000 64 0 startUp ⟨true, true⟩ .empty
  rw [hready] at hstart
  obtain ⟨-, before, htaken, hoverruns, hdeferred⟩ := hstart
  have hnone : before = [] := (List.append_eq_nil_iff.mp htaken.symm).1
  rw [hnone] at hoverruns hdeferred
  exact ⟨⟨hwide.stored, hwide.ready, hwide.running, hwide.deadlineNs⟩, hwide.pendingTicks,
    hwide.pendingDeliveries, Nat.le_zero.mp hoverruns, (Nat.add_eq_zero_iff.mp (Nat.le_zero.mp hdeferred)).1⟩

theorem steps_start (s : State) (depth : Nat) : ∃ l,
    Guarded TicksRunning ReportingSteps (⟨s, .idle, .empty⟩, .empty)
      (.start 1000000 depth 0 startUp ⟨true, true⟩)
      (⟨(s.start 1000000 depth 0 startUp ⟨true, true⟩).2, .idle, l⟩, .empty) := by
  refine ⟨_, nofun, rfl, ?_⟩
  show Reported.empty = Reported.empty.restart _
  unfold Reported.restart
  split <;> rfl

/-- A delivery with two overruns and one without, and an interrupt that books both. -/
def apartTicks (stack : Stack) : List Action :=
  [.tick 3, .tick 1, .interrupt, .takeDeliveries, .serve stack startUp]

/-- The two ticks are over when the interrupt begins. -/
theorem run_apartTicks {s : State} (h : Sampling s) (hticks : s.pendingTicks = 0)
    (hdeliveries : s.pendingDeliveries = 0) (stack : Stack) (l : Ledger) :
    ∃ m, Run (Guarded TicksApart ReportingSteps) (⟨s, .idle, l⟩, .empty) (apartTicks stack)
        (m, ⟨[2, 0], [], 1⟩) ∧
      m.prof.timerOverruns = u64 (s.timerOverruns + 2) ∧ m.prof.deferred = u64 (s.deferred + 1) := by
  let deliver : Ledger → Nat → Ledger := fun l n => { l with delivered := l.delivered + tickCount n }
  have hpeace : ∀ (t : State) (l : Ledger) (r : Reported) (n : Nat), TicksApart (⟨t, .idle, l⟩, r) (.tick n) :=
    fun _ _ _ _ _ _ => ⟨nofun, nofun⟩
  have hfront : Run (Guarded TicksApart ReportingSteps) (⟨s, .idle, l⟩, .empty)
      [.tick 3, .tick 1, .interrupt, .takeDeliveries]
      (⟨((s.tick 3).tick 1).takeTicks.2.takeDeliveries.2, .serving ((s.tick 3).tick 1).pendingTicks
        ((s.tick 3).tick 1).pendingDeliveries, deliver (deliver l 3) 1⟩, ⟨[2, 0], [], 0⟩) :=
    .cons ⟨hpeace _ _ _ _, (steps_tick h.running _ _ _ _).2⟩
      (.cons ⟨hpeace _ _ _ _, (steps_tick (show (s.tick 3).running = true from h.running) _ _ _ _).2⟩
        (.cons ⟨nofun, (steps_interrupt _ _ _).2⟩ (.single ⟨nofun, (steps_takeDeliveries _ _ _ _).2⟩)))
  have htaken : ((s.tick 3).tick 1).takeTicks.2.takeDeliveries.2 = s := by
    cases s
    cases hticks
    cases hdeliveries
    rfl
  have hfour : ((s.tick 3).tick 1).pendingTicks = 4 := by
    show u32 (u32 (s.pendingTicks + 3) + 1) = 4
    rw [hticks]
    rfl
  have htwo : ((s.tick 3).tick 1).pendingDeliveries = 2 := by
    show u32 (u32 (s.pendingDeliveries + 1) + 1) = 2
    rw [hdeliveries]
    rfl
  rw [htaken, hfour, htwo] at hfront
  obtain ⟨s', hbook, hcollected⟩ := h.stored.book stack 4 2
  obtain ⟨hbooks, hserve⟩ := h.step_serve (by decide : 0 < 4) hbook startUp (deliver (deliver l 3) 1)
  have hreport : (⟨[2, 0], [], 1⟩ : Reported) =
      Reported.step ⟨[2, 0], [], 0⟩ ⟨s, .serving 4 2, deliver (deliver l 3) 1⟩ (.serve stack startUp) := by
    simp only [Reported.step, hbooks, if_true]
  refine ⟨_, hfront.append (.single ⟨nofun, hserve, hreport⟩), ?_, ?_⟩
  · rw [hcollected.eq]
    rfl
  · rw [hcollected.eq]
    rfl

/-- Both counters are at their bound: two overruns were reported, and of two deliveries one is late. -/
theorem within_of_run_apart : ∃ as m r,
    Run (Guarded TicksApart ReportingSteps) (smallSetup.machine, .empty) as (m, r) ∧
      r.delivered = [2, 0] ∧ r.bookings = 1 ∧ m.prof.timerOverruns = 2 ∧ m.prof.deferred = 1 ∧
      Within m.prof r := by
  obtain ⟨hsampling, hticks, hdeliveries, hoverruns, hdeferred⟩ := sampling_start smallSetup_works
  obtain ⟨l, -, hstart⟩ := steps_start smallSetup.prof 64
  obtain ⟨m, hrest, hover, hlate⟩ := run_apartTicks hsampling hticks hdeliveries [some (closureAt 0)] l
  rw [hoverruns] at hover
  rw [hdeferred] at hlate
  have hquiet : TicksApart (smallSetup.machine, .empty) (.start 1000000 64 0 startUp ⟨true, true⟩) := by
    intro n haction
    cases haction
  have hrun := Run.cons ⟨hquiet, hstart⟩ hrest
  exact ⟨_, m, _, hrun, rfl, rfl, hover, hlate, within_of_run smallSetup hrun⟩

/-- **An overrun that nobody reported.** A tick that lands between the two exchanges of an interrupt is
counted as an overrun by the next. -/
theorem not_within_overtaken : ¬∀ (c : Setup) (as : List Action) (m : Machine) (r : Reported),
    Run (Guarded TicksRunning ReportingSteps) (c.machine, .empty) as (m, r) → Within m.prof r := by
  intro hall
  obtain ⟨hsampling, hticks, hdeliveries, hoverruns, -⟩ := sampling_start smallSetup_works
  obtain ⟨l, hstart⟩ := steps_start smallSetup.prof 64
  obtain ⟨m, r, hrest, hcounted, hdelivered⟩ :=
    run_overtakenTicks hsampling hticks hdeliveries hoverruns [] l
  have hwithin := (hall smallSetup _ m r (.cons hstart hrest)).overruns_le
  rw [hcounted, hdelivered] at hwithin
  exact absurd hwithin (by decide)

end CboxTelemetry.Profiler
