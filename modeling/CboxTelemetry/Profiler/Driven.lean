import CboxTelemetry.Profiler.Functions

/-!
# The functions of the profiler as runs of the machine

The extension calls the functions of the profiler and never sees the steps that they are made of. Each of them
takes the thread from one idle state to another (`Drives`), so a caller that does nothing to the profiler but call
them drives the machine, and what holds on every run of the machine holds of the profiler of every such caller.
-/

namespace CboxTelemetry.Profiler

/-- A start is one that the caller asks for, of a profiler that does not run; nothing is said about the other
actions. -/
def Asked (asked : Nat → Nat → Nat → Prop) (m : Machine) : Action → Prop
  | .start periodNs maxDepth maxDurationNs _ _ => m.prof.running = false ∧ asked periodNs maxDepth maxDurationNs
  | _ => True

/-- The steps of the machine, with the starts that are asked for. -/
def AskedSteps (asked : Nat → Nat → Nat → Prop) : Machine → Action → Machine → Prop :=
  Guarded (Asked asked) MachineSteps

/-- The idle thread gets from `s` to `s'`, and `n` ticks are delivered on the way. -/
def Drives (asked : Nat → Nat → Nat → Prop) (n : Nat) (s s' : State) : Prop :=
  ∀ l, ∃ as l', Run (AskedSteps asked) ⟨s, .idle, l⟩ as ⟨s', .idle, l'⟩ ∧ l'.delivered = l.delivered + n

namespace Drives
variable {asked : Nat → Nat → Nat → Prop} {n n' : Nat} {s s' s'' : State}

theorem refl (s : State) : Drives asked 0 s s := by
  intro l
  exact ⟨[], l, .nil _, rfl⟩

/-- Two driven steps are one. -/
theorem trans (h : Drives asked n s s') (h' : Drives asked n' s' s'') : Drives asked (n + n') s s'' := by
  intro l
  obtain ⟨as, l₁, hrun, hdelivered⟩ := h l
  obtain ⟨bs, l₂, hrest, hmore⟩ := h' l₁
  refine ⟨as ++ bs, l₂, hrun.append hrest, ?_⟩
  omega

/-- Calls that come after one another and between which nothing is delivered. -/
theorem followedBy (h : Drives asked 0 s s') (h' : Drives asked 0 s' s'') : Drives asked 0 s s'' := h.trans h'

/-- One step of the idle thread. -/
theorem step {a : Action} (hasked : ∀ l, Asked asked ⟨s, .idle, l⟩ a)
    (h : ∀ l, ∃ l', MachineSteps ⟨s, .idle, l⟩ a ⟨s', .idle, l'⟩ ∧ l'.delivered = l.delivered + n) :
    Drives asked n s s' := by
  intro l
  obtain ⟨l', hstep, hdelivered⟩ := h l
  exact ⟨[a], l', .single ⟨hasked l, hstep⟩, hdelivered⟩

end Drives

/-! ## Each function -/

section functions
variable {asked : Nat → Nat → Nat → Prop} {s s' : State} {l : Ledger}

/-- Ticks that are thrown away, and what comes after. -/
theorem run_discard (s : State) (after : After) (l : Ledger) :
    Run (AskedSteps asked) ⟨s, .discarding after, l⟩ [.discardTicks, .discardDeliveries]
      (Machine.finish s.takeTicks.2.takeDeliveries.2 (l.discard s.takeTicks.1) after) := by
  have hticks : AskedSteps asked ⟨s, .discarding after, l⟩ .discardTicks
      ⟨s.takeTicks.2, .discarded after, l.discard s.takeTicks.1⟩ := ⟨trivial, rfl⟩
  exact .cons hticks (.single ⟨trivial, rfl⟩)

/-- A start is a step of the machine. -/
theorem drives_start {periodNs maxDepth maxDurationNs : Nat} (hstopped : s.running = false)
    (hasked : asked periodNs maxDepth maxDurationNs) (now : Instant) (io : TimerIo) :
    Drives asked 0 s (s.start periodNs maxDepth maxDurationNs now io).2 := by
  apply Drives.step (a := .start periodNs maxDepth maxDurationNs now io) (fun _ => ⟨hstopped, hasked⟩)
  intro l
  exact ⟨l.restart (s.ready && periodNs != 0), rfl, l.delivered_restart _⟩

/-- `cbox_profiler_stop`. -/
theorem drives_stop (s : State) : Drives asked 0 s s.stop := by
  intro l
  cases hrunning : s.running with
  | false =>
    rw [State.stop_of_stopped hrunning]
    exact Drives.refl s l
  | true =>
    have hstop : s.stop = s.halt.takeTicks.2.takeDeliveries.2 := by
      simp only [State.stop, hrunning, Bool.not_true, Bool.false_eq_true, if_false]
    have hhalt : AskedSteps asked ⟨s, .idle, l⟩ .stop ⟨s.halt, .discarding .stop, l⟩ := by
      refine ⟨trivial, ?_⟩
      simp only [MachineSteps, Machine.step, hrunning, if_true]
    rw [hstop]
    exact ⟨_, _, .cons hhalt (run_discard s.halt .stop l), rfl⟩

/-- So is a reset. -/
theorem drives_reset (s : State) : Drives asked 0 s s.reset := by
  apply Drives.step (a := .reset) (fun _ => trivial)
  intro l
  exact ⟨l.restart s.ready, rfl, l.delivered_restart _⟩

/-- The end of a profile: the profiler is stopped, and empty again. -/
theorem drives_stop_reset (s : State) : Drives asked 0 s s.stop.reset :=
  (drives_stop s).followedBy (drives_reset _)

/-- So is clearing the deadline. -/
theorem drives_clearDeadline (s : State) : Drives asked 0 s s.clearDeadline := by
  apply Drives.step (a := .clearDeadline) (fun _ => trivial)
  intro l
  exact ⟨l, rfl, rfl⟩

/-- So is the clearing of the timer in a forked child. -/
theorem drives_fork (s : State) : Drives asked 0 s { s with timer := s.timer.fork } := by
  apply Drives.step (a := .fork) (fun _ => trivial)
  intro l
  exact ⟨l, rfl, rfl⟩

/-- `cbox_profiler_after_fork` and `cbox_timer_after_fork`, one after the other. -/
theorem drives_afterFork (s : State) :
    Drives asked 0 s { s.afterFork with timer := s.afterFork.timer.afterFork } := by
  have hafter : Drives asked 0 s s.afterFork := by
    intro l
    have hstopped : AskedSteps asked ⟨s, .idle, l⟩ .afterFork ⟨{ s with running := false }, .discarding .fork, l⟩ :=
      ⟨trivial, rfl⟩
    exact ⟨_, _, .cons hstopped (run_discard { s with running := false } .fork l), Ledger.delivered_restart _ _⟩
  apply hafter.followedBy
  apply Drives.step (a := .timerAfterFork) (fun _ => trivial)
  intro l
  exact ⟨l, rfl, rfl⟩

/-- A tick of the timer is one too, with the ticks it counts. -/
theorem drives_tick (s : State) (ticks : Nat) : Drives asked (tickCount ticks) s (s.tick ticks) := by
  apply Drives.step (a := .tick ticks) (fun _ => trivial)
  intro l
  exact ⟨_, rfl, rfl⟩

/-! ## The interrupt handler -/

/-- Ticks land wherever the thread is. -/
theorem run_ticks (ticks : List Nat) (s : State) (pc : Pc) (l : Ledger) :
    ∃ as l', Run (AskedSteps asked) ⟨s, pc, l⟩ as ⟨ticks.foldl State.tick s, pc, l'⟩ ∧
      l'.delivered = l.delivered + (ticks.map tickCount).sum := by
  induction ticks generalizing s l with
  | nil => exact ⟨[], l, .nil _, rfl⟩
  | cons n ticks ih =>
    obtain ⟨as, l', hrest, hdelivered⟩ := ih (s.tick n) { l with delivered := l.delivered + tickCount n }
    have htick : AskedSteps asked ⟨s, pc, l⟩ (.tick n)
        ⟨s.tick n, pc, { l with delivered := l.delivered + tickCount n }⟩ := ⟨trivial, rfl⟩
    refine ⟨.tick n :: as, l', .cons htick hrest, ?_⟩
    rw [List.map_cons, List.sum_cons, ← Nat.add_assoc]
    exact hdelivered

/-- Serving what an interrupt took is a step of the machine, or two when the deadline stops it. -/
theorem run_serve (hstored : s.ready = true → s.Stored) {stack : Stack} {pending deliveries : Nat}
    {now : Instant} (h : s.serve stack pending deliveries now = some s') :
    ∃ as l', Run (AskedSteps asked) ⟨s, .serving pending deliveries, l⟩ as ⟨s', .idle, l'⟩ ∧
      l'.delivered = l.delivered := by
  unfold State.serve at h
  cases hbooks : s.books pending with
  | false =>
    -- Nothing to book: what was taken is discarded.
    simp only [hbooks, Bool.false_eq_true, if_false] at h
    cases h
    have hstep : AskedSteps asked ⟨s, .serving pending deliveries, l⟩ (.serve stack now)
        ⟨s, .idle, l.discard pending⟩ := by
      refine ⟨trivial, ?_⟩
      simp only [MachineSteps, Machine.step, Machine.serve, hbooks, Bool.false_eq_true, if_false]
    exact ⟨_, _, .single hstep, rfl⟩
  | true =>
    simp only [hbooks, if_true] at h
    simp only [State.books, Bool.and_eq_true] at hbooks
    obtain ⟨⟨hpos, hrunning⟩, hready⟩ := hbooks
    obtain ⟨s₁, hbook, hcollected⟩ := (hstored hready).book stack pending deliveries
    rw [hbook] at h
    have hserve : ∀ m', Machine.serve ⟨s, .serving pending deliveries, l⟩ stack pending deliveries now =
        some m' → AskedSteps asked ⟨s, .serving pending deliveries, l⟩ (.serve stack now) m' :=
      fun _ h => ⟨trivial, h⟩
    unfold Machine.serve at hserve
    simp only [State.books, hpos, hrunning, hready, hbook, Bool.and_self, if_true] at hserve
    cases hdue : (s₁.checkDeadline now).1 with
    | false =>
      simp only [hdue, Bool.false_eq_true, if_false] at h hserve
      cases h
      exact ⟨_, _, .single (hserve _ rfl), rfl⟩
    | true =>
      -- The deadline has passed: the handler stops the profiler before it returns.
      simp only [hdue, if_true] at h hserve
      cases h
      have hrun₁ : s₁.running = true := hcollected.running_eq.trans hrunning
      have hstop : (s₁.checkDeadline now).2.stop =
          (s₁.checkDeadline now).2.halt.takeTicks.2.takeDeliveries.2 := by
        simp only [State.stop, State.checkDeadline, hrun₁, Bool.not_true, Bool.false_eq_true, if_false]
      rw [hstop]
      exact ⟨_, _, .cons (hserve _ rfl) (run_discard _ .cap _), rfl⟩

/-- `cbox_profiler_interrupt`, with the ticks that land between its two exchanges. -/
theorem drives_interrupt (hsound : s.Sound) {stack : Stack} {between : List Nat} {now : Instant}
    (h : s.interrupt stack between now = some s') : Drives asked (between.map tickCount).sum s s' := by
  intro l
  obtain ⟨as, l₁, hticks, hdelivered⟩ := run_ticks between s.takeTicks.2 (.interrupted s.takeTicks.1) l
  -- The interrupt is the two exchanges with the ticks between them, and then the serving.
  have hfront : AskedSteps asked ⟨s, .idle, l⟩ .interrupt ⟨s.takeTicks.2, .interrupted s.takeTicks.1, l⟩ :=
    ⟨trivial, rfl⟩
  have htake : ∀ (t : State) (pending : Nat), AskedSteps asked ⟨t, .interrupted pending, l₁⟩ .takeDeliveries
      ⟨t.takeDeliveries.2, .serving pending t.takeDeliveries.1, l₁⟩ := fun _ _ => ⟨trivial, rfl⟩
  have hready : (between.foldl State.tick s.takeTicks.2).ready = s.ready := by
    rw [State.foldl_tick_eq]
    rfl
  have hstored : ((between.foldl State.tick s.takeTicks.2).takeDeliveries.2).ready = true →
      ((between.foldl State.tick s.takeTicks.2).takeDeliveries.2).Stored := by
    intro hr
    have hs := hsound.stored (hready ▸ hr)
    have ht : s.takeTicks.2.Stored := hs.of_eq rfl rfl rfl rfl rfl
    exact (ht.ticks between).of_eq rfl rfl rfl rfl rfl
  obtain ⟨bs, l₂, hserve, hsame⟩ := run_serve (l := l₁) hstored h
  refine ⟨_, l₂, (Run.cons hfront (hticks.append (.single (htake _ _)))).append hserve, ?_⟩
  rw [hsame, hdelivered]

end functions

end CboxTelemetry.Profiler
