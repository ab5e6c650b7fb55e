import CboxTelemetry.Profiler.Collect
import CboxTelemetry.Lib.Run

/-!
# The profiler as a machine

The functions of the profiler run on one thread, and the timer's signal can land between any two of its
steps. A step here is what the thread does between two accesses to the signal handler's counters, or one
delivery of the signal. Ticks that land within a step change nothing but these counters, which the step
does not look at, so they are as good as landing before or after it.

`Ledger` is history that the program does not keep: the ticks delivered, booked and discarded, and the
samples that were stored since the last reset. What a step can do to the storage and to the ledger is
said once, in `Effect`; every invariant is derived from that.
-/

namespace CboxTelemetry.Profiler

/-! ## Machine and steps -/

/-- What follows the two exchanges that throw pending ticks away: a stop returns, the stop of an
interrupt that met the deadline marks the profile as capped, and the repair after a fork resets. -/
inductive After
  | stop
  | cap
  | fork
  deriving DecidableEq

/-- Where the thread is. The interrupt handler holds what it has taken in local variables. -/
inductive Pc
  | idle
  | interrupted (pending : Nat)
  | serving (pending deliveries : Nat)
  | discarding (after : After)
  | discarded (after : After)
  deriving DecidableEq

/-- The ticks that the thread has taken and not dealt with. -/
def Pc.held : Pc → Nat
  | .interrupted pending => pending
  | .serving pending _ => pending
  | _ => 0

/-- `bookedNow` and `samples` (paths and weights) are counted from the last reset. -/
structure Ledger where
  delivered : Nat
  booked : Nat
  discarded : Nat
  bookedNow : Nat
  samples : List (List Nat × Nat)

namespace Ledger

def empty : Ledger := ⟨0, 0, 0, 0, []⟩

/-- A reset of a profiler that is ready. -/
def restart (l : Ledger) (ready : Bool) : Ledger :=
  if ready then { l with bookedNow := 0, samples := [] } else l

/-- `weight` ticks are handed to `collect`, which stores them on `path` or drops them. -/
def book (l : Ledger) (path : Option (List Nat)) (weight : Nat) : Ledger := { l with
  booked := l.booked + weight
  bookedNow := l.bookedNow + weight
  samples := match path with
    | some path => l.samples ++ [(path, weight)]
    | none => l.samples }

def discard (l : Ledger) (ticks : Nat) : Ledger := { l with discarded := l.discarded + ticks }

end Ledger

/-- The ticks that one delivery stands for. -/
def tickCount (ticks : Nat) : Nat := if ticks = 0 then 1 else ticks

structure Machine where
  prof : State
  pc : Pc
  ledger : Ledger

inductive Action
  | tick (ticks : Nat)
  | start (periodNs maxDepth maxDurationNs : Nat) (now : Instant) (io : TimerIo)
  | stop
  | clearDeadline
  | reset
  | fork
  | afterFork
  | timerAfterFork
  | interrupt
  | takeDeliveries
  | serve (stack : Stack) (now : Instant)
  | discardTicks
  | discardDeliveries

namespace Machine

/-- Ticks that have been delivered and not dealt with. -/
def stillPending (m : Machine) : Nat := m.prof.pendingTicks + m.pc.held

/-- The rest of the interrupt handler, when it has taken `pending` ticks. -/
def serve (m : Machine) (stack : Stack) (pending deliveries : Nat) (now : Instant) : Option Machine :=
  if m.prof.books pending then
    match m.prof.book stack pending deliveries with
    | none => none
    | some s =>
      let ledger := m.ledger.book ((m.prof.account pending deliveries).bookedPath stack) pending
      if (s.checkDeadline now).1 then some ⟨(s.checkDeadline now).2.halt, .discarding .cap, ledger⟩
      else some ⟨(s.checkDeadline now).2, .idle, ledger⟩
  else some ⟨m.prof, .idle, m.ledger.discard pending⟩

/-- What the thread does after its second exchange. -/
def finish (s : State) (ledger : Ledger) : After → Machine
  | .stop => ⟨s, .idle, ledger⟩
  | .cap => ⟨{ s with capped := true }, .idle, ledger⟩
  | .fork => ⟨s.reset, .idle, ledger.restart s.ready⟩

/-- One step. A forked child goes on with its parent's memory and without its timer. -/
def step (m : Machine) (a : Action) : Option Machine :=
  match a, m.pc with
  | .tick ticks, _ =>
    some { m with
      prof := m.prof.tick ticks
      ledger := { m.ledger with delivered := m.ledger.delivered + tickCount ticks } }
  | .start periodNs maxDepth maxDurationNs now io, .idle =>
    some { m with
      prof := (m.prof.start periodNs maxDepth maxDurationNs now io).2
      ledger := m.ledger.restart (m.prof.ready && periodNs != 0) }
  | .stop, .idle =>
    if m.prof.running then some { m with prof := m.prof.halt, pc := .discarding .stop } else some m
  | .clearDeadline, .idle => some { m with prof := m.prof.clearDeadline }
  | .reset, .idle => some { m with prof := m.prof.reset, ledger := m.ledger.restart m.prof.ready }
  | .fork, .idle => some { m with prof := { m.prof with timer := m.prof.timer.fork } }
  | .afterFork, .idle =>
    some { m with prof := { m.prof with running := false }, pc := .discarding .fork }
  | .timerAfterFork, .idle => some { m with prof := { m.prof with timer := m.prof.timer.afterFork } }
  | .interrupt, .idle =>
    some { m with prof := m.prof.takeTicks.2, pc := .interrupted m.prof.takeTicks.1 }
  | .takeDeliveries, .interrupted pending =>
    some { m with prof := m.prof.takeDeliveries.2, pc := .serving pending m.prof.takeDeliveries.1 }
  | .serve stack now, .serving pending deliveries => m.serve stack pending deliveries now
  | .discardTicks, .discarding after =>
    some ⟨m.prof.takeTicks.2, .discarded after, m.ledger.discard m.prof.takeTicks.1⟩
  | .discardDeliveries, .discarded after => some (finish m.prof.takeDeliveries.2 m.ledger after)
  | _, _ => none

end Machine

/-- The step relation. -/
def MachineSteps (m : Machine) (a : Action) (m' : Machine) : Prop := m.step a = some m'

/-! ## What a step can do -/

/-- The storage and the totals are the same in both states. -/
structure State.Same (s s' : State) : Prop where
  arena : s'.arena = s.arena
  frames : s'.frames = s.frames
  tree : s'.tree = s.tree
  truncatedFrame : s'.truncatedFrame = s.truncatedFrame
  engineFrame : s'.engineFrame = s.engineFrame
  samples : s'.samples = s.samples
  dropped : s'.dropped = s.dropped
  ready : s'.ready = s.ready

theorem State.Same.refl (s : State) : State.Same s s := ⟨rfl, rfl, rfl, rfl, rfl, rfl, rfl, rfl⟩

/-- Two steps that change counters only are one. -/
theorem State.Same.trans {s s' s'' : State} (h : State.Same s s') (h' : State.Same s' s'') : State.Same s s'' where
  arena := h'.arena.trans h.arena
  frames := h'.frames.trans h.frames
  tree := h'.tree.trans h.tree
  truncatedFrame := h'.truncatedFrame.trans h.truncatedFrame
  engineFrame := h'.engineFrame.trans h.engineFrame
  samples := h'.samples.trans h.samples
  dropped := h'.dropped.trans h.dropped
  ready := h'.ready.trans h.ready

/-! The ticks, the deadline and the timer are no part of them. -/

theorem State.same_tick (s : State) (ticks : Nat) : State.Same s (s.tick ticks) := ⟨rfl, rfl, rfl, rfl, rfl, rfl, rfl, rfl⟩

theorem State.same_pending (s : State) (ticks deliveries : Nat) :
    State.Same s { s with pendingTicks := ticks, pendingDeliveries := deliveries } := ⟨rfl, rfl, rfl, rfl, rfl, rfl, rfl, rfl⟩

theorem State.same_taken (s : State) : State.Same s s.takeTicks.2.takeDeliveries.2 := s.same_pending 0 0

theorem State.same_clearDeadline (s : State) : State.Same s s.clearDeadline := ⟨rfl, rfl, rfl, rfl, rfl, rfl, rfl, rfl⟩

theorem State.same_timer (s : State) (timer : Timer) : State.Same s { s with timer := timer } := ⟨rfl, rfl, rfl, rfl, rfl, rfl, rfl, rfl⟩

theorem State.Same.stored {s s' : State} (h : State.Same s s') (hs : s.Stored) : s'.Stored :=
  hs.of_eq h.arena h.frames h.tree h.truncatedFrame h.engineFrame

/-- What a step does to the storage and to the ledger: a tick is delivered; or ticks are thrown away at
most; or the profile is reset; or a sample is collected. -/
inductive Effect (m m' : Machine) : Prop
  | ticked (ticks : Nat) : m' = { m with
      prof := m.prof.tick ticks
      ledger := { m.ledger with delivered := m.ledger.delivered + tickCount ticks } } → Effect m m'
  | quiet (discarded : Nat) : State.Same m.prof m'.prof → m'.ledger = m.ledger.discard discarded →
      m'.stillPending + discarded = m.stillPending → Effect m m'
  | restarted : m.prof.ready = true → State.Same m.prof.reset m'.prof →
      m'.ledger = m.ledger.restart true → m'.stillPending = m.stillPending → Effect m m'
  | collected (s s' : State) (stack : Stack) (weight : Nat) : State.Same m.prof s →
      s.Collected stack weight s' → State.Same s' m'.prof → 0 < weight → m.prof.ready = true →
      m'.ledger = m.ledger.book (s.bookedPath stack) weight →
      m'.stillPending + weight = m.stillPending → Effect m m'

section effect
variable {m m' : Machine}

/-- A step that only moves ticks is quiet. -/
theorem Effect.of_same {s : State} {pc : Pc} {l : Ledger} {s' : State} {pc' : Pc}
    (hsame : State.Same s s') (hpending : s'.pendingTicks + pc'.held = s.pendingTicks + pc.held) :
    Effect ⟨s, pc, l⟩ ⟨s', pc', l⟩ :=
  .quiet 0 hsame rfl hpending

/-- A reset, as far as the storage goes, with whatever else changes. -/
theorem effect_reset {s s' : State} {pc pc' : Pc} {l : Ledger} (hsame : State.Same s.reset s')
    (hpending : s'.pendingTicks + pc'.held = s.pendingTicks + pc.held) :
    Effect ⟨s, pc, l⟩ ⟨s', pc', l.restart s.ready⟩ := by
  cases hready : s.ready with
  | true => exact .restarted hready hsame rfl hpending
  | false =>
    have hreset : s.reset = s := by simp only [State.reset, hready, Bool.not_false, if_true]
    rw [hreset] at hsame
    exact .quiet 0 hsame rfl hpending

theorem pendingTicks_reset (s : State) : s.reset.pendingTicks = s.pendingTicks := by
  unfold State.reset
  split <;> rfl

theorem ready_reset (s : State) : s.reset.ready = s.ready := by
  unfold State.reset
  split <;> rfl

/-- A reset forgets the counters alike. -/
theorem same_reset {s s' : State} (h : State.Same s s') : State.Same s.reset s'.reset := by
  unfold State.reset
  rw [h.ready]
  split
  · exact h
  · exact ⟨by rw [h.arena], by rw [h.frames], by rw [h.tree], rfl, rfl, rfl, rfl, rfl⟩

/-- A start restarts the machine, or is refused and changes nothing. -/
theorem effect_start (s : State) (l : Ledger) (periodNs maxDepth maxDurationNs : Nat) (now : Instant)
    (io : TimerIo) : Effect ⟨s, .idle, l⟩
      ⟨(s.start periodNs maxDepth maxDurationNs now io).2, .idle,
        l.restart (s.ready && periodNs != 0)⟩ := by
  unfold State.start
  cases hready : s.ready with
  | false => exact .of_same (.refl s) rfl
  | true =>
    cases hperiod : periodNs == 0 with
    | true =>
      simp only [Bool.not_true, Bool.or_true, if_true, bne, hperiod, Bool.and_false]
      exact .of_same (.refl s) rfl
    -- The timer is armed or not, and what is stored is reset in both cases.
    | false =>
      have hsame : ∀ s' : State, State.Same s.reset s' → s'.pendingTicks = s.pendingTicks →
          Effect ⟨s, .idle, l⟩ ⟨s', .idle, l.restart true⟩ := by
        intro s' hsame hpending
        have hrestart : Effect ⟨s, .idle, l⟩ ⟨s', .idle, l.restart s.ready⟩ :=
          effect_reset hsame (by rw [hpending])
        rwa [hready] at hrestart
      simp only [Bool.not_true, Bool.false_or, Bool.false_eq_true, if_false, bne, hperiod,
        Bool.not_false, Bool.and_self]
      split
      · exact hsame _ ⟨rfl, rfl, rfl, rfl, rfl, rfl, rfl, rfl⟩ (pendingTicks_reset s)
      · exact hsame _ ⟨rfl, rfl, rfl, rfl, rfl, rfl, rfl, rfl⟩ (pendingTicks_reset s)

/-- Serving books what was taken, or discards it. -/
theorem effect_serve {s : State} {l : Ledger} (hstored : s.ready = true → s.Stored) {stack : Stack}
    {pending deliveries : Nat} {now : Instant} {m' : Machine}
    (h : Machine.serve ⟨s, .serving pending deliveries, l⟩ stack pending deliveries now = some m') :
    Effect ⟨s, .serving pending deliveries, l⟩ m' := by
  unfold Machine.serve at h
  split at h
  next hbooks =>
    simp only [State.books, Bool.and_eq_true, decide_eq_true_eq] at hbooks
    obtain ⟨⟨hpos, -⟩, hready⟩ := hbooks
    obtain ⟨s₁, hbook, hcollected⟩ := (hstored hready).book stack pending deliveries
    simp only [hbook] at h
    have haccount : State.Same s (s.account pending deliveries) :=
      ⟨rfl, rfl, rfl, rfl, rfl, rfl, rfl, rfl⟩
    have hpending : s₁.pendingTicks + pending = s.pendingTicks + pending :=
      congrArg (· + pending) hcollected.pendingTicks_eq
    split at h
    · cases h
      exact .collected _ _ stack pending haccount hcollected ⟨rfl, rfl, rfl, rfl, rfl, rfl, rfl, rfl⟩
        hpos hready rfl hpending
    · cases h
      exact .collected _ _ stack pending haccount hcollected ⟨rfl, rfl, rfl, rfl, rfl, rfl, rfl, rfl⟩
        hpos hready rfl hpending
  · cases h
    exact .quiet pending (.refl s) rfl rfl

/-- **A step has one of the four effects.** -/
theorem step_effect {a : Action} (hstored : m.prof.ready = true → m.prof.Stored)
    (h : MachineSteps m a m') : Effect m m' := by
  obtain ⟨s, pc, l⟩ := m
  unfold MachineSteps Machine.step at h
  split at h
  next ticks => cases h; exact .ticked ticks rfl
  next periodNs maxDepth maxDurationNs now io hpc =>
    cases hpc; cases h
    exact effect_start s l periodNs maxDepth maxDurationNs now io
  next hpc =>
    cases hpc
    split at h
    · cases h; exact .of_same ⟨rfl, rfl, rfl, rfl, rfl, rfl, rfl, rfl⟩ rfl
    · cases h; exact .of_same (.refl s) rfl
  next hpc => cases hpc; cases h; exact .of_same ⟨rfl, rfl, rfl, rfl, rfl, rfl, rfl, rfl⟩ rfl
  next hpc => cases hpc; cases h; exact effect_reset (.refl _) (by rw [pendingTicks_reset])
  next hpc => cases hpc; cases h; exact .of_same ⟨rfl, rfl, rfl, rfl, rfl, rfl, rfl, rfl⟩ rfl
  next hpc => cases hpc; cases h; exact .of_same ⟨rfl, rfl, rfl, rfl, rfl, rfl, rfl, rfl⟩ rfl
  next hpc => cases hpc; cases h; exact .of_same ⟨rfl, rfl, rfl, rfl, rfl, rfl, rfl, rfl⟩ rfl
  next hpc =>
    cases hpc; cases h
    exact .of_same ⟨rfl, rfl, rfl, rfl, rfl, rfl, rfl, rfl⟩ (Nat.add_comm _ _)
  next pending hpc => cases hpc; cases h; exact .of_same ⟨rfl, rfl, rfl, rfl, rfl, rfl, rfl, rfl⟩ rfl
  next stack now pending deliveries hpc => cases hpc; exact effect_serve hstored h
  next after hpc =>
    cases hpc; cases h
    exact .quiet _ ⟨rfl, rfl, rfl, rfl, rfl, rfl, rfl, rfl⟩ rfl (Nat.add_comm _ _)
  next after hpc =>
    cases hpc; cases h
    cases after with
    | stop => exact .of_same ⟨rfl, rfl, rfl, rfl, rfl, rfl, rfl, rfl⟩ rfl
    | cap => exact .of_same ⟨rfl, rfl, rfl, rfl, rfl, rfl, rfl, rfl⟩ rfl
    -- The fork's discard ends in a reset.
    | fork =>
      have hsame : State.Same s s.takeDeliveries.2 := ⟨rfl, rfl, rfl, rfl, rfl, rfl, rfl, rfl⟩
      have hpending : s.takeDeliveries.2.reset.pendingTicks = s.pendingTicks := pendingTicks_reset _
      exact effect_reset (same_reset hsame) (congrArg (· + 0) hpending)
  · cases h

end effect

end CboxTelemetry.Profiler
