import CboxTelemetry.Profiler.Functions

/-!
# The duration valve

A profile with a deadline stops itself. The clock is read at an interrupt only when 512 interrupts or
512 ticks have been booked since it was read last, so the profiler can run on for a while after the
deadline. `Valve` says for how long at most, and what it leaves when it stops.
-/

namespace CboxTelemetry.Profiler

/-! ## A profile and a clock -/

/-- What somebody with a clock sees of a profile: what the clock showed at the last interrupt, the ticks
of each interrupt that was booked after the deadline and left the profiler running, and the state that
the last booking left. -/
structure Watch where
  clock : Nat
  overtime : List Nat
  booked : State

/-- The watch after a step from `m` to `m'`. -/
def Watch.step (w : Watch) (m : Machine) (a : Action) (m' : Machine) : Watch :=
  match a, m.pc with
  | .serve stack now, .serving pending deliveries =>
    if m.prof.books pending then
      { clock := now.ns
        overtime :=
          if m.prof.deadlineNs < now.ns ∧ m'.prof.running = true then w.overtime ++ [pending]
          else w.overtime
        booked := (m.prof.book stack pending deliveries).getD m.prof }
    else { w with clock := now.ns }
  | _, _ => w

/-- The machine and the watch next to it. -/
def WatchedSteps (x : Machine × Watch) (a : Action) (x' : Machine × Watch) : Prop :=
  MachineSteps x.1 a x'.1 ∧ x'.2 = x.2.step x.1 a x'.1

/-- Ticks and interrupts, while nobody starts, stops or resets the profiler or clears its deadline, with
a clock that does not go back. -/
def Undisturbed (x : Machine × Watch) : Action → Prop
  | .tick _ => True
  | .interrupt => True
  | .takeDeliveries => True
  | .serve _ now => x.2.clock ≤ now.ns
  | .discardTicks => True
  | .discardDeliveries => True
  | _ => False

/-- The valve of a profile with this deadline. -/
structure Valve (deadline : Nat) (m : Machine) (w : Watch) : Prop where
  deadlineNs_eq : m.prof.deadlineNs = deadline
  /-- It is never capped before the deadline has passed. -/
  capped_late : m.prof.capped = true → deadline < w.clock
  /-- Past the deadline, it runs on for a few interrupts with a few ticks. -/
  overtime_length : w.overtime.length ≤ 511
  overtime_sum : w.overtime.sum < 512
  running : m.prof.running = true → m.prof.capped = false ∧ m.prof.timer.kernel = .ticking
  /-- It stops without its timer, and it is marked as capped before the interrupt handler returns. -/
  stopped : m.prof.running = false → m.prof.timer.isArmed = false ∧ m.prof.timer.kernel = .disarmed ∧
    (m.prof.capped = true ∨ m.pc = .discarding .cap ∨ m.pc = .discarded .cap)
  /-- The profile is what the last booking left. -/
  kept : State.Same w.booked m.prof

/-! ## Checkpoints -/

/-- The `uint64_t` counter has grown by `n` since the checkpoint. -/
structure Since (count checkpoint n : Nat) : Prop where
  count_eq : count = u64 (checkpoint + n)
  checkpoint_lt : checkpoint < 2 ^ 64

section since
variable {count checkpoint n : Nat}

theorem Since.zero (h : count < 2 ^ 64) : Since count count 0 :=
  ⟨(u64_of_lt h).symm, h⟩

/-- Adding to the count adds to what came since the checkpoint. -/
theorem Since.add (h : Since count checkpoint n) (k : Nat) : Since (u64 (count + k)) checkpoint (n + k) := by
  obtain ⟨rfl, hlt⟩ := h
  refine ⟨?_, hlt⟩
  unfold u64
  omega

/-- The difference that the interrupt handler takes. -/
theorem Since.sub_eq (h : Since count checkpoint n) (hn : n < 2 ^ 64) :
    State.sub64 count checkpoint = n := by
  obtain ⟨rfl, hlt⟩ := h
  unfold State.sub64 u64
  omega

theorem Since.count_lt (h : Since count checkpoint n) : count < 2 ^ 64 := by
  rw [h.count_eq]
  exact Nat.mod_lt _ (by decide)

end since

/-! ## The invariant -/

/-- The profile runs: fewer than 512 interrupts and fewer than 512 ticks have been booked since the clock
was read, and among them all those after the deadline. -/
structure Ticking (m : Machine) (w : Watch) : Prop where
  ready : m.prof.ready = true
  running : m.prof.running = true
  capped : m.prof.capped = false
  created : m.prof.timer.created = true
  kernel : m.prof.timer.kernel = .ticking
  pc : ∀ after, m.pc ≠ .discarding after ∧ m.pc ≠ .discarded after
  late : w.overtime ≠ [] → m.prof.deadlineNs < w.clock
  interrupts : ∃ n, Since m.prof.interrupts m.prof.deadlineCheckedAt n ∧ w.overtime.length ≤ n ∧ n < 512
  ticks : ∃ n, Since m.prof.ticks m.prof.deadlineTicksAt n ∧ w.overtime.sum ≤ n ∧ n < 512

/-- The valve has stopped the profile. -/
structure Shut (m : Machine) (w : Watch) : Prop where
  running : m.prof.running = false
  isArmed : m.prof.timer.isArmed = false
  kernel : m.prof.timer.kernel = .disarmed
  late : m.prof.deadlineNs < w.clock
  capped : m.prof.capped = true ∨ m.pc = .discarding .cap ∨ m.pc = .discarded .cap
  pc : ∀ after, (m.pc = .discarding after ∨ m.pc = .discarded after) → after = .cap
  length_lt : w.overtime.length < 512
  sum_lt : w.overtime.sum < 512

/-- The invariant. -/
structure Watched (deadline : Nat) (m : Machine) (w : Watch) : Prop where
  sound : m.prof.Sound
  deadline_ne : deadline ≠ 0
  deadlineNs_eq : m.prof.deadlineNs = deadline
  pending_lt : m.prof.pendingTicks < 2 ^ 32
  held_lt : m.pc.held < 2 ^ 32
  kept : State.Same w.booked m.prof
  phase : Ticking m w ∨ Shut m w

section invariant
variable {deadline : Nat} {m m' : Machine} {w : Watch}

/-- What the watch keeps is what the valve says. -/
theorem Watched.valve (h : Watched deadline m w) : Valve deadline m w := by
  rcases h.phase with hticking | hshut
  · obtain ⟨n, -, hlength, hn⟩ := hticking.interrupts
    obtain ⟨k, -, hsum, hk⟩ := hticking.ticks
    refine ⟨h.deadlineNs_eq, ?_, by omega, by omega, fun _ => ⟨hticking.capped, hticking.kernel⟩, ?_, h.kept⟩
    · intro hcapped
      rw [hticking.capped] at hcapped
      cases hcapped
    · intro hstopped
      rw [hticking.running] at hstopped
      cases hstopped
  · have hlength := hshut.length_lt
    refine ⟨h.deadlineNs_eq, ?_, by omega, hshut.sum_lt, ?_, ?_, h.kept⟩
    · intro _
      rw [← h.deadlineNs_eq]
      exact hshut.late
    · intro hrunning
      rw [hshut.running] at hrunning
      cases hrunning
    · exact fun _ => ⟨hshut.isArmed, hshut.kernel, hshut.capped⟩

end invariant

/-! ## Steps -/

/-- An idle profiler discards nothing. -/
theorem idle_ne (after : After) : Pc.idle ≠ .discarding after ∧ Pc.idle ≠ .discarded after := by
  constructor
  · intro hpc
    cases hpc
  · intro hpc
    cases hpc

/-- Nor does one that serves. -/
theorem serving_ne (pending deliveries : Nat) (after : After) :
    Pc.serving pending deliveries ≠ .discarding after ∧ Pc.serving pending deliveries ≠ .discarded after := by
  constructor
  · intro hpc
    cases hpc
  · intro hpc
    cases hpc

section step
variable {deadline : Nat} {s : State} {pc : Pc} {l : Ledger} {w : Watch} {m m' : Machine}

/-- What comes and goes in the signal handler's counters is nothing to a profile that runs. -/
theorem Ticking.quiet (h : Ticking ⟨s, pc, l⟩ w) (ticks deliveries : Nat) (l' : Ledger) {pc' : Pc}
    (hpc : ∀ after, pc' ≠ .discarding after ∧ pc' ≠ .discarded after) :
    Ticking ⟨{ s with pendingTicks := ticks, pendingDeliveries := deliveries }, pc', l'⟩ w :=
  ⟨h.ready, h.running, h.capped, h.created, h.kernel, hpc, h.late, h.interrupts, h.ticks⟩

/-- Ticks and deliveries that change leave a profiler that is shut so. -/
theorem Shut.quiet (h : Shut ⟨s, pc, l⟩ w) (ticks deliveries : Nat) (l' : Ledger) {pc' : Pc}
    (hcapped : s.capped = true ∨ pc' = .discarding .cap ∨ pc' = .discarded .cap)
    (hpc : ∀ after, (pc' = .discarding after ∨ pc' = .discarded after) → after = .cap) :
    Shut ⟨{ s with pendingTicks := ticks, pendingDeliveries := deliveries }, pc', l'⟩ w :=
  ⟨h.running, h.isArmed, h.kernel, h.late, hcapped, hpc, h.length_lt, h.sum_lt⟩

/-- Outside the exchanges of a stop, what the valve has stopped is capped. -/
theorem Shut.capped_of_pc (h : Shut ⟨s, pc, l⟩ w) (hpc : pc ≠ .discarding .cap ∧ pc ≠ .discarded .cap) :
    s.capped = true := by
  rcases h.capped with hcapped | hdiscarding | hdiscarded
  · exact hcapped
  · exact absurd hdiscarding hpc.1
  · exact absurd hdiscarded hpc.2

/-- A later look at the clock. -/
theorem Ticking.later (h : Ticking m w) {now : Nat} (hnow : w.clock ≤ now) :
    Ticking m { w with clock := now } :=
  ⟨h.ready, h.running, h.capped, h.created, h.kernel, h.pc, fun hne => (h.late hne).trans_le hnow,
    h.interrupts, h.ticks⟩

theorem Shut.later (h : Shut m w) {now : Nat} (hnow : w.clock ≤ now) : Shut m { w with clock := now } :=
  ⟨h.running, h.isArmed, h.kernel, h.late.trans_le hnow, h.capped, h.pc, h.length_lt, h.sum_lt⟩

/-- A step that touches only the signal handler's counters. -/
theorem Watched.quiet (h : Watched deadline ⟨s, pc, l⟩ w) {ticks deliveries : Nat} (hticks : ticks < 2 ^ 32)
    (pc' : Pc) (hheld : pc'.held < 2 ^ 32) (l' : Ledger)
    (hticking : Ticking ⟨s, pc, l⟩ w → ∀ after, pc' ≠ .discarding after ∧ pc' ≠ .discarded after)
    (hshut : Shut ⟨s, pc, l⟩ w → (s.capped = true ∨ pc' = .discarding .cap ∨ pc' = .discarded .cap) ∧
      ∀ after, (pc' = .discarding after ∨ pc' = .discarded after) → after = .cap) :
    Watched deadline ⟨{ s with pendingTicks := ticks, pendingDeliveries := deliveries }, pc', l'⟩ w := by
  have hsame := s.same_pending ticks deliveries
  refine ⟨h.sound.same hsame, h.deadline_ne, h.deadlineNs_eq, hticks, hheld, ?_, ?_⟩
  · exact ⟨h.kept.arena, h.kept.frames, h.kept.tree, h.kept.truncatedFrame, h.kept.engineFrame,
      h.kept.samples, h.kept.dropped, h.kept.ready⟩
  · rcases h.phase with hphase | hphase
    · exact .inl (hphase.quiet ticks deliveries l' (hticking hphase))
    · exact .inr (hphase.quiet ticks deliveries l' (hshut hphase).1 (hshut hphase).2)

/-- When the clock is read. -/
theorem deadlineDue_iff (hdeadline : s.deadlineNs ≠ 0) {interrupts ticks : Nat}
    (hinterrupts : Since s.interrupts s.deadlineCheckedAt interrupts) (hi : interrupts < 2 ^ 64)
    (hticks : Since s.ticks s.deadlineTicksAt ticks) (ht : ticks < 2 ^ 64) :
    s.deadlineDue = true ↔ 512 ≤ interrupts ∨ 512 ≤ ticks := by
  rw [State.deadlineDue, hinterrupts.sub_eq hi, hticks.sub_eq ht]
  simp [hdeadline]

/-- The look at the deadline, after a booking that left `s`. -/
structure Due (s : State) (w : Watch) (pending : Nat) : Prop where
  interrupts : ∃ n, Since s.interrupts s.deadlineCheckedAt n ∧ w.overtime.length + 1 ≤ n ∧ n < 2 ^ 64
  ticks : ∃ n, Since s.ticks s.deadlineTicksAt n ∧ w.overtime.sum + pending ≤ n ∧ n < 2 ^ 64

/-- Past the deadline, a check that is not due came within the two strides of the last. -/
theorem Due.due_of_late (h : Due s w pending) (hdeadline : s.deadlineNs ≠ 0) (hdue : s.deadlineDue = false) :
    (∃ n, Since s.interrupts s.deadlineCheckedAt n ∧ w.overtime.length + 1 ≤ n ∧ n < 512) ∧
      ∃ n, Since s.ticks s.deadlineTicksAt n ∧ w.overtime.sum + pending ≤ n ∧ n < 512 := by
  obtain ⟨⟨n, hi, hlength, hn⟩, k, ht, hsum, hk⟩ := h
  have hnot : ¬(512 ≤ n ∨ 512 ≤ k) := by
    rw [← deadlineDue_iff hdeadline hi hn ht hk, hdue]
    exact Bool.false_ne_true
  exact ⟨⟨n, hi, hlength, by omega⟩, k, ht, hsum, by omega⟩

/-- Booking brings the interrupt and its ticks to what has been booked since the clock was read. -/
theorem Ticking.book (h : Ticking ⟨s, pc, l⟩ w) {stack : Stack} {pending deliveries : Nat} {s₁ : State}
    (hpending : pending < 2 ^ 32) (hcollected : (s.account pending deliveries).Collected stack pending s₁) :
    Due s₁ w pending := by
  obtain ⟨n, hi, hlength, hn⟩ := h.interrupts
  obtain ⟨k, ht, hsum, hk⟩ := h.ticks
  have heq := hcollected.eq
  constructor
  · refine ⟨n + 1, ?_, by omega, by omega⟩
    rw [heq]
    exact hi.add 1
  · refine ⟨k + pending, ?_, by omega, by omega⟩
    rw [heq]
    exact ht.add pending

/-- **An interrupt of a profile that runs**: it runs on, or the deadline has passed and it is stopped. -/
theorem Watched.serve_booked {pending deliveries : Nat}
    (h : Watched deadline ⟨s, .serving pending deliveries, l⟩ w)
    (hphase : Ticking ⟨s, .serving pending deliveries, l⟩ w) {stack : Stack} {now : Instant}
    (hnow : w.clock ≤ now.ns) (hbooks : s.books pending = true)
    (hserve : Machine.serve ⟨s, .serving pending deliveries, l⟩ stack pending deliveries now = some m') :
    Watched deadline m' (w.step ⟨s, .serving pending deliveries, l⟩ (.serve stack now) m') := by
  have hready : s.ready = true := hphase.ready
  have hstored : s.Stored := h.sound.stored hready
  obtain ⟨s₁, hbook, hcollected⟩ := hstored.book stack pending deliveries
  have heq := hcollected.eq
  have hdeadline : s₁.deadlineNs = deadline := by
    rw [heq]
    exact h.deadlineNs_eq
  have hne : s₁.deadlineNs ≠ 0 := by
    rw [hdeadline]
    exact h.deadline_ne
  have hsound : s₁.Sound := by
    refine ⟨fun _ => hcollected.stored, fun hno => ?_⟩
    rw [hcollected.ready_eq] at hno
    exact absurd (hready.symm.trans hno) (by decide)
  have hdue : Due s₁ w pending := hphase.book h.held_lt hcollected
  have htimer : s₁.timer = s.timer := by rw [heq]; rfl
  have hrunning : s₁.running = true := hcollected.running_eq.trans hphase.running
  have hpending : s₁.pendingTicks < 2 ^ 32 := hcollected.pendingTicks_eq.trans_lt h.pending_lt
  have hwatch : w.step ⟨s, .serving pending deliveries, l⟩ (.serve stack now) m' = ⟨now.ns,
      if deadline < now.ns ∧ m'.prof.running = true then w.overtime ++ [pending] else w.overtime, s₁⟩ := by
    rw [← h.deadlineNs_eq]
    simp only [Watch.step, hbooks, hbook, if_true, Option.getD_some]
  rw [hwatch]
  unfold Machine.serve at hserve
  simp only [hbooks, hbook, if_true] at hserve
  cases hlook : (s₁.checkDeadline now).1 with
  -- The check finds the deadline passed: the profiler halts, and the cap discards what came meanwhile.
  | true =>
    obtain ⟨-, hpassed⟩ : s₁.deadlineDue = true ∧ s₁.deadlineNs < now.ns := by
      simpa [State.checkDeadline] using hlook
    simp only [hlook, if_true, Option.some.injEq] at hserve
    subst hserve
    obtain ⟨n, -, hlength, hn⟩ := hphase.interrupts
    obtain ⟨k, -, hsum, hk⟩ := hphase.ticks
    have hstopped : (s₁.checkDeadline now).2.halt.running = false := rfl
    simp only [hstopped, Bool.false_eq_true, and_false, if_false]
    have hsame : State.Same s₁ (s₁.checkDeadline now).2.halt := ⟨rfl, rfl, rfl, rfl, rfl, rfl, rfl, rfl⟩
    refine ⟨hsound.same hsame, h.deadline_ne, hdeadline, hpending, Nat.two_pow_pos 32, hsame, .inr ?_⟩
    refine ⟨rfl, Timer.disarm_isArmed _, ?_, hpassed, .inr (.inl rfl), ?_, hlength.trans_lt hn, hsum.trans_lt hk⟩
    · show s₁.timer.disarm.kernel = .disarmed
      have hcreated : s.timer.created = true := hphase.created
      have hkernel : s.timer.kernel = .ticking := hphase.kernel
      simp [htimer, Timer.disarm, hcreated, hkernel]
    · rintro after (hpc | hpc)
      · cases hpc
        rfl
      · cases hpc
  | false =>
    simp only [hlook, Bool.false_eq_true, if_false, Option.some.injEq] at hserve
    subst hserve
    have hsame : State.Same s₁ (s₁.checkDeadline now).2 := ⟨rfl, rfl, rfl, rfl, rfl, rfl, rfl, rfl⟩
    refine ⟨hsound.same hsame, h.deadline_ne, hdeadline, hpending, Nat.two_pow_pos 32, hsame, .inl ?_⟩
    have hcapped : s₁.capped = false := by
      rw [heq]
      exact hphase.capped
    have hcreated : s₁.timer.created = true := by rw [htimer]; exact hphase.created
    have hkernel : s₁.timer.kernel = .ticking := by rw [htimer]; exact hphase.kernel
    cases hread : s₁.deadlineDue with
    | true =>
      -- The clock has been read, and it showed a time before the deadline.
      have hearly : ¬deadline < now.ns := by
        rw [← hdeadline]
        simpa [State.checkDeadline, hread] using hlook
      have hnone : w.overtime = [] := by
        by_contra hsome
        have hlate : s.deadlineNs < w.clock := hphase.late hsome
        rw [show s.deadlineNs = deadline from h.deadlineNs_eq] at hlate
        omega
      obtain ⟨⟨n, hi, -⟩, k, ht, -⟩ := hdue
      rw [if_neg (fun hboth => hearly hboth.1)]
      refine ⟨hcollected.ready_eq.trans hready, hrunning, hcapped, hcreated, hkernel, fun after => idle_ne after, ?_, ?_, ?_⟩
      · exact fun hsome => absurd hnone hsome
      · refine ⟨0, ?_, by simp [hnone], by decide⟩
        simpa [State.checkDeadline, hread] using Since.zero hi.count_lt
      · refine ⟨0, ?_, by simp [hnone], by decide⟩
        simpa [State.checkDeadline, hread] using Since.zero ht.count_lt
    | false =>
      -- The check is not due, so the strides bound what has come since the last one.
      obtain ⟨⟨n, hi, hlength, hn⟩, k, ht, hsum, hk⟩ := hdue.due_of_late hne hread
      refine ⟨hcollected.ready_eq.trans hready, hrunning, hcapped, hcreated, hkernel, fun after => idle_ne after, ?_, ?_, ?_⟩
      · intro hsome
        show s₁.deadlineNs < now.ns
        rw [hdeadline]
        by_contra hearly
        have hold : w.overtime ≠ [] := by simpa [hearly] using hsome
        have hlate : s.deadlineNs < w.clock := hphase.late hold
        rw [show s.deadlineNs = deadline from h.deadlineNs_eq] at hlate
        omega
      · refine ⟨n, ?_, ?_, hn⟩
        · simpa [State.checkDeadline, hread] using hi
        · simp only
          split
          · simpa using hlength
          · omega
      · refine ⟨k, ?_, ?_, hk⟩
        · simpa [State.checkDeadline, hread] using ht
        · simp only
          split
          · simpa using hsum
          · omega

/-- An interrupt that has nothing to book. -/
theorem Watched.serve_unbooked {pending deliveries : Nat}
    (h : Watched deadline ⟨s, .serving pending deliveries, l⟩ w) {stack : Stack} {now : Instant}
    (hnow : w.clock ≤ now.ns) (hbooks : s.books pending = false)
    (hserve : Machine.serve ⟨s, .serving pending deliveries, l⟩ stack pending deliveries now = some m') :
    Watched deadline m' (w.step ⟨s, .serving pending deliveries, l⟩ (.serve stack now) m') := by
  have hwatch : w.step ⟨s, .serving pending deliveries, l⟩ (.serve stack now) m' =
      { w with clock := now.ns } := by
    simp [Watch.step, hbooks]
  rw [hwatch]
  simp only [Machine.serve, hbooks, Bool.false_eq_true, if_false, Option.some.injEq] at hserve
  subst hserve
  refine ⟨h.sound, h.deadline_ne, h.deadlineNs_eq, h.pending_lt, Nat.two_pow_pos 32, h.kept, ?_⟩
  rcases h.phase with hphase | hphase
  · have hlater := hphase.later hnow
    exact .inl ⟨hlater.ready, hlater.running, hlater.capped, hlater.created, hlater.kernel,
      fun after => idle_ne after, hlater.late, hlater.interrupts, hlater.ticks⟩
  · have hlater := hphase.later hnow
    have hcapped := hphase.capped_of_pc (serving_ne pending deliveries .cap)
    exact .inr ⟨hlater.running, hlater.isArmed, hlater.kernel, hlater.late, .inl hcapped,
      fun after hpc => absurd hpc (not_or.mpr (idle_ne after)), hlater.length_lt, hlater.sum_lt⟩

/-- The end of the stop. -/
theorem Watched.discardDeliveries {after : After} (h : Watched deadline ⟨s, .discarded after, l⟩ w) :
    Watched deadline (Machine.finish s.takeDeliveries.2 l after) w := by
  rcases h.phase with hphase | hphase
  · exact absurd rfl (hphase.pc after).2
  · cases hphase.pc after (.inr rfl)
    have hsame : State.Same s { s.takeDeliveries.2 with capped := true } :=
      ⟨rfl, rfl, rfl, rfl, rfl, rfl, rfl, rfl⟩
    refine ⟨h.sound.same hsame, h.deadline_ne, h.deadlineNs_eq, h.pending_lt, Nat.two_pow_pos 32, ?_, .inr ?_⟩
    · exact ⟨h.kept.arena, h.kept.frames, h.kept.tree, h.kept.truncatedFrame, h.kept.engineFrame,
        h.kept.samples, h.kept.dropped, h.kept.ready⟩
    · exact ⟨hphase.running, hphase.isArmed, hphase.kernel, hphase.late, .inl rfl, fun _ => nofun,
        hphase.length_lt, hphase.sum_lt⟩

/-- **One step of an undisturbed profile.** -/
theorem Watched.step {a : Action} (h : Watched deadline m w) (hok : Undisturbed (m, w) a)
    (hstep : MachineSteps m a m') : Watched deadline m' (w.step m a m') := by
  obtain ⟨s, pc, l⟩ := m
  unfold MachineSteps Machine.step at hstep
  -- Nothing disturbs the run, so no start, stop or reset is among its steps.
  split at hstep
  next ticks =>
    cases hstep
    exact h.quiet (u32_lt _) pc h.held_lt _ (fun hphase => hphase.pc) fun hphase => ⟨hphase.capped, hphase.pc⟩
  next => exact hok.elim
  next => exact hok.elim
  next => exact hok.elim
  next => exact hok.elim
  next => exact hok.elim
  next => exact hok.elim
  next => exact hok.elim
  next hpc =>
    cases hpc; cases hstep
    exact h.quiet (Nat.two_pow_pos 32) (.interrupted s.pendingTicks) h.pending_lt _ (fun _ _ => ⟨nofun, nofun⟩)
      fun hphase => ⟨.inl (hphase.capped_of_pc ⟨nofun, nofun⟩), fun _ => nofun⟩
  next pending hpc =>
    cases hpc; cases hstep
    exact h.quiet h.pending_lt (.serving pending s.pendingDeliveries) h.held_lt _ (fun _ after => serving_ne _ _ after)
      fun hphase => ⟨.inl (hphase.capped_of_pc ⟨nofun, nofun⟩), fun after hpc => absurd hpc (not_or.mpr (serving_ne _ _ after))⟩
  next stack now pending deliveries hpc =>
    cases hpc
    cases hbooks : s.books pending with
    | false => exact h.serve_unbooked hok hbooks hstep
    | true =>
      rcases h.phase with hphase | hphase
      · exact h.serve_booked hphase hok hbooks hstep
      · -- A profiler that is stopped books nothing.
        have hrunning : s.running = false := hphase.running
        simp [State.books, hrunning] at hbooks
  next after hpc =>
    cases hpc; cases hstep
    refine h.quiet (Nat.two_pow_pos 32) (.discarded after) (Nat.two_pow_pos 32) _ ?_ ?_
    · exact fun hphase => absurd rfl (hphase.pc after).1
    · intro hphase
      cases hphase.pc after (.inl rfl)
      refine ⟨.inr (.inr rfl), ?_⟩
      rintro after (hpc | hpc)
      · cases hpc
      · cases hpc
        rfl
  next after hpc =>
    cases hpc; cases hstep
    exact h.discardDeliveries
  · cases hstep

end step

/-! ## Runs -/

/-- A profile that has just been started. -/
theorem watched_start {s s' : State} (hsound : s.Sound) (hpending : s.pendingTicks < 2 ^ 32)
    {periodNs maxDepth maxDurationNs : Nat} {now : Instant} {io : TimerIo}
    (hstart : s.start periodNs maxDepth maxDurationNs now io = (true, s')) (hdeadline : s'.deadlineNs ≠ 0)
    (l : Ledger) : Watched s'.deadlineNs ⟨s', .idle, l⟩ ⟨now.ns, [], s'⟩ := by
  have hstarted := hsound.start periodNs maxDepth maxDurationNs now io
  rw [hstart] at hstarted
  unfold State.start at hstart
  split at hstart
  · cases hstart
  next hready =>
    simp only at hstart
    have hready : s.ready = true := by
      simp only [Bool.or_eq_true, Bool.not_eq_true', not_or, Bool.not_eq_false] at hready
      exact hready.1
    rw [State.reset_ready hready] at hstart
    -- A start that arms has just set the checkpoints, and the deadline ahead.
    obtain ⟨t, harm, -, hkernel, hcreated, -⟩ | ⟨t, harm, -⟩ := Timer.arm_cases io periodNs s.timer
    · simp only [harm] at hstart
      cases hstart
      refine ⟨hstarted, hdeadline, rfl, hpending, Nat.two_pow_pos 32, .refl _, .inl ?_⟩
      refine ⟨hready, rfl, rfl, hcreated, hkernel, fun after => idle_ne after, fun hsome => absurd rfl hsome, ?_, ?_⟩
      · exact ⟨0, .zero (Nat.two_pow_pos 64), Nat.le_refl _, by decide⟩
      · exact ⟨0, .zero (Nat.two_pow_pos 64), Nat.le_refl _, by decide⟩
    · simp only [harm] at hstart
      cases hstart

/-- The tick counter is a `uint32_t`. -/
theorem pendingTicks_lt_step {m m' : Machine} {a : Action} (hstored : m.prof.ready = true → m.prof.Stored)
    (h : m.prof.pendingTicks < 2 ^ 32) (hstep : MachineSteps m a m') : m'.prof.pendingTicks < 2 ^ 32 := by
  obtain ⟨s, pc, l⟩ := m
  unfold MachineSteps Machine.step at hstep
  split at hstep
  next => cases hstep; exact u32_lt _
  next =>
    cases hstep
    unfold State.start
    split
    · exact h
    · simp only
      split
      · exact (pendingTicks_reset s).trans_lt h
      · exact (pendingTicks_reset s).trans_lt h
  next => split at hstep <;> cases hstep <;> exact h
  next => cases hstep; exact h
  next => cases hstep; exact (pendingTicks_reset s).trans_lt h
  next => cases hstep; exact h
  next => cases hstep; exact h
  next => cases hstep; exact h
  next => cases hstep; exact Nat.two_pow_pos 32
  next => cases hstep; exact h
  next stack now pending deliveries hpc =>
    cases hpc
    unfold Machine.serve at hstep
    split at hstep
    next hbooks =>
      simp only [State.books, Bool.and_eq_true] at hbooks
      obtain ⟨s₁, hbook, hcollected⟩ := (hstored hbooks.2).book stack pending deliveries
      have hsame : s₁.pendingTicks < 2 ^ 32 := hcollected.pendingTicks_eq.trans_lt h
      simp only [hbook] at hstep
      split at hstep <;> cases hstep <;> exact hsame
    · cases hstep; exact h
  next => cases hstep; exact Nat.two_pow_pos 32
  next after _ =>
    cases hstep
    cases after with
    | stop => exact h
    | cap => exact h
    | fork => exact (pendingTicks_reset s.takeDeliveries.2).trans_lt h
  · cases hstep

/-- The pending ticks fit into their counter after every run. -/
theorem pendingTicks_lt_of_run {c : Setup} {as : List Action} {m : Machine}
    (hrun : Run MachineSteps c.machine as m) : m.prof.pendingTicks < 2 ^ 32 := by
  have hstep : ∀ m a m', (State.Sound (Machine.prof m) ∧ m.prof.pendingTicks < 2 ^ 32) →
      MachineSteps m a m' → m'.prof.Sound ∧ m'.prof.pendingTicks < 2 ^ 32 := by
    rintro m a m' ⟨hsound, hlt⟩ hstep
    exact ⟨hsound.step (step_effect hsound.stored hstep), pendingTicks_lt_step hsound.stored hlt hstep⟩
  have hzero : c.machine.prof.pendingTicks < 2 ^ 32 := by
    rw [show c.machine.prof.pendingTicks = 0 from c.fresh.pendingTicks]
    decide
  exact (Run.invariant hstep ⟨c.fresh.sound, hzero⟩ hrun).2

/-- The deadline of a profile that has one. -/
theorem deadlineNs_start {s s' : State} {periodNs maxDepth maxDurationNs : Nat} {now : Instant} {io : TimerIo}
    (hstart : s.start periodNs maxDepth maxDurationNs now io = (true, s')) (hdeadline : s'.deadlineNs ≠ 0) :
    s'.deadlineNs = u64 (now.ns + maxDurationNs) := by
  have hstarted := State.started_start s periodNs maxDepth maxDurationNs now io
  rw [hstart] at hstarted
  cases hstarted with
  | running _ _ _ _ _ _ _ hlimit =>
    rw [hlimit] at hdeadline ⊢
    split
    next hnone => exact absurd (if_pos hnone) hdeadline
    · rfl

/-- **The duration valve**, for every profile that any run starts with a deadline. -/
theorem valve_of_run (c : Setup) {before : List Action} {m₀ : Machine}
    (hreached : Run MachineSteps c.machine before m₀) {periodNs maxDepth maxDurationNs : Nat}
    {now : Instant} {io : TimerIo} {s : State}
    (hstart : m₀.prof.start periodNs maxDepth maxDurationNs now io = (true, s)) (hdeadline : s.deadlineNs ≠ 0)
    {as : List Action} {m : Machine} {w : Watch}
    (hrun : Run (Guarded Undisturbed WatchedSteps) (⟨s, .idle, m₀.ledger.restart true⟩, ⟨now.ns, [], s⟩)
      as (m, w)) : Valve (u64 (now.ns + maxDurationNs)) m w := by
  have hstep : ∀ x a x', Watched s.deadlineNs (Prod.fst x) (Prod.snd x) →
      Guarded Undisturbed WatchedSteps x a x' → Watched s.deadlineNs x'.1 x'.2 := by
    rintro ⟨m, w⟩ a ⟨m', w'⟩ h ⟨hok, hmachine, hwatch⟩
    have hnext : w' = w.step m a m' := hwatch
    rw [hnext]
    exact h.step hok hmachine
  have hstarted := watched_start (sound_of_run hreached) (pendingTicks_lt_of_run hreached) hstart hdeadline
    (m₀.ledger.restart true)
  have hwatched := @Run.invariant _ _ _ _ _ _
    (fun x : Machine × Watch => Watched s.deadlineNs x.1 x.2) hstep hstarted hrun
  rw [← deadlineNs_start hstart hdeadline]
  exact hwatched.valve

/-- Ticks, and the interrupt that finds them. -/
theorem run_lateInterrupt {s : State} (hsound : s.Sound) (l : Ledger) {clock : Nat} {now : Instant}
    (hnow : clock ≤ now.ns) (ticks : Nat) : ∃ as m w,
      Run (Guarded Undisturbed WatchedSteps) (⟨s, .idle, l⟩, ⟨clock, [], s⟩) as (m, w) ∧
        w.clock = now.ns := by
  have hsame : State.Same s (s.tick ticks).takeTicks.2.takeDeliveries.2 :=
    (s.same_tick ticks).trans (s.tick ticks).same_taken
  let ledger : Ledger := { l with delivered := l.delivered + tickCount ticks }
  let ticked : Machine := ⟨s.tick ticks, .idle, ledger⟩
  let interrupted : Machine := ⟨(s.tick ticks).takeTicks.2, .interrupted (s.tick ticks).takeTicks.1, ledger⟩
  let serving : Machine := ⟨(s.tick ticks).takeTicks.2.takeDeliveries.2,
    .serving (s.tick ticks).takeTicks.1 (s.tick ticks).takeTicks.2.takeDeliveries.1, ledger⟩
  have hsound : serving.prof.Sound := hsound.same hsame
  obtain ⟨m', hserve, -⟩ := serve_isSome hsound rfl [] now
  have htick : MachineSteps ⟨s, .idle, l⟩ (.tick ticks) ticked := rfl
  have hinterrupt : MachineSteps ticked .interrupt interrupted := rfl
  have htake : MachineSteps interrupted .takeDeliveries serving := rfl
  let w : Watch := ⟨clock, [], s⟩
  -- The watch sees nothing before the profiler looks at what it took.
  have hunseen : ∀ {m a m'}, MachineSteps m a m' → Undisturbed (m, w) a → w.step m a m' = w →
      Guarded Undisturbed WatchedSteps (m, w) a (m', w) := fun hstep hok hw => ⟨hok, hstep, hw.symm⟩
  have hfront : Run (Guarded Undisturbed WatchedSteps) (⟨s, .idle, l⟩, w) [.tick ticks, .interrupt, .takeDeliveries]
      (serving, w) :=
    .cons (hunseen htick trivial rfl) (.cons (hunseen hinterrupt trivial rfl)
      (.single (hunseen htake trivial rfl)))
  have hlast : Guarded Undisturbed WatchedSteps (serving, w) (.serve [] now)
      (m', w.step serving (.serve [] now) m') := ⟨hnow, hserve, rfl⟩
  refine ⟨_, m', _, hfront.append (.single hlast), ?_⟩
  simp only [Watch.step, serving]
  split <;> rfl

/-- A profile with a deadline of a nanosecond, and an interrupt that finds 600 ticks. -/
theorem valve_of_run_late : ∃ s as m w,
    smallSetup.machine.prof.start 1000000 64 1 startUp ⟨true, true⟩ = (true, s) ∧
      Run (Guarded Undisturbed WatchedSteps)
        (⟨s, .idle, smallSetup.machine.ledger.restart true⟩, ⟨startUp.ns, [], s⟩) as (m, w) ∧
        w.clock = 5 ∧ Valve (u64 (startUp.ns + 1)) m w := by
  have hstarts : (smallSetup.machine.prof.start 1000000 64 1 startUp ⟨true, true⟩).1 = true := by decide +kernel
  have hdeadline : (smallSetup.machine.prof.start 1000000 64 1 startUp ⟨true, true⟩).2.deadlineNs ≠ 0 := by
    decide +kernel
  have hfresh := sound_of_run (.nil smallSetup.machine)
  have hsound := hfresh.start 1000000 64 1 startUp ⟨true, true⟩
  generalize hresult : smallSetup.machine.prof.start 1000000 64 1 startUp ⟨true, true⟩ = result at *
  obtain ⟨started, s⟩ := result
  cases hstarts
  obtain ⟨as, m, w, hrun, hclock⟩ := run_lateInterrupt hsound (smallSetup.machine.ledger.restart true)
    (Nat.zero_le (⟨5, by decide⟩ : Instant).ns) 600
  have hvalve := valve_of_run smallSetup (.nil smallSetup.machine) hresult hdeadline hrun
  exact ⟨s, as, m, w, rfl, hrun, hclock, hvalve⟩

end CboxTelemetry.Profiler
