import CboxTelemetry.Profiler.TimerThread

/-!
# Ticks of an earlier arming

The sampler looks at the flag after its sleep, not at what it slept for: a timer that has been disarmed and
armed again in the meantime looks the same as one that has been armed all the time. So a unit must not be
started while the sampler is timing or delivering a tick, nor while a tick is left over that was delivered
behind the back of a stop. Of the runs in which this is so, every tick is on time, and is booked to the unit
it was timed for; a start that does not meet it can be followed by a tick that is not (`timely_iff`).
-/

namespace CboxTelemetry.Profiler

/-! ## The property -/

/-- The call with number `n` has armed the timer for `periodNs`. -/
def Arming (calls : List (Option Nat)) (n periodNs : Nat) : Prop :=
  0 < n ∧ calls[n - 1]? = some (some periodNs)

/-- The tick follows a sleep of the period armed, in which no call has changed the timer. -/
structure Tick.OnTime (tick : Tick) (calls : List (Option Nat)) : Prop where
  armed : Arming calls tick.read tick.periodNs
  unchanged : tick.woken = tick.read

/-- The thread is in the interrupt handler, with ticks in its hands. -/
def Pc.serves : Pc → Bool
  | .interrupted _ | .serving _ _ => true
  | _ => false

namespace Threads

/-- Every tick delivered is on time, and every tick booked is booked to the unit it was timed for. -/
structure Timely (s : Threads) : Prop where
  delivered : ∀ tick ∈ s.delivered, tick.OnTime s.calls
  booked : ∀ b ∈ s.booked, b.2 = b.1.read

/-- `cbox_profiler_start` gets as far as arming the timer. -/
def Arms (s : Threads) (periodNs : Nat) : Prop :=
  s.prof.ready = true ∧ periodNs ≠ 0 ∧ s.timer.installed = true

/-- The sampler has read the period, and the tick that it sleeps for has not been counted. -/
def timing (s : Threads) : Bool :=
  match s.sampler with
  | .sleeping _ _ | .checking _ | .ticking _ => true
  | _ => false

/-- The timer is armed only while the sampler is not at a tick, and no tick is pending. -/
def ArmsQuiet (s : Threads) : ThreadAction → Prop
  | .start periodNs _ _ _ => s.Arms periodNs → s.timing = false ∧ s.prof.pendingTicks = 0
  | _ => True

end Threads

/-! ## The invariant -/

/-- A later call does not undo an arming. -/
theorem Arming.append {calls : List (Option Nat)} {n periodNs : Nat} (h : Arming calls n periodNs)
    (more : List (Option Nat)) : Arming (calls ++ more) n periodNs := by
  obtain ⟨hpos, hcall⟩ := h
  refine ⟨hpos, ?_⟩
  rw [List.getElem?_append_left (List.getElem?_eq_some_iff.mp hcall).1]
  exact hcall

/-- An arming is among the calls. -/
theorem Arming.le {calls : List (Option Nat)} {n periodNs : Nat} (h : Arming calls n periodNs) :
    n ≤ calls.length := by
  have hlt := (List.getElem?_eq_some_iff.mp h.2).1
  have hpos := h.1
  omega

theorem Tick.OnTime.append {tick : Tick} {calls : List (Option Nat)} (h : tick.OnTime calls)
    (more : List (Option Nat)) : tick.OnTime (calls ++ more) :=
  ⟨h.armed.append more, h.unchanged⟩

/-- What the sampler holds: its tick was timed for an arming, and as long as the timer is armed, nobody has
touched it since. -/
def SamplerPc.Holds (pc : SamplerPc) (calls : List (Option Nat)) (isArmed : Bool) : Prop :=
  match pc with
  | .sleeping periodNs read => Arming calls read periodNs ∧ (isArmed = true → read = calls.length)
  | .checking tick => Arming calls tick.read tick.periodNs ∧
      (isArmed = true → tick.woken = tick.read ∧ tick.read = calls.length)
  | .ticking tick => tick.OnTime calls ∧ (isArmed = true → tick.read = calls.length)
  | _ => True

/-- A call that leaves the timer disarmed. -/
theorem SamplerPc.Holds.disarmed {pc : SamplerPc} {calls : List (Option Nat)} {isArmed : Bool}
    (h : pc.Holds calls isArmed) : pc.Holds (calls ++ [none]) false := by
  cases pc with
  | sleeping periodNs read => exact ⟨h.1.append _, fun hno => absurd hno Bool.false_ne_true⟩
  | checking tick => exact ⟨h.1.append _, fun hno => absurd hno Bool.false_ne_true⟩
  | ticking tick => exact ⟨h.1.append _, fun hno => absurd hno Bool.false_ne_true⟩
  | absent | locking | waiting | delivering => trivial

namespace Threads

/-- What holds as long as the timer is armed quietly. -/
structure Punctual (s : Threads) : Prop extends Timely s where
  isArmed : s.timer.isArmed = true → Arming s.calls s.calls.length s.timer.periodNs
  running : s.prof.running = true → s.timer.isArmed = true
  sampler : s.sampler.Holds s.calls s.timer.isArmed
  pending_length : s.pending.length = s.prof.pendingTicks
  pending_lt : s.prof.pendingTicks < 2 ^ 32
  pending : s.prof.running = true → ∀ tick ∈ s.pending, tick.read = s.calls.length
  held : s.prof.running = true → ∀ tick ∈ s.held, tick.read = s.calls.length
  held_nil : s.pc.serves = false → s.held = []
  counted : ∀ tick ∈ s.pending, tick ∈ s.delivered

variable {s s' : Threads}

/-- An idle process serves no interrupt. -/
theorem serves_of_idle (h : s.idle = true) : s.pc.serves = false := by
  rw [idle, Bool.and_eq_true, decide_eq_true_eq] at h
  rw [h.1]
  rfl

theorem Timely.append (h : Timely s) (more : List (Option Nat)) :
    ∀ tick ∈ s.delivered, tick.OnTime (s.calls ++ more) :=
  fun tick hmem => (h.delivered tick hmem).append more

/-- A step of the request thread that does not touch the timer or the ticks. -/
theorem Punctual.same (h : s.Punctual) {prof : State} {pc : Pc} (hrunning : prof.running = s.prof.running)
    (hticks : prof.pendingTicks = s.prof.pendingTicks) (hpc : pc.serves = false → s.held = []) :
    Punctual { s with prof := prof, pc := pc } := by
  refine ⟨⟨h.delivered, h.booked⟩, h.isArmed, ?_, h.sampler, ?_, ?_, ?_, ?_, hpc, h.counted⟩
  · exact fun hrun => h.running (hrunning.symm.trans hrun)
  · exact h.pending_length.trans hticks.symm
  · exact Nat.lt_of_le_of_lt (Nat.le_of_eq hticks) h.pending_lt
  · exact fun hrun => h.pending (hrunning.symm.trans hrun)
  · exact fun hrun => h.held (hrunning.symm.trans hrun)

/-- The ticks are taken out of the counter. -/
theorem Punctual.taken (h : s.Punctual) {pc : Pc} {held : List Tick}
    (hheld : held = s.pending ∨ held = s.held) (hpc : pc.serves = false → held = []) :
    Punctual { s with prof := s.prof.takeTicks.2, pc := pc, pending := [], held := held } := by
  refine ⟨⟨h.delivered, h.booked⟩, h.isArmed, h.running, h.sampler, rfl, Nat.two_pow_pos 32, ?_, ?_, hpc, ?_⟩
  · intro _ tick hmem
    cases hmem
  · intro hrun tick hmem
    rcases hheld with rfl | rfl
    · exact h.pending hrun tick hmem
    · exact h.held hrun tick hmem
  · intro tick hmem
    cases hmem

/-- A stop, and the shutdown of the timer. -/
theorem Punctual.disarmed (h : s.Punctual) {prof : State} {timer : ThreadTimer} {pc : Pc}
    (hprof : prof.running = false ∧ prof.pendingTicks = s.prof.pendingTicks) (htimer : timer.isArmed = false)
    (hpc : pc.serves = false → s.held = []) :
    Punctual { s with prof := prof, timer := timer, calls := s.calls ++ [none], pc := pc } := by
  have hno : ∀ {p : Prop}, prof.running = true → p := fun hrunning => by
    rw [hprof.1] at hrunning
    cases hrunning
  refine ⟨⟨h.toTimely.append _, h.booked⟩, fun harmed => ?_, hno, ?_, ?_, ?_, hno, hno, hpc, h.counted⟩
  · rw [show timer.isArmed = true from harmed] at htimer
    cases htimer
  · rw [htimer]
    exact h.sampler.disarmed
  · rw [hprof.2]
    exact h.pending_length
  · rw [hprof.2]
    exact h.pending_lt

/-- A start that arms the timer quietly. -/
theorem Punctual.startOn (h : s.Punctual) (hidle : s.idle = true) {periodNs maxDepth maxDurationNs : Nat}
    {now : Instant} (hready : s.prof.ready = true) (hperiod : periodNs ≠ 0)
    (hquiet : s.ArmsQuiet (.start periodNs maxDepth maxDurationNs now)) :
    Punctual (s.startOn periodNs maxDepth maxDurationNs now) := by
  have hheld := h.held_nil (serves_of_idle hidle)
  have hpending := s.prof.reset_keeps.2.2.2.2.2.1
  unfold Threads.startOn ThreadTimer.arm
  cases hinstalled : s.timer.installed with
  | false =>
    -- Nothing is armed, and a profiler that ran goes on.
    simp only [Bool.not_false, Bool.true_or, if_true]
    exact h.same (State.reset_running _) hpending h.held_nil
  | true =>
    -- Nothing is pending and the sampler times nothing, so there is no tick of an earlier arming to come.
    obtain ⟨htiming, hnone⟩ := hquiet ⟨hready, hperiod, hinstalled⟩
    have hzero : s.pending = [] := List.eq_nil_of_length_eq_zero (h.pending_length.trans hnone)
    have hlength : (s.calls ++ [some periodNs]).length = s.calls.length + 1 := List.length_append
    simp only [Bool.not_true, Bool.false_or, beq_iff_eq, hperiod, if_false]
    refine ⟨⟨h.toTimely.append _, h.booked⟩, fun _ => ?_, fun _ => rfl, ?_, ?_, ?_, ?_, ?_, h.held_nil,
      h.counted⟩
    · refine ⟨by rw [hlength]; exact Nat.succ_pos _, ?_⟩
      show (s.calls ++ [some periodNs])[(s.calls ++ [some periodNs]).length - 1]? = _
      rw [hlength, Nat.add_sub_cancel, List.getElem?_concat_length]
    · unfold timing at htiming
      cases hsampler : s.sampler with
      | sleeping _ _ | checking _ | ticking _ =>
        rw [hsampler] at htiming
        cases htiming
      | absent | locking | waiting | delivering => trivial
    · exact h.pending_length.trans hpending.symm
    · exact Nat.lt_of_le_of_lt (Nat.le_of_eq hpending) h.pending_lt
    · intro _ tick hmem
      rw [show s.pending = [] from hzero] at hmem
      cases hmem
    · intro _ tick hmem
      rw [show s.held = [] from hheld] at hmem
      cases hmem

/-- The interrupt handler with the ticks that it has taken. -/
theorem Punctual.serveOn (h : s.Punctual) {stack : Stack} {pending deliveries : Nat} {now : Instant}
    (hsound : s.prof.Sound) (hserve : s.serveOn stack pending deliveries now = some s') : s'.Punctual := by
  unfold Threads.serveOn at hserve
  split at hserve
  · next hbooks =>
    obtain ⟨prof, hbook, hcollected, -⟩ := hsound.book hbooks stack deliveries
    simp only [State.books, Bool.and_eq_true] at hbooks
    obtain ⟨⟨-, hrun⟩, -⟩ := hbooks
    rw [hbook] at hserve
    have hrunning : (prof.checkDeadline now).2.running = s.prof.running := hcollected.running_eq
    have hticks : (prof.checkDeadline now).2.pendingTicks = s.prof.pendingTicks := hcollected.pendingTicks_eq
    have hserved : Punctual { s with
        prof := (prof.checkDeadline now).2
        pc := .idle
        held := []
        booked := s.booked ++ s.held.map fun tick => (tick, s.calls.length) } := by
      refine ⟨⟨h.delivered, fun b hmem => ?_⟩, h.isArmed, ?_, h.sampler, ?_, ?_, ?_, ?_, fun _ => rfl,
        h.counted⟩
      · rcases List.mem_append.mp hmem with hold | hnew
        · exact h.booked b hold
        · -- The profiler runs, so what has been taken was timed for its own arming.
          obtain ⟨tick, htick, rfl⟩ := List.mem_map.mp hnew
          exact (h.held hrun tick htick).symm
      -- The profiler that runs on is the one the ticks were for.
      · exact fun _ => h.running hrun
      · exact h.pending_length.trans hticks.symm
      · exact Nat.lt_of_le_of_lt (Nat.le_of_eq hticks) h.pending_lt
      · exact fun _ => h.pending hrun
      · intro _ tick hmem
        cases hmem
    simp only at hserve
    split at hserve
    · cases hserve
      exact hserved.disarmed ⟨rfl, rfl⟩ rfl fun _ => rfl
    · cases hserve
      exact hserved
  · cases hserve
    refine ⟨⟨h.delivered, h.booked⟩, h.isArmed, h.running, h.sampler, h.pending_length, h.pending_lt, h.pending,
      ?_, fun _ => rfl, h.counted⟩
    intro _ tick hmem
    cases hmem

/-- The sampler goes on to another place. -/
theorem Punctual.moved (h : s.Punctual) {sampler : SamplerPc} (hholds : sampler.Holds s.calls s.timer.isArmed) :
    Punctual { s with sampler := sampler } :=
  ⟨⟨h.delivered, h.booked⟩, h.isArmed, h.running, hholds, h.pending_length, h.pending_lt, h.pending, h.held,
    h.held_nil, h.counted⟩

/-- A look at the flag with the lock held keeps the invariant. -/
theorem Punctual.lookOn (h : s.Punctual) : s.lookOn.Punctual := by
  unfold Threads.lookOn
  split
  · exact h.moved trivial
  · split
    · next harmed => exact h.moved ⟨h.isArmed harmed, fun _ => rfl⟩
    · exact h.moved trivial

/-- What is pending after a tick was pending, or is the tick. -/
theorem mem_pending_addTickOn {tick other : Tick} (h : other ∈ (s.addTickOn tick).pending) :
    other ∈ s.pending ++ [tick] := by
  simp only [Threads.addTickOn] at h
  split at h
  · cases h
  · exact h

/-- A tick is counted. -/
theorem Punctual.addTickOn (h : s.Punctual) {tick : Tick} (hsampler : s.sampler = .ticking tick) :
    (s.addTickOn tick).Punctual := by
  have hholds := h.sampler
  rw [hsampler] at hholds
  obtain ⟨hontime, hcurrent⟩ := hholds
  have hlt := h.pending_lt
  refine ⟨⟨?_, h.booked⟩, h.isArmed, h.running, trivial, ?_, Nat.mod_lt _ (Nat.two_pow_pos 32), ?_, h.held,
    h.held_nil, ?_⟩
  · intro other hmem
    rcases List.mem_append.mp hmem with hold | hnew
    · exact h.delivered other hold
    · cases List.mem_singleton.mp hnew
      exact hontime
  · show (if u32 (s.prof.pendingTicks + 1) = 0 then [] else s.pending ++ [tick]).length = u32 _
    -- The counter wraps to 0 with the thirty-second bit, and nothing is pending then.
    split
    · next hzero => exact hzero.symm
    · next hne =>
      rw [List.length_append, List.length_singleton, h.pending_length]
      unfold u32 at hne ⊢
      omega
  · intro hrun other hmem
    rcases List.mem_append.mp (mem_pending_addTickOn hmem) with hold | hnew
    · exact h.pending hrun other hold
    · cases List.mem_singleton.mp hnew
      exact hcurrent (h.running hrun)
  · intro other hmem
    rcases List.mem_append.mp (mem_pending_addTickOn hmem) with hold | hnew
    · exact List.mem_append_left _ (h.counted other hold)
    · exact List.mem_append_right _ hnew

/-- The sampler wakes up. -/
theorem Punctual.sleepOver (h : s.Punctual) {periodNs read : Nat} (hsampler : s.sampler = .sleeping periodNs read) :
    Punctual { s with sampler := .checking ⟨periodNs, read, s.calls.length⟩ } := by
  have hholds := h.sampler
  rw [hsampler] at hholds
  obtain ⟨harming, hcurrent⟩ := hholds
  exact h.moved ⟨harming, fun harmed => ⟨(hcurrent harmed).symm, hcurrent harmed⟩⟩

/-- The sampler looks at the flag. -/
theorem Punctual.recheck (h : s.Punctual) {tick : Tick} (hsampler : s.sampler = .checking tick) :
    Punctual { s with sampler := if s.timer.isArmed then .ticking tick else .locking } := by
  have hholds := h.sampler
  rw [hsampler] at hholds
  obtain ⟨harming, hcurrent⟩ := hholds
  cases harmed : s.timer.isArmed with
  | false =>
    simp only [Bool.false_eq_true, if_false]
    exact h.moved trivial
  | true =>
    simp only [if_true]
    obtain ⟨hunchanged, hread⟩ := hcurrent harmed
    exact h.moved ⟨⟨harming, hunchanged⟩, fun _ => hread⟩

/-- A start leaves the profiler sound. -/
theorem sound_startOn (hsound : s.prof.Sound) (periodNs maxDepth maxDurationNs : Nat) (now : Instant) :
    (s.startOn periodNs maxDepth maxDurationNs now).prof.Sound := by
  unfold Threads.startOn
  rcases s.timer.arm periodNs with ⟨_ | _, timer⟩ <;>
    exact hsound.reset.same ⟨rfl, rfl, rfl, rfl, rfl, rfl, rfl, rfl⟩

/-- So does an interrupt served. -/
theorem sound_serveOn (hsound : s.prof.Sound) {stack : Stack} {pending deliveries : Nat} {now : Instant}
    (hserve : s.serveOn stack pending deliveries now = some s') : s'.prof.Sound := by
  unfold Threads.serveOn at hserve
  split at hserve
  · next hbooks =>
    obtain ⟨prof, hbook, -, hkept⟩ := hsound.book hbooks stack deliveries
    rw [hbook] at hserve
    simp only at hserve
    split at hserve <;> cases hserve <;> exact hkept _ ⟨rfl, rfl, rfl, rfl, rfl, rfl, rfl, rfl⟩
  · cases hserve
    exact hsound

/-- The storage is in order whatever the two threads do. -/
theorem sound_step (hsound : s.prof.Sound) {a : ThreadAction} (hstep : ThreadSteps s a s') : s'.prof.Sound := by
  have hsame : ∀ prof : State, State.Same s.prof prof → prof.Sound := fun _ h => hsound.same h
  unfold ThreadSteps Threads.step at hstep
  cases a with
  | serve stack now =>
    simp only at hstep
    split at hstep
    · exact sound_serveOn hsound hstep
    · cases hstep
  | start periodNs maxDepth maxDurationNs now =>
    simp only at hstep
    split at hstep
    · split at hstep <;> cases hstep
      · exact hsound
      · exact sound_startOn hsound _ _ _ _
    · cases hstep
  | reset =>
    simp only at hstep
    split at hstep <;> cases hstep
    exact hsound.reset
  | discardDeliveries =>
    simp only at hstep
    split at hstep
    next after hpc =>
      cases hstep
      cases after with
      | cap | stop | fork => exact hsame _ ⟨rfl, rfl, rfl, rfl, rfl, rfl, rfl, rfl⟩
    · cases hstep
  | init _ | stop | clearDeadline | interrupt | takeDeliveries | discardTicks | shutdown | join | wake | sleepOver
  -- None of these touches the tables.
  | recheck | addTick | addDelivery =>
    simp only at hstep
    repeat' split at hstep
    all_goals first
      | cases hstep
        exact hsame _ ⟨rfl, rfl, rfl, rfl, rfl, rfl, rfl, rfl⟩
      | cases hstep
  | look =>
    simp only at hstep
    split at hstep <;> cases hstep
    unfold lookOn
    repeat' split
    all_goals exact hsound

/-- **One step.** -/
theorem Punctual.step (h : s.Punctual) (hsound : s.prof.Sound) {a : ThreadAction} (hquiet : s.ArmsQuiet a)
    (hstep : ThreadSteps s a s') : s'.Punctual := by
  -- Only a start can bring in a new arming, and there the guard is what keeps older ticks out.
  unfold ThreadSteps Threads.step at hstep
  cases a with
  | init created =>
    simp only at hstep
    split at hstep
    · split at hstep
      · cases hstep
        exact h
      · cases hstep
        exact ⟨⟨h.delivered, h.booked⟩, h.isArmed, h.running, trivial, h.pending_length, h.pending_lt, h.pending,
          h.held, h.held_nil, h.counted⟩
    · cases hstep
  | start periodNs maxDepth maxDurationNs now =>
    simp only at hstep
    split at hstep
    next hidle =>
      split at hstep
      · cases hstep
        exact h
      next hgoes =>
        cases hstep
        rw [Bool.or_eq_true, not_or, Bool.not_eq_true', Bool.not_eq_false, beq_iff_eq] at hgoes
        exact h.startOn hidle hgoes.1 hgoes.2 hquiet
    · cases hstep
  | stop =>
    simp only at hstep
    split at hstep
    next hidle =>
      split at hstep
      · cases hstep
        exact h.disarmed ⟨rfl, rfl⟩ rfl fun _ => h.held_nil (serves_of_idle hidle)
      · cases hstep
        exact h
    · cases hstep
  | clearDeadline =>
    simp only at hstep
    split at hstep
    · cases hstep
      exact h.same rfl rfl h.held_nil
    · cases hstep
  | reset =>
    simp only at hstep
    split at hstep
    · cases hstep
      exact h.same (State.reset_running _) s.prof.reset_keeps.2.2.2.2.2.1 h.held_nil
    · cases hstep
  | interrupt =>
    simp only at hstep
    split at hstep
    · cases hstep
      refine h.taken (.inl rfl) fun hpc => ?_
      cases hpc
    · cases hstep
  | takeDeliveries =>
    simp only at hstep
    split at hstep
    · cases hstep
      refine h.same rfl rfl fun hpc => ?_
      cases hpc
    · cases hstep
  | serve stack now =>
    simp only at hstep
    split at hstep
    · exact h.serveOn hsound hstep
    · cases hstep
  | discardTicks =>
    simp only at hstep
    split at hstep
    next after hpc =>
      cases hstep
      exact h.taken (.inr rfl) fun _ => h.held_nil (by rw [hpc]; rfl)
    · cases hstep
  | discardDeliveries =>
    simp only at hstep
    split at hstep
    next after hpc =>
      cases hstep
      have hnil := h.held_nil (by rw [hpc]; rfl)
      cases after with
      | cap | stop | fork => exact h.same rfl rfl fun _ => hnil
    · cases hstep
  | shutdown =>
    simp only at hstep
    split at hstep
    next hidle =>
      cases hstep
      rw [Bool.and_eq_true, Bool.and_eq_true, Bool.not_eq_true'] at hidle
      exact h.disarmed ⟨hidle.2, rfl⟩ rfl h.held_nil
    · cases hstep
  | join =>
    simp only at hstep
    split at hstep
    · cases hstep
      exact ⟨⟨h.delivered, h.booked⟩, h.isArmed, h.running, h.sampler, h.pending_length, h.pending_lt, h.pending,
        h.held, h.held_nil, h.counted⟩
    · cases hstep
  | look =>
    simp only at hstep
    split at hstep
    · cases hstep
      exact h.lookOn
    · cases hstep
  | wake =>
    simp only at hstep
    split at hstep
    · cases hstep
      exact h.moved trivial
    · cases hstep
  | sleepOver =>
    simp only at hstep
    split at hstep
    next hsampler =>
      cases hstep
      exact h.sleepOver hsampler
    · cases hstep
  | recheck =>
    simp only at hstep
    split at hstep
    next hsampler =>
      cases hstep
      exact h.recheck hsampler
    · cases hstep
  | addTick =>
    simp only at hstep
    split at hstep
    next hsampler =>
      cases hstep
      exact h.addTickOn hsampler
    · cases hstep
  | addDelivery =>
    simp only at hstep
    split at hstep
    · cases hstep
      exact ⟨⟨h.delivered, h.booked⟩, h.isArmed, h.running, trivial, h.pending_length, h.pending_lt, h.pending,
        h.held, h.held_nil, h.counted⟩
    · cases hstep

/-- Nothing is armed, pending or held at first. -/
theorem punctual_threads (c : Setup) : c.threads.Punctual := by
  have hrunning : c.prof.running = false := (State.setup_idle c).1
  have hno : ∀ {p : Prop}, c.prof.running = true → p := fun hrun => by
    rw [hrunning] at hrun
    cases hrun
  have hnone : ∀ {α : Type} {p : α → Prop}, ∀ x ∈ ([] : List α), p x := fun _ hmem => by cases hmem
  refine ⟨⟨hnone, hnone⟩, fun harmed => ?_, hno, trivial, c.fresh.pendingTicks.symm, ?_, hno, hno, fun _ => rfl,
    hnone⟩
  · cases harmed
  · rw [show c.threads.prof.pendingTicks = 0 from c.fresh.pendingTicks]
    exact Nat.two_pow_pos 32

/-- **Runs** in which the timer is armed quietly. -/
theorem punctual_of_run {c : Setup} {as : List ThreadAction}
    (hrun : Run (Guarded ArmsQuiet ThreadSteps) c.threads as s) : s.Punctual ∧ s.prof.Sound := by
  have hstep : ∀ (s : Threads) (a : ThreadAction) (s' : Threads), s.Punctual ∧ s.prof.Sound →
      Guarded ArmsQuiet ThreadSteps s a s' → s'.Punctual ∧ s'.prof.Sound :=
    fun _ _ _ h hs => ⟨h.1.step h.2 hs.1 hs.2, sound_step h.2 hs.2⟩
  have h := Run.invariant hstep ⟨punctual_threads c, c.fresh.sound⟩ hrun
  exact h

/-! ## What follows an arming that is not quiet -/

/-- A unit runs that has been started while the tick was under way. -/
structure Overtaken (s : Threads) (tick : Tick) : Prop where
  idle : s.idle = true
  running : s.prof.running = true
  ready : s.prof.ready = true
  sound : s.prof.Sound
  armed : s.timer.isArmed = true
  earlier : tick.read < s.calls.length

/-- A pending tick of an earlier arming is booked by the next interrupt. -/
theorem Overtaken.of_pending {tick : Tick} (h : Overtaken s tick) (hmem : tick ∈ s.pending)
    (hpending : s.prof.pendingTicks ≠ 0) :
    ∃ as t, Run (Guarded ArmsQuiet ThreadSteps) s as t ∧ ¬Timely t := by
  have hinterrupt : ThreadSteps s .interrupt { s with
      prof := s.prof.takeTicks.2, pc := .interrupted s.prof.pendingTicks, pending := [], held := s.pending } := by
    simp only [ThreadSteps, Threads.step, h.idle, if_true]
    rfl
  have htake : ThreadSteps
      { s with prof := s.prof.takeTicks.2, pc := .interrupted s.prof.pendingTicks, pending := [], held := s.pending }
      .takeDeliveries { s with
        prof := s.prof.takeTicks.2.takeDeliveries.2
        pc := .serving s.prof.pendingTicks s.prof.pendingDeliveries
        pending := []
        held := s.pending } := rfl
  -- The interrupt takes the tick, and serving it books the tick in the later arming.
  have hbooks : s.prof.takeTicks.2.takeDeliveries.2.books s.prof.pendingTicks = true := by
    simp only [State.books, Bool.and_eq_true, decide_eq_true_eq]
    exact ⟨⟨Nat.pos_of_ne_zero hpending, h.running⟩, h.ready⟩
  have hsound : s.prof.takeTicks.2.takeDeliveries.2.Sound := h.sound.same s.prof.same_taken
  obtain ⟨prof, hbook, -, -⟩ := hsound.book hbooks [] s.prof.pendingDeliveries
  have hserve : ∃ t, ThreadSteps { s with
        prof := s.prof.takeTicks.2.takeDeliveries.2
        pc := .serving s.prof.pendingTicks s.prof.pendingDeliveries
        pending := []
        held := s.pending } (.serve [] 0) t ∧
      t.booked = s.booked ++ s.pending.map fun tick => (tick, s.calls.length) := by
    simp only [ThreadSteps, Threads.step, Threads.serveOn, hbooks, if_true, hbook]
    split
    · exact ⟨_, rfl, rfl⟩
    · exact ⟨_, rfl, rfl⟩
  obtain ⟨t, hserve, hbooked⟩ := hserve
  refine ⟨[.interrupt, .takeDeliveries, .serve [] 0], t, .cons ⟨trivial, hinterrupt⟩ (.cons ⟨trivial, htake⟩ (.single ⟨trivial, hserve⟩)),
    fun htimely => ?_⟩
  have hsame := htimely.booked (tick, s.calls.length) (by
    rw [hbooked]
    exact List.mem_append_right _ (List.mem_map.mpr ⟨tick, hmem, rfl⟩))
  exact absurd hsame (Nat.ne_of_gt h.earlier)

/-- A tick of an earlier arming that the sampler is about to count. -/
theorem Overtaken.of_ticking {tick : Tick} (h : Overtaken s tick) (hsampler : s.sampler = .ticking tick)
    (hpending : s.prof.pendingTicks = 0) :
    ∃ as t, Run (Guarded ArmsQuiet ThreadSteps) s as t ∧ ¬Timely t := by
  have hadd : ThreadSteps s .addTick (s.addTickOn tick) := by
    simp only [ThreadSteps, Threads.step, hsampler]
  have hone : u32 (s.prof.pendingTicks + 1) = 1 := by rw [hpending]; rfl
  have hnext : Overtaken (s.addTickOn tick) tick :=
    ⟨h.idle, h.running, h.ready, h.sound.same ⟨rfl, rfl, rfl, rfl, rfl, rfl, rfl, rfl⟩, h.armed, h.earlier⟩
  have hmem : tick ∈ (s.addTickOn tick).pending := by
    simp only [Threads.addTickOn, hone, Nat.one_ne_zero, if_false]
    exact List.mem_append_right _ (List.mem_singleton.mpr rfl)
  have hcounted : (s.addTickOn tick).prof.pendingTicks ≠ 0 := by
    show u32 (s.prof.pendingTicks + 1) ≠ 0
    rw [hone]
    exact Nat.one_ne_zero
  obtain ⟨as, t, hrun, hstale⟩ := hnext.of_pending hmem hcounted
  exact ⟨.addTick :: as, t, .cons ⟨trivial, hadd⟩ hrun, hstale⟩

/-- A tick of an earlier arming whose sleep is over: the flag is set again. -/
theorem Overtaken.of_checking {tick : Tick} (h : Overtaken s tick) (hsampler : s.sampler = .checking tick)
    (hpending : s.prof.pendingTicks = 0) :
    ∃ as t, Run (Guarded ArmsQuiet ThreadSteps) s as t ∧ ¬Timely t := by
  have hcheck : ThreadSteps s .recheck { s with sampler := .ticking tick } := by
    simp only [ThreadSteps, Threads.step, hsampler, h.armed, if_true]
  have hnext : Overtaken { s with sampler := .ticking tick } tick :=
    ⟨h.idle, h.running, h.ready, h.sound, h.armed, h.earlier⟩
  obtain ⟨as, t, hrun, hstale⟩ := hnext.of_ticking rfl hpending
  exact ⟨.recheck :: as, t, .cons ⟨trivial, hcheck⟩ hrun, hstale⟩

/-- A sleep that began under an earlier arming. -/
theorem Overtaken.of_sleeping {periodNs read : Nat}
    (h : Overtaken s ⟨periodNs, read, s.calls.length⟩) (hsampler : s.sampler = .sleeping periodNs read)
    (hpending : s.prof.pendingTicks = 0) :
    ∃ as t, Run (Guarded ArmsQuiet ThreadSteps) s as t ∧ ¬Timely t := by
  have hwake : ThreadSteps s .sleepOver { s with sampler := .checking ⟨periodNs, read, s.calls.length⟩ } := by
    simp only [ThreadSteps, Threads.step, hsampler]
  have hnext : Overtaken { s with sampler := .checking ⟨periodNs, read, s.calls.length⟩ }
      ⟨periodNs, read, s.calls.length⟩ := ⟨h.idle, h.running, h.ready, h.sound, h.armed, h.earlier⟩
  obtain ⟨as, t, hrun, hstale⟩ := hnext.of_checking rfl hpending
  exact ⟨.sleepOver :: as, t, .cons ⟨trivial, hwake⟩ hrun, hstale⟩

/-- A start that arms the timer, with whatever is under way. -/
theorem startOn_of_arms {periodNs : Nat} (harms : s.Arms periodNs) (maxDepth maxDurationNs : Nat) (now : Instant) :
    ∃ prof, s.startOn periodNs maxDepth maxDurationNs now = { s with
        prof := prof
        timer := { s.timer with periodNs := periodNs, isArmed := true }
        calls := s.calls ++ [some periodNs] } ∧
      prof.running = true ∧ prof.ready = true ∧ prof.pendingTicks = s.prof.pendingTicks := by
  obtain ⟨hready, hperiod, hinstalled⟩ := harms
  have hkeeps := s.prof.reset_keeps
  unfold Threads.startOn ThreadTimer.arm
  simp only [hinstalled, Bool.not_true, Bool.false_or, beq_iff_eq, hperiod, if_false]
  exact ⟨_, rfl, rfl, hkeeps.2.2.1.trans hready, hkeeps.2.2.2.2.2.1⟩

/-- **A start that is not quiet** can be followed by a tick that is not booked to its own unit. -/
theorem stale_of_start (h : s.Punctual) (hsound : s.prof.Sound) {a : ThreadAction} (hloud : ¬s.ArmsQuiet a)
    (hstep : ThreadSteps s a s') : ∃ as t, Run (Guarded ArmsQuiet ThreadSteps) s' as t ∧ ¬Timely t := by
  cases a with
  | start periodNs maxDepth maxDurationNs now =>
    obtain ⟨harms, hbusy⟩ : s.Arms periodNs ∧ ¬(s.timing = false ∧ s.prof.pendingTicks = 0) :=
      Classical.not_imp.mp hloud
    have hsound' := sound_step hsound hstep
    obtain ⟨prof, hstart, hrunning, hready, hticks⟩ :=
      startOn_of_arms harms maxDepth maxDurationNs now
    simp only [ThreadSteps, Threads.step] at hstep
    split at hstep
    next hidle =>
      simp only [harms.1, Bool.not_true, Bool.false_or, beq_iff_eq, harms.2.1, if_false, hstart] at hstep
      have heq := (Option.some.inj hstep).symm
      have hsampler' : s'.sampler = s.sampler := by rw [heq]
      have hpending' : s'.pending = s.pending := by rw [heq]
      have hticks' : s'.prof.pendingTicks = s.prof.pendingTicks := by rw [heq, hticks]
      have hcalls' : s'.calls.length = s.calls.length + 1 := by
        rw [heq]
        exact List.length_append
      have hover : ∀ tick : Tick, tick.read ≤ s.calls.length → Overtaken s' tick := by
        intro tick hle
        refine ⟨by rw [heq]; exact hidle, by rw [heq]; exact hrunning, by rw [heq]; exact hready, hsound',
          by rw [heq], ?_⟩
        omega
      by_cases hpending : s.prof.pendingTicks = 0
      · -- The sampler holds a tick for an earlier arming.
        have htiming : s.timing = true := by
          cases htiming : s.timing with
          | false => exact absurd ⟨htiming, hpending⟩ hbusy
          | true => rfl
        have hnone := hticks'.trans hpending
        have hholds := h.sampler
        unfold timing at htiming
        cases hsampler : s.sampler with
        | sleeping period read =>
          rw [hsampler] at hholds
          exact (hover ⟨period, read, _⟩ hholds.1.le).of_sleeping (hsampler'.trans hsampler) hnone
        | checking tick =>
          rw [hsampler] at hholds
          exact (hover tick hholds.1.le).of_checking (hsampler'.trans hsampler) hnone
        | ticking tick =>
          rw [hsampler] at hholds
          exact (hover tick hholds.1.armed.le).of_ticking (hsampler'.trans hsampler) hnone
        | absent | locking | waiting | delivering =>
          rw [hsampler] at htiming
          cases htiming
      · -- A tick is left over from an earlier arming.
        obtain ⟨tick, hmem⟩ : ∃ tick, tick ∈ s.pending := by
          apply List.exists_mem_of_ne_nil
          intro hnil
          rw [← h.pending_length, hnil] at hpending
          exact hpending rfl
        have hearlier := (h.delivered tick (h.counted tick hmem)).armed.le
        exact (hover tick hearlier).of_pending (hpending' ▸ hmem) fun hzero => hpending (hticks'.symm.trans hzero)
    · cases hstep
  | _ => exact absurd trivial hloud

/-- **No stale ticks** in the runs in which the timer is armed quietly: every tick follows a sleep of the
period armed, in which nobody has touched the timer, and is booked to the unit it was timed for. A step of
such a run keeps this so, whatever comes after it, exactly if it is quiet. -/
theorem timely_iff {c : Setup} {as : List ThreadAction}
    (hrun : Run (Guarded ArmsQuiet ThreadSteps) c.threads as s) :
    Timely s ∧ ∀ a s', ThreadSteps s a s' →
      ((∀ bs t, Run (Guarded ArmsQuiet ThreadSteps) s' bs t → Timely t) ↔ ArmsQuiet s a) := by
  obtain ⟨hpunctual, hsound⟩ := punctual_of_run hrun
  refine ⟨hpunctual.toTimely, fun a s' hstep => ⟨fun hall => ?_, fun hquiet bs t hrest => ?_⟩⟩
  · by_contra hloud
    obtain ⟨bs, t, hrest, hstale⟩ := stale_of_start hpunctual hsound hloud hstep
    exact hstale (hall bs t hrest)
  · have hwhole := hrun.append (.cons ⟨hquiet, hstep⟩ hrest)
    exact (punctual_of_run hwhole).1.toTimely

/-! ## Two runs -/

instance (s : Threads) (a : ThreadAction) : Decidable (s.ArmsQuiet a) :=
  match a with
  | .start periodNs _ _ _ => inferInstanceAs
      (Decidable ((s.prof.ready = true ∧ periodNs ≠ 0 ∧ s.timer.installed = true) →
        s.timing = false ∧ s.prof.pendingTicks = 0))
  | .init _ | .stop | .clearDeadline | .reset | .interrupt | .takeDeliveries | .serve _ _ | .discardTicks
  | .discardDeliveries | .shutdown | .join | .look | .wake | .sleepOver | .recheck | .addTick | .addDelivery =>
    inferInstanceAs (Decidable True)

/-- The threads after steps that meet a condition. -/
def after (ok : Threads → ThreadAction → Prop) [∀ s a, Decidable (ok s a)] (s : Threads) :
    List ThreadAction → Option Threads
  | [] => some s
  | a :: as =>
    if ok s a then
      match s.step a with
      | some s' => after ok s' as
      | none => none
    else none

/-- What the guarded steps compute is a run. -/
theorem run_after {ok : Threads → ThreadAction → Prop} [∀ s a, Decidable (ok s a)] {as : List ThreadAction}
    (h : s.after ok as = some s') : Run (Guarded ok ThreadSteps) s as s' := by
  induction as generalizing s with
  | nil =>
    cases h
    exact .nil _
  | cons a as ih =>
    simp only [after] at h
    split at h
    next hok =>
      split at h
      next s₁ hstep => exact .cons ⟨hok, hstep⟩ (ih h)
      · cases h
    · cases h

/-- A unit that is sampled once. -/
def sampledOnce : List ThreadAction :=
  [.init true, .start 1000000 64 0 0, .look, .sleepOver, .recheck, .addTick, .addDelivery, .interrupt,
    .takeDeliveries, .serve [] 0]

/-- A run with one sample is timely. -/
theorem timely_sampledOnce : ∃ s, Run (Guarded ArmsQuiet ThreadSteps) smallSetup.threads sampledOnce s ∧
    s.booked = [(⟨1000000, 1, 1⟩, 1)] ∧ Timely s := by
  have hafter : (smallSetup.threads.after ArmsQuiet sampledOnce).map Threads.booked =
      some [(⟨1000000, 1, 1⟩, 1)] := by decide +kernel
  obtain ⟨s, hs, hbooked⟩ := Option.map_eq_some_iff.mp hafter
  exact ⟨s, run_after hs, hbooked, (timely_iff (run_after hs)).1⟩

/-- While the sampler sleeps a millisecond for one unit, the unit is stopped and another is started that is
sampled every five. -/
def restartedAsleep : List ThreadAction :=
  [.init true, .start 1000000 64 0 0, .look, .stop, .discardTicks, .discardDeliveries, .start 5000000 64 0 0,
    .sleepOver, .recheck, .addTick]

/-- Stopped and started again while the sampler sleeps, the profiler books the old tick in the new
arming. -/
theorem stale_restartedAsleep : ¬∀ (c : Setup) (as : List ThreadAction) (s : Threads),
    Run ThreadSteps c.threads as s → Timely s := by
  intro hall
  have hafter : (smallSetup.threads.after (fun _ _ => True) restartedAsleep).map Threads.delivered =
      some [⟨1000000, 1, 3⟩] := by decide +kernel
  obtain ⟨s, hs, hdelivered⟩ := Option.map_eq_some_iff.mp hafter
  have htimely := hall smallSetup _ s (run_after hs).of_guarded
  have hontime := htimely.delivered ⟨1000000, 1, 3⟩ (by rw [hdelivered]; exact List.mem_singleton.mpr rfl)
  exact absurd hontime.unchanged (by decide)

end Threads

end CboxTelemetry.Profiler
