import CboxTelemetry.Profiler.TimerLinear

/-!
# What the timer thread promises

For every run of the two threads with the mutex: it looks like a run of the timer without it, the mutex keeps
the threads apart, a disarmed timer ticks at most once more, and a call of the request thread can always
return, except in a child whose parent's sampler had the mutex at the fork.
-/

namespace CboxTelemetry.Profiler

/-- The runs of the process and of its children from the load of the module on. -/
abbrev LockRun : Locked → List LockAction → Locked → Prop := Run (Guarded Looks LockSteps)

instance (s : Locked) (a : LockAction) : Decidable (Looks s a) :=
  match a with
  | .call (.afterFork _) => inferInstanceAs (Decidable (s.strayed = true))
  | .call (.init _) | .call .shutdown => inferInstanceAs (Decidable (s.strayed = false))
  | .call (.arm _) | .call .disarm | .request | .ret _ | .sampler | .tick _ | .wake | .fork =>
    inferInstanceAs (Decidable True)

namespace Locked
variable {s u : Locked} {t : Atomic} {as bs : List LockAction}

/-- A call that shows in the trace was made. -/
theorem call_mem {c : TimerCall} (h : .call c ∈ bs.filterMap LockAction.event) : .call c ∈ bs := by
  obtain ⟨a, ha, hevent⟩ := List.mem_filterMap.mp h
  cases a with
  | call c' =>
    simp only [LockAction.event, Option.some.injEq, TimerEvent.call.injEq] at hevent
    rwa [hevent] at ha
  | _ => simp [LockAction.event] at hevent

theorem LooksLike.of_run (h : LockRun .initial as s) : ∃ t, s.LooksLike t :=
  simulates.related initial_looksLike h

/-- A run to show: the steps, all of them allowed. -/
theorem run_of_takes (h : takes Looks step s as = some u) : LockRun s as u := Run.of_takes h

/-- The timer is started, the sampler finds nothing to do and sleeps, the timer is armed at five
milliseconds, and the sampler is about to tick. -/
def aboutToTick : List LockAction :=
  [.call (.init true), .request, .request, .request, .ret true, .sampler, .sampler, .sampler,
    .call (.arm 5000000), .request, .request, .request, .request, .request, .ret true, .sampler, .sampler,
    .sampler, .sampler, .sampler, .sampler, .sampler]

end Locked

/-- **The timer is linearizable.** Whatever the order in which the two threads take their steps, an observer
sees the calls, returns, ticks and forks of some run of the timer without a mutex, in which every call does
what it does at one moment; and between two calls that timer is the one in the memory. -/
theorem timer_linearizable {as : List LockAction} {s : Locked} (h : LockRun .initial as s) :
    ∃ bs t, Run AtomicSteps .initial bs t ∧
      bs.filterMap AtomicAction.event = as.filterMap LockAction.event ∧
      t.call = s.call ∧ t.sampler = s.sampler.view ∧ (s.call = none → t.timer = s.timer ∧ t.effects = []) := by
  obtain ⟨bs, t, hbs, htrace, hlike⟩ := Locked.simulates.run Locked.initial_looksLike h
  refine ⟨bs, t, hbs, htrace, hlike.call, hlike.sampler, ?_⟩
  intro hcall
  have hstage := hlike.stage
  rw [hlike.idle hcall] at hstage
  obtain ⟨htimer, heffects, -⟩ := hstage.settled
  exact ⟨htimer.symm, heffects⟩

/-- A tick under way, in order. -/
theorem timer_linearizable_once : ∃ s, LockRun .initial (Locked.aboutToTick ++ [.tick 5000000]) s ∧
    ∃ bs t, Run AtomicSteps .initial bs t ∧
      bs.filterMap AtomicAction.event = [.call (.init true), .ret true, .call (.arm 5000000), .ret true,
        .tick 5000000] ∧
      t.call = s.call ∧ t.sampler = s.sampler.view ∧ (s.call = none → t.timer = s.timer ∧ t.effects = []) := by
  have htakes : (takes Looks Locked.step .initial (Locked.aboutToTick ++ [.tick 5000000])).isSome = true := by
    decide +kernel
  obtain ⟨s, hs⟩ := Option.isSome_iff_exists.mp htakes
  exact ⟨s, Locked.run_of_takes hs, timer_linearizable (Locked.run_of_takes hs)⟩

/-! ## The mutex -/

/-- What the mutex is for. -/
structure Locked.Kept (s : Locked) : Prop where
  apart : critical s.todo = true → s.sampler.holds = false
  request : s.owner = some .request ↔ critical s.todo = true
  holds : s.owner = some .sampler ↔ s.sampler.holds = true
  /-- No signal is lost: a sampler that sleeps has nothing to do, or is about to be woken up. -/
  awake : s.sampler = .blocked →
    (s.timer.isArmed = false ∧ s.timer.stopping = false) ∨ signalDue s.todo = true
  /-- There is one sampler at most. -/
  alone : s.todo.head? = some .create → s.sampler = .absent
  /-- Who waits for the sampler has told it to stop. -/
  joins : s.todo.head? = some .join → s.started = true ∧ s.timer.stopping = true ∧ s.timer.isArmed = false
  between : s.call = none → s.started = s.timer.installed ∧ s.timer.stopping = false ∧
    (s.timer.installed = false → s.sampler = .absent)

/-- What the following of the atomic timer says about the locked one. -/
theorem Locked.LooksLike.kept {s : Locked} {t : Atomic} (h : s.LooksLike t) : s.Kept where
  apart := h.apart
  request := h.request
  holds := h.holds
  awake := h.blocked
  alone hhead := by
    obtain ⟨f, started, owner, pc, call, todo, strayed⟩ := s
    obtain ⟨timer, coarse, result, effects⟩ := t
    have hstage : Stage (pc = .absent) f started todo timer effects := h.stage
    cases hstage with
    | create _ _ hgone => exact hgone
    | @reset _ _ _ i _ _ _ hsuf =>
      have hi : i ∈ resetStores := hsuf.subset List.mem_cons_self
      simp only [List.cons_append, List.head?_cons, Option.some.injEq] at hhead
      rw [hhead] at hi
      simp [resetStores] at hi
    | _ => simp at hhead
  joins hhead := by
    obtain ⟨f, started, owner, pc, call, todo, strayed⟩ := s
    obtain ⟨timer, coarse, result, effects⟩ := t
    have hstage : Stage (pc = .absent) f started todo timer effects := h.stage
    cases hstage with
    | join hs => exact ⟨rfl, hs.stopping, hs.isArmed⟩
    | @reset _ _ _ i _ _ _ hsuf =>
      have hi : i ∈ resetStores := hsuf.subset List.mem_cons_self
      simp only [List.cons_append, List.head?_cons, Option.some.injEq] at hhead
      rw [hhead] at hi
      simp [resetStores] at hi
    | _ => simp at hhead
  between hcall := by
    have hstage := h.stage
    rw [h.idle hcall] at hstage
    obtain ⟨htimer, -, hsettled⟩ := hstage.settled
    rw [htimer]
    exact ⟨hsettled.started, hsettled.going, hsettled.sampler⟩

/-- **The mutex keeps the threads apart**, in every run: never are both in a critical section, no signal is
lost, a second sampler is never started, and between two calls there is a sampler only if the timer is
installed. -/
theorem mutex_keeps {as : List LockAction} {s : Locked} (h : LockRun .initial as s) : s.Kept := by
  obtain ⟨t, hlike⟩ := Locked.LooksLike.of_run h
  exact hlike.kept

/-- The sampler has found nothing to do and is about to let go of the mutex. -/
theorem mutex_keeps_testing : ∃ s, LockRun .initial (Locked.aboutToTick.take 7) s ∧
    s.owner = some .sampler ∧ s.Kept := by
  have htakes : (takes Looks Locked.step .initial (Locked.aboutToTick.take 7)).map Locked.owner =
      some (some .sampler) := by
    decide +kernel
  obtain ⟨s, hs, howner⟩ := Option.map_eq_some_iff.mp htakes
  exact ⟨s, Locked.run_of_takes hs, howner, mutex_keeps (Locked.run_of_takes hs)⟩

/-! ## A call in progress -/

namespace Locked
variable {s s' u : Locked} {i : Instr} {a : LockAction} {as bs : List LockAction} {result : Bool}

/-- An instruction leaves the rest of the call as it is. -/
theorem perform_frame (h : s.perform i = some s') :
    s'.call = s.call ∧ s'.todo = s.todo ∧ (s'.owner = some .parent → s.owner = some .parent) := by
  cases i with
  | lock =>
    simp only [perform] at h
    split at h
    case isFalse => cases h
    case isTrue =>
      cases h
      exact ⟨rfl, rfl, fun hp => by cases hp⟩
  | join =>
    simp only [perform] at h
    repeat' split at h
    all_goals
      first
        | cases h
          exact ⟨rfl, rfl, id⟩
        | cases h
  | unlock | initLock =>
    cases h
    exact ⟨rfl, rfl, fun hp => by cases hp⟩
  | _ =>
    cases h
    exact ⟨rfl, rfl, id⟩

theorem samplerStep_frame (h : s.samplerStep = some s') :
    s'.call = s.call ∧ s'.todo = s.todo ∧ s'.timer = s.timer ∧
      (s'.owner = some .parent → s.owner = some .parent) := by
  cases hpc : s.sampler with
  | absent | blocked | ticking => simp [samplerStep, hpc] at h
  | locking | woken | testingStopping =>
    simp only [samplerStep, hpc] at h
    split at h
    all_goals
      first
        | cases h
          exact ⟨rfl, rfl, rfl, fun hp => by first | cases hp | exact hp⟩
        | cases h
  | _ =>
    simp only [samplerStep, hpc] at h
    cases h
    exact ⟨rfl, rfl, rfl, fun hp => by first | cases hp | exact hp⟩

/-- What a step leaves of a call in progress. -/
theorem step_in_call (hs : s.call = some result) (ha : a ≠ .ret result) (hstep : LockSteps s a s') :
    s'.call = some result ∧ (s'.owner = some .parent → s.owner = some .parent) ∧
      ∀ i ∈ s'.todo, i ∈ s.todo := by
  cases a with
  | call c => simp [LockSteps, step, hs] at hstep
  | fork => simp [LockSteps, step, hs] at hstep
  | request =>
    cases htodo : s.todo with
    | nil => simp [LockSteps, step, htodo] at hstep
    | cons i rest =>
      rw [LockSteps, step_request htodo] at hstep
      obtain ⟨hcall, hrest, hparent⟩ := perform_frame hstep
      refine ⟨hcall.trans hs, hparent, ?_⟩
      intro j hj
      -- Only the last instructions of the list are left.
      rw [hrest] at hj
      exact List.mem_cons_of_mem _ hj
  | ret r =>
    simp only [LockSteps, step] at hstep
    split at hstep
    case isFalse => cases hstep
    case isTrue hret =>
      rw [hs] at hret
      cases hret.1
      exact absurd rfl ha
  | sampler =>
    obtain ⟨hcall, htodo, -, hparent⟩ := samplerStep_frame hstep
    refine ⟨hcall.trans hs, hparent, ?_⟩
    intro j hj
    rwa [htodo] at hj
  | tick | wake =>
    simp only [LockSteps, step] at hstep
    split at hstep
    case isFalse => cases hstep
    case isTrue =>
      cases hstep
      exact ⟨hs, id, fun _ => id⟩

/-- A call in progress goes on until it returns what it was to return. -/
theorem ret_mem_of_run (hrun : LockRun s bs u) (hs : s.call = some result) (hu : u.call = none) :
    .ret result ∈ bs := by
  induction hrun with
  | nil s =>
    rw [hs] at hu
    cases hu
  | @cons s s' u a bs hstep _ ih =>
    by_cases hret : a = .ret result
    · rw [hret]
      exact List.mem_cons_self
    · apply List.mem_cons_of_mem
      exact ih (step_in_call hs hret hstep.2).1 hu

end Locked

/-! ## What a call does -/

/-- A call without a second thread: what it returns and what it leaves. -/
def TimerCall.meaning (t : ThreadTimer) : TimerCall → Bool × ThreadTimer
  | .init created => if t.installed then (true, t) else (created, { t with installed := created })
  | .arm periodNs => t.arm periodNs
  | .disarm => (true, t.disarm)
  | .shutdown => (true, if t.installed then t.shutdown.joined else t)
  | .afterFork created => (true, { ThreadTimer.blank with installed := t.installed && created })

/-- An effect on the timer. -/
def TimerEffect.on (t : ThreadTimer) : TimerEffect → ThreadTimer
  | .create => { t with installed := true }
  | .arm periodNs => (t.arm periodNs).2
  | .disarm => t.disarm
  | .shutdown => t.shutdown
  | .joined => t.joined
  | .reset => .blank

/-- The effects of a call add up to its meaning. -/
theorem TimerCall.effects_meaning (c : TimerCall) (t : ThreadTimer) :
    (c.effects t).1 = (c.meaning t).1 ∧ (c.effects t).2.foldl TimerEffect.on t = (c.meaning t).2 := by
  cases c with
  | init created =>
    cases hi : t.installed <;> cases created <;> simp [effects, meaning, TimerEffect.on, hi]
    rw [← hi]
  | arm periodNs =>
    cases ha : (t.arm periodNs).1
    case true => simp [effects, meaning, TimerEffect.on, ha]
    case false =>
      have hrefused : (t.arm periodNs).2 = t := by
        simp only [ThreadTimer.arm] at ha ⊢
        split at ha
        case isTrue hr => rw [if_pos hr]
        case isFalse => cases ha
      simp [effects, meaning, ha, hrefused]
  | disarm => exact ⟨rfl, rfl⟩
  | shutdown => cases hi : t.installed <;> simp [effects, meaning, TimerEffect.on, hi]
  | afterFork created =>
    cases hi : t.installed <;> cases created <;> simp [effects, meaning, TimerEffect.on, hi] <;> rfl

namespace Atomic
variable {t u : Atomic} {a : AtomicAction} {bs : List AtomicAction}

/-- The timer when the call in progress has done everything. -/
def outcome (t : Atomic) : ThreadTimer := t.effects.foldl TimerEffect.on t.timer

/-- Only another call changes what the timer will be. -/
theorem outcome_step (ha : ∀ c, a ≠ .call c) (hstep : AtomicSteps t a u) : u.outcome = t.outcome := by
  -- No step but a call adds effects, and one that applies an effect takes it off the list.
  cases a with
  | call c => exact absurd rfl (ha c)
  | effect =>
    simp only [AtomicSteps, Atomic.step] at hstep
    cases heffects : t.effects with
    | nil => simp [heffects] at hstep
    | cons e rest =>
      simp only [heffects] at hstep
      cases e with
      | joined =>
        simp only [Atomic.apply] at hstep
        split at hstep
        case isFalse => cases hstep
        case isTrue =>
          cases hstep
          simp [outcome, heffects, TimerEffect.on]
      | _ =>
        cases hstep
        simp [outcome, heffects, TimerEffect.on]
  | ret | look | sleepOver | recheck | tick | fork =>
    simp only [AtomicSteps, Atomic.step] at hstep
    repeat' split at hstep
    all_goals
      first
        | cases hstep
          rfl
        | cases hstep

/-- So it goes over a run. -/
theorem outcome_run (hrun : Run AtomicSteps t bs u)
    (hbs : ∀ c, .call c ∉ bs.filterMap AtomicAction.event) : u.outcome = t.outcome := by
  induction hrun with
  | nil t => rfl
  | @cons t u v a bs hstep _ ih =>
    have ha : ∀ c, a ≠ .call c := by
      intro c heq
      apply hbs c
      rw [heq]
      exact List.mem_cons_self
    rw [ih ?_, outcome_step ha hstep]
    intro c hmem
    apply hbs c
    rw [List.filterMap_cons]
    cases a.event with
    | none => exact hmem
    | some e => exact List.mem_cons_of_mem _ hmem

end Atomic

/-- **A call does what it says**, however the sampler gets in between: until the next call the timer is what a
call without a second thread leaves, and that call's result is what has been returned. -/
theorem call_does {as bs : List LockAction} {s s' u : Locked} {c : TimerCall}
    (h : LockRun .initial as s) (hcall : Guarded Looks LockSteps s (.call c) s') (hrest : LockRun s' bs u)
    (hbs : ∀ c, .call c ∉ bs) (hu : u.call = none) :
    u.timer = (c.meaning s.timer).2 ∧ .ret (c.meaning s.timer).1 ∈ bs := by
  obtain ⟨t, hlike⟩ := Locked.LooksLike.of_run h
  obtain ⟨hlooks, hstep⟩ := hcall
  obtain ⟨hidle, hcalled⟩ := hlike.called hlooks hstep
  have hstage := hlike.stage
  rw [hlike.idle hidle] at hstage
  obtain ⟨htimer, -, -⟩ := hstage.settled
  obtain ⟨hresult, houtcome⟩ := c.effects_meaning t.timer
  rw [htimer]
  refine ⟨?_, ?_⟩
  · obtain ⟨cs, u', hcs, htrace, hlast⟩ := Locked.simulates.run hcalled hrest
    have hkept : u'.outcome = _ := Atomic.outcome_run hcs fun c' hmem =>
      hbs c' (Locked.call_mem (htrace ▸ hmem))
    -- nothing is left to do at the end
    have hend := hlast.stage
    rw [hlast.idle hu] at hend
    obtain ⟨htimer', heffects', -⟩ := hend.settled
    rw [htimer', ← houtcome]
    simpa [Atomic.outcome, heffects'] using hkept
  · rw [← hresult]
    exact Locked.ret_mem_of_run hrest hcalled.call.symm hu

/-- The timer is disarmed while the sampler ticks. -/
theorem call_does_ticking : ∃ s s' u, LockRun .initial Locked.aboutToTick s ∧
    Guarded Looks LockSteps s (.call .disarm) s' ∧
    LockRun s' [.request, .tick 5000000, .request, .request, .ret true] u ∧
    u.timer = s.timer.disarm := by
  have htakes : ((takes Looks Locked.step .initial Locked.aboutToTick).bind fun s =>
      (s.step (.call .disarm)).bind fun s' =>
        (takes Looks Locked.step s' [.request, .tick 5000000, .request, .request, .ret true]).map
          Locked.call) = some none := by
    decide +kernel
  obtain ⟨s, hs, htakes⟩ := Option.bind_eq_some_iff.mp htakes
  obtain ⟨s', hs', htakes⟩ := Option.bind_eq_some_iff.mp htakes
  obtain ⟨u, hu, hcall⟩ := Option.map_eq_some_iff.mp htakes
  have hstep : Guarded Looks LockSteps s (.call .disarm) s' := ⟨trivial, hs'⟩
  have hdone := call_does (Locked.run_of_takes hs) hstep (Locked.run_of_takes hu) (by simp) hcall
  exact ⟨s, s', u, Locked.run_of_takes hs, hstep, Locked.run_of_takes hu, hdone.1⟩

/-! ## After a disarm -/

def TimerEvent.isTick : TimerEvent → Bool
  | .tick _ => true
  | .call _ | .ret _ | .fork => false

/-- The ticks that a sampler has decided on and not counted. -/
def CoarsePc.owed : CoarsePc → Nat
  | .ticking _ => 1
  | .absent | .looking | .sleeping _ | .checking _ => 0

/-- Only `cbox_timer_arm` arms the timer. -/
theorem TimerCall.arm_not_mem_effects {c : TimerCall} (hc : ∀ periodNs, c ≠ .arm periodNs) (t : ThreadTimer)
    (periodNs : Nat) : .arm periodNs ∉ (c.effects t).2 := by
  cases c with
  | arm p => exact absurd rfl (hc p)
  | disarm => simp [TimerCall.effects]
  | shutdown => cases hi : t.installed <;> simp [TimerCall.effects, hi]
  | init created | afterFork created =>
    cases hi : t.installed <;> cases created <;> simp [TimerCall.effects, hi]

namespace Atomic
variable {t u : Atomic} {a : AtomicAction} {bs : List AtomicAction}

/-- The timer is disarmed and the call in progress does not arm it. -/
structure Quiet (t : Atomic) : Prop where
  isArmed : t.timer.isArmed = false
  effects : ∀ periodNs, .arm periodNs ∉ t.effects

/-- An effect other than arming leaves the timer quiet, and owes no more. -/
theorem Quiet.apply {e : TimerEffect} (h : t.Quiet) (he : ∀ periodNs, e ≠ .arm periodNs)
    (hstep : t.apply e = some u) : u.Quiet ∧ u.sampler.owed ≤ t.sampler.owed := by
  cases e with
  | create =>
    cases hstep
    exact ⟨⟨h.isArmed, h.effects⟩, Nat.zero_le _⟩
  | arm periodNs => exact absurd rfl (he periodNs)
  | disarm | shutdown | reset =>
    cases hstep
    exact ⟨⟨rfl, h.effects⟩, le_rfl⟩
  | joined =>
    simp only [Atomic.apply] at hstep
    split at hstep
    case isFalse => cases hstep
    case isTrue =>
      cases hstep
      exact ⟨⟨h.isArmed, h.effects⟩, le_rfl⟩

/-- One step: a tick is one that was owed. -/
theorem Quiet.step (h : t.Quiet) (ha : ∀ periodNs, a ≠ .call (.arm periodNs))
    (hstep : AtomicSteps t a u) :
    u.Quiet ∧ a.event.toList.countP TimerEvent.isTick + u.sampler.owed ≤ t.sampler.owed := by
  cases a with
  | call c =>
    simp only [AtomicSteps, Atomic.step] at hstep
    split at hstep
    case isFalse => cases hstep
    case isTrue =>
      cases hstep
      have hc : ∀ periodNs, c ≠ .arm periodNs := fun periodNs heq => ha periodNs (by rw [heq])
      exact ⟨⟨h.isArmed, TimerCall.arm_not_mem_effects hc t.timer⟩,
        by simp [AtomicAction.event, TimerEvent.isTick]⟩
  | effect =>
    simp only [AtomicSteps, Atomic.step] at hstep
    cases heffects : t.effects with
    | nil => simp [heffects] at hstep
    | cons e rest =>
      simp only [heffects] at hstep
      have hrest : Quiet { t with effects := rest } := by
        refine ⟨h.isArmed, ?_⟩
        intro periodNs hmem
        apply h.effects periodNs
        rw [heffects]
        exact List.mem_cons_of_mem _ hmem
      have he : ∀ periodNs, e ≠ .arm periodNs := by
        intro periodNs heq
        apply h.effects periodNs
        rw [heffects, heq]
        exact List.mem_cons_self
      obtain ⟨hu, howed⟩ := hrest.apply he hstep
      exact ⟨hu, by simpa [AtomicAction.event] using howed⟩
  | ret result =>
    simp only [AtomicSteps, Atomic.step] at hstep
    split at hstep
    case isFalse => cases hstep
    case isTrue =>
      cases hstep
      exact ⟨⟨h.isArmed, h.effects⟩, by simp [AtomicAction.event, TimerEvent.isTick]⟩
  | look =>
    simp only [AtomicSteps, Atomic.step, h.isArmed, Bool.false_eq_true, if_false] at hstep
    split at hstep
    case isFalse => cases hstep
    case isTrue =>
      split at hstep
      case isFalse => cases hstep
      case isTrue =>
        cases hstep
        exact ⟨⟨h.isArmed, h.effects⟩, Nat.zero_le _⟩
  | sleepOver =>
    simp only [AtomicSteps, Atomic.step] at hstep
    split at hstep
    · cases hstep
      exact ⟨⟨h.isArmed, h.effects⟩, Nat.zero_le _⟩
    · cases hstep
  | recheck =>
    -- the flag is down: the sampler goes back to look
    simp only [AtomicSteps, Atomic.step, h.isArmed, Bool.false_eq_true, if_false] at hstep
    split at hstep
    · cases hstep
      exact ⟨⟨h.isArmed, h.effects⟩, Nat.zero_le _⟩
    · cases hstep
  | tick periodNs =>
    simp only [AtomicSteps, Atomic.step] at hstep
    split at hstep
    case isFalse => cases hstep
    case isTrue hticking =>
      cases hstep
      refine ⟨⟨h.isArmed, h.effects⟩, ?_⟩
      rw [hticking]
      simp [AtomicAction.event, TimerEvent.isTick, CoarsePc.owed]
  | fork =>
    simp only [AtomicSteps, Atomic.step] at hstep
    split at hstep
    case isFalse => cases hstep
    case isTrue =>
      cases hstep
      exact ⟨⟨h.isArmed, h.effects⟩, by simp [AtomicAction.event, TimerEvent.isTick, CoarsePc.owed]⟩

/-- Over a run, the ticks are those owed at its start. -/
theorem Quiet.run (h : t.Quiet) (hrun : Run AtomicSteps t bs u)
    (hbs : ∀ periodNs, .call (.arm periodNs) ∉ bs.filterMap AtomicAction.event) :
    (bs.filterMap AtomicAction.event).countP TimerEvent.isTick + u.sampler.owed ≤ t.sampler.owed := by
  induction hrun with
  | nil t => simp
  | @cons t u v a bs hstep _ ih =>
    have hevents : (a :: bs).filterMap AtomicAction.event =
        a.event.toList ++ bs.filterMap AtomicAction.event := by
      rw [List.filterMap_cons]
      cases a.event <;> rfl
    rw [hevents] at hbs ⊢
    have ha : ∀ periodNs, a ≠ .call (.arm periodNs) := by
      intro periodNs heq
      apply hbs periodNs
      rw [heq]
      exact List.mem_append_left _ List.mem_cons_self
    obtain ⟨hu, howed⟩ := h.step ha hstep
    have hrest := ih hu fun periodNs hmem => hbs periodNs (List.mem_append_right _ hmem)
    rw [List.countP_append]
    omega

end Atomic

/-- **A disarmed timer is quiet.** When no call is in progress and the timer is not armed, all that can come
until the next call of `cbox_timer_arm` is the tick that the sampler has already decided on, and nothing when
the timer has been shut down. This is so whatever else is called, and in the children too. -/
theorem disarmed_quiet {as bs : List LockAction} {s u : Locked} (h : LockRun .initial as s)
    (hcall : s.call = none) (harmed : s.timer.isArmed = false) (hrest : LockRun s bs u)
    (hbs : ∀ periodNs, .call (.arm periodNs) ∉ bs) :
    (bs.filterMap LockAction.event).countP TimerEvent.isTick ≤ s.sampler.view.owed ∧
      (s.timer.installed = false → (bs.filterMap LockAction.event).countP TimerEvent.isTick = 0) := by
  obtain ⟨t, hlike⟩ := Locked.LooksLike.of_run h
  have hstage := hlike.stage
  rw [hlike.idle hcall] at hstage
  obtain ⟨htimer, heffects, hsettled⟩ := hstage.settled
  have hquiet : t.Quiet := by
    refine ⟨htimer ▸ harmed, ?_⟩
    intro periodNs
    simp [heffects]
  -- The atomic timer has the same events, and the bound is read off it.
  obtain ⟨cs, u', hcs, htrace, -⟩ := Locked.simulates.run hlike hrest
  have hticks := hquiet.run hcs fun periodNs hmem => hbs periodNs (Locked.call_mem (htrace ▸ hmem))
  rw [htrace, hlike.sampler] at hticks
  refine ⟨by omega, ?_⟩
  intro hinstalled
  rw [htimer] at hinstalled
  rw [hsettled.sampler hinstalled] at hticks
  have howed : CoarsePc.owed LockPc.absent.view = 0 := rfl
  omega

/-- The tick that the sampler has decided on comes after the timer is disarmed. -/
def disarmedLate : List LockAction :=
  Locked.aboutToTick ++ [.call .disarm, .request, .request, .request, .ret true]

/-- The late tick of a timer that is disarmed while its sampler is about to tick. -/
theorem disarmed_quiet_late : ∃ s u, LockRun .initial disarmedLate s ∧
    LockRun s [.tick 5000000, .sampler, .sampler, .sampler, .wake, .sampler] u ∧
    [TimerEvent.tick 5000000].countP TimerEvent.isTick ≤ s.sampler.view.owed := by
  have htakes : ((takes Looks Locked.step .initial disarmedLate).bind fun s =>
      (takes Looks Locked.step s [.tick 5000000, .sampler, .sampler, .sampler, .wake, .sampler]).map
        fun _ => (s.call, s.timer.isArmed)) = some (none, false) := by
    decide +kernel
  obtain ⟨s, hs, htakes⟩ := Option.bind_eq_some_iff.mp htakes
  obtain ⟨u, hu, hflags⟩ := Option.map_eq_some_iff.mp htakes
  cases hcall : s.call with
  | some => simp [hcall] at hflags
  | none =>
    have harmed : s.timer.isArmed = false := congrArg Prod.snd hflags
    exact ⟨s, u, Locked.run_of_takes hs, Locked.run_of_takes hu,
      (disarmed_quiet (Locked.run_of_takes hs) hcall harmed (Locked.run_of_takes hu) (by simp)).1⟩

end CboxTelemetry.Profiler
