import CboxTelemetry.Profiler.TimerAtomic

/-!
# What the mutex of the timer thread is good for

The two threads with the mutex look like the timer without it. A call of the request thread is seen where it
stores the flag, and the sampler where it reads the period: `Locked.LooksLike` is kept by every step, and
what follows of all runs is that the mutex keeps the two threads apart and no signal is lost.
-/

namespace CboxTelemetry.Profiler

/-! ## The sampler -/

namespace LockPc
variable {pc : LockPc} {t u : ThreadTimer}

/-- A sampler without the lock has found nothing yet. -/
theorem found_of_not_holds (h : pc.holds = false) : pc.Found t := by
  cases pc with
  | testingArmed | testingStopping | tested | quitting | reading | read => simp [holds] at h
  | absent | locking | blocked | woken | sleeping | checking | ticking => trivial

theorem not_holds_absent (h : pc = .absent) : pc.holds = false := by
  subst h
  rfl

end LockPc

namespace Settled
variable {gone gone' : Prop} {t : ThreadTimer} {started : Bool}

theorem mono (h : Settled gone t started) (hg : gone → gone') : Settled gone' t started :=
  ⟨h.started, fun hi => hg (h.sampler hi), h.going⟩

/-- Only the two flags that a call leaves as they are matter. -/
theorem congr {u : ThreadTimer} (h : Settled gone t started) (hi : u.installed = t.installed)
    (hs : u.stopping = t.stopping) : Settled gone u started :=
  ⟨h.started.trans hi.symm, fun hu => h.sampler (hi.symm.trans hu), hs.trans h.going⟩

end Settled

namespace ThreadTimer
variable {t : ThreadTimer} {periodNs : Nat}

/-- What arming leaves when it is accepted. -/
theorem arm_of_accepted (h : (t.arm periodNs).1 = true) :
    (t.arm periodNs).2 = { t with periodNs := periodNs, isArmed := true } := by
  unfold arm at h ⊢
  split at h
  · cases h
  · rename_i hrefused
    rw [if_neg hrefused]

theorem reinstalled (h : t.installed = true) :
    { ({ t with installed := false } : ThreadTimer) with installed := true } = t := by
  rw [← h]

theorem uninstalled (h : t.installed = false) :
    { ({ t with installed := true } : ThreadTimer) with installed := false } = t := by
  rw [← h]

end ThreadTimer

/-! ## The stores of a child -/

/-- A store opens no critical section. -/
theorem critical_store {i : Instr} (hi : i ∈ resetStores) (rest : List Instr) :
    critical (i :: rest) = critical rest := by
  simp only [resetStores, List.mem_cons, List.not_mem_nil, or_false] at hi
  rcases hi with rfl | rfl | rfl | rfl | rfl <;> rfl

/-- And it writes one field. -/
theorem perform_store {i : Instr} (hi : i ∈ resetStores) (s : Locked) :
    s.perform i = some { s with
      timer := (i.store (s.timer, s.started)).1
      started := (i.store (s.timer, s.started)).2 } := by
  simp only [resetStores, List.mem_cons, List.not_mem_nil, or_false] at hi
  rcases hi with rfl | rfl | rfl | rfl | rfl <;> rfl

namespace Stage
variable {gone gone' : Prop} {f t : ThreadTimer} {started : Bool} {todo : List Instr}
  {effects : List TimerEffect}

/-- A sampler that goes away does not disturb a call. -/
theorem mono (h : Stage gone f started todo t effects) (hg : gone → gone') :
    Stage gone' f started todo t effects := by
  cases h with
  | idle h => exact .idle (h.mono hg)
  | disarmLock h => exact .disarmLock (h.mono hg)
  | disarm h => exact .disarm (h.mono hg)
  | unlock h => exact .unlock (h.mono hg)
  | armLock h ha => exact .armLock (h.mono hg) ha
  | period h ha => exact .period (h.mono hg) ha
  | arm h ha => exact .arm (h.mono hg) ha
  | signal h => exact .signal (h.mono hg)
  | stopLock h hi => exact .stopLock (h.mono hg) hi
  | stop h hi => exact .stop (h.mono hg) hi
  | stopDisarm h hi => exact .stopDisarm (h.mono hg) hi
  | stopSignal h => exact .stopSignal h
  | stopUnlock h => exact .stopUnlock h
  | join h => exact .join h
  | uninstall h hgone => exact .uninstall h (hg hgone)
  | resume h hgone => exact .resume h (hg hgone)
  | create hi hs hgone => exact .create hi hs (hg hgone)
  | started hi hs => exact .started hi hs
  | install hi hs => exact .install hi hs
  | initLock hr hgone => exact .initLock hr (hg hgone)
  | initWake hr hgone => exact .initWake hr (hg hgone)
  | reset hsuf hrun hr hgone => exact .reset hsuf hrun hr (hg hgone)

/-- The flag in the memory is the flag that is seen, as long as there is a sampler to load it. -/
theorem isArmed_eq (h : Stage gone f started todo t effects) (hg : ¬gone) : f.isArmed = t.isArmed := by
  cases h with
  | initLock _ hgone | initWake _ hgone | reset _ _ _ hgone => exact absurd hgone hg
  | _ => rfl

/-- Outside a critical section the sampler finds the timer that is seen. -/
theorem fields_eq (h : Stage gone f started todo t effects) (hg : ¬gone) (hc : critical todo = false) :
    f.stopping = t.stopping ∧ f.periodNs = t.periodNs := by
  cases h with
  | initLock _ hgone | initWake _ hgone | reset _ _ _ hgone => exact absurd hgone hg
  | arm | stopDisarm => simp [critical] at hc
  | _ => exact ⟨rfl, rfl⟩

end Stage

namespace Locked
variable {s s' : Locked} {t : Atomic}

/-- The mutex has one owner. -/
theorem LooksLike.apart (h : s.LooksLike t) (hc : critical s.todo = true) : s.sampler.holds = false := by
  have howner := h.request.mpr hc
  by_contra hholds
  rw [Bool.not_eq_false] at hholds
  rw [h.holds.mpr hholds] at howner
  cases howner

/-- The caller is outside its critical section while the sampler holds the lock. -/
theorem LooksLike.not_critical (h : s.LooksLike t) (hh : s.sampler.holds = true) :
    critical s.todo = false := by
  by_contra hc
  rw [Bool.not_eq_false] at hc
  rw [h.apart hc] at hh
  cases hh

/-! ## The steps of the sampler -/

/-- The sampler moves on where the timer as it is seen does not change. -/
theorem LooksLike.moved (h : s.LooksLike t) {pc : LockPc} {owner : Option Holder} (u : Atomic)
    (ht : u.timer = t.timer) (hc : u.call = t.call) (he : u.effects = t.effects)
    (hsampler : u.sampler = pc.view)
    (hgone : s.sampler = .absent → pc = .absent)
    (hrequest : owner = some .request ↔ s.owner = some .request)
    (hholds : owner = some .sampler ↔ pc.holds = true)
    (hparent : owner = some .parent → s.owner = some .parent)
    (hfound : pc.Found s.timer)
    (hblocked : pc = .blocked →
      (s.timer.isArmed = false ∧ s.timer.stopping = false) ∨ signalDue s.todo = true) :
    LooksLike { s with owner := owner, sampler := pc } u where
  sampler := hsampler
  call := hc.trans h.call
  stage := by
    rw [ht, he]
    exact h.stage.mono hgone
  idle := h.idle
  request := hrequest.trans h.request
  holds := hholds
  parent hp := h.parent (hparent hp)
  strayed hs := hgone (h.strayed hs)
  creates := h.creates
  found := hfound
  blocked := hblocked

/-- What the sampler sees of the timer when it has the mutex. -/
theorem LooksLike.seen (h : s.LooksLike t) (hh : s.sampler.holds = true) :
    s.timer.isArmed = t.timer.isArmed ∧ s.timer.stopping = t.timer.stopping ∧
      s.timer.periodNs = t.timer.periodNs := by
  have hgone : ¬s.sampler = .absent := by
    intro hgone
    rw [hgone] at hh
    cases hh
  exact ⟨h.stage.isArmed_eq hgone, h.stage.fields_eq hgone (h.not_critical hh)⟩

/-- The upper timer does nothing when the sampler locks the mutex, tests the flags or goes to sleep. -/
theorem LooksLike.locks (h : s.LooksLike t) (hpc : s.sampler = .locking ∨ s.sampler = .woken)
    (hfree : s.owner = none) :
    LooksLike { s with owner := some .sampler, sampler := .testingArmed } t := by
  refine h.moved t rfl rfl rfl ?_ ?_ ?_ ?_ ?_ trivial ?_
  · rcases hpc with hpc | hpc <;> rw [h.sampler, hpc] <;> rfl
  · intro hgone
    rcases hpc with hpc | hpc <;> rw [hpc] at hgone <;> cases hgone
  · simp [hfree]
  · simp [LockPc.holds]
  · intro hp
    cases hp
  · intro hb
    cases hb

/-- A step of the sampler that keeps the mutex. -/
theorem LooksLike.keeps (h : s.LooksLike t) (hh : s.sampler.holds = true) {pc : LockPc}
    (hpc : pc.holds = true) (u : Atomic) (ht : u.timer = t.timer) (hc : u.call = t.call)
    (he : u.effects = t.effects) (hsampler : u.sampler = pc.view) (hfound : pc.Found s.timer) :
    LooksLike { s with sampler := pc } u := by
  have howner := h.holds.mpr hh
  refine h.moved u ht hc he hsampler ?_ Iff.rfl ?_ id hfound ?_
  · intro hgone
    rw [hgone] at hh
    cases hh
  · simp [howner, hpc]
  · intro hb
    rw [hb] at hpc
    cases hpc

/-- A step of the sampler that unlocks the mutex. -/
theorem LooksLike.unlocks (h : s.LooksLike t) (hh : s.sampler.holds = true) {pc : LockPc}
    (hpc : pc.holds = false) (hsampler : t.sampler = pc.view)
    (hblocked : pc = .blocked → s.timer.isArmed = false ∧ s.timer.stopping = false) :
    LooksLike { s with owner := none, sampler := pc } t := by
  have howner := h.holds.mpr hh
  refine h.moved t rfl rfl rfl hsampler ?_ ?_ ?_ ?_ (LockPc.found_of_not_holds hpc) ?_
  · intro hgone
    rw [hgone] at hh
    cases hh
  · simp [howner]
  · simp [hpc]
  · intro hp
    cases hp
  · intro hb
    exact .inl (hblocked hb)

/-- A step of the sampler without the mutex. -/
theorem LooksLike.runs (h : s.LooksLike t) (hh : s.sampler.holds = false) {pc : LockPc}
    (hgone : ¬s.sampler = .absent) (hpc : pc.holds = false) (hblocked : ¬pc = .blocked) (u : Atomic)
    (ht : u.timer = t.timer) (hc : u.call = t.call) (he : u.effects = t.effects)
    (hsampler : u.sampler = pc.view) : LooksLike { s with sampler := pc } u := by
  refine h.moved u ht hc he hsampler ?_ Iff.rfl ?_ id (LockPc.found_of_not_holds hpc) ?_
  · intro hg
    exact absurd hg hgone
  · rw [h.holds, hh, hpc]
  · intro hb
    exact absurd hb hblocked

/-- The atomic sampler answers each step of the locked one, with one step of its own or by staying. -/
theorem LooksLike.answers_sampler (h : s.LooksLike t) (hstep : s.samplerStep = some s') :
    Answers AtomicSteps AtomicAction.event t none s'.LooksLike := by
  have hview := h.sampler
  cases hpc : s.sampler with
  | absent | blocked | ticking => simp [samplerStep, hpc] at hstep
  | locking | woken =>
    simp only [samplerStep, hpc] at hstep
    split at hstep
    case isFalse => cases hstep
    case isTrue hfree =>
      cases hstep
      apply Answers.stay
      apply h.locks _ hfree
      simp [hpc]
  | testingArmed =>
    simp only [samplerStep, hpc] at hstep
    cases hstep
    rw [hpc] at hview
    have hh : s.sampler.holds = true := by rw [hpc]; rfl
    apply Answers.stay
    by_cases ha : s.timer.isArmed = true
    · rw [if_pos ha]
      exact h.keeps hh rfl t rfl rfl rfl hview (.inl ha)
    · rw [if_neg ha]
      rw [Bool.not_eq_true] at ha
      exact h.keeps hh rfl t rfl rfl rfl hview ha
  | testingStopping =>
    rw [hpc] at hview
    have hh : s.sampler.holds = true := by rw [hpc]; rfl
    have ha : s.timer.isArmed = false := by
      have hfound := h.found
      rwa [hpc] at hfound
    simp only [samplerStep, hpc] at hstep
    apply Answers.stay
    split at hstep
    case isTrue hs =>
      cases hstep
      exact h.keeps hh rfl t rfl rfl rfl hview (.inr hs)
    case isFalse hs =>
      cases hstep
      rw [Bool.not_eq_true] at hs
      apply h.unlocks hh (show LockPc.holds .blocked = false from rfl) hview
      intro _
      exact ⟨ha, hs⟩
  | tested =>
    rw [hpc] at hview
    have hh : s.sampler.holds = true := by rw [hpc]; rfl
    have hfound : s.timer.isArmed = true ∨ s.timer.stopping = true := by
      have hfound := h.found
      rwa [hpc] at hfound
    obtain ⟨-, hstopping, -⟩ := h.seen hh
    simp only [samplerStep, hpc] at hstep
    cases hstep
    by_cases hs : s.timer.stopping = true
    · -- the thread that is about to quit is already gone for whoever looks from above
      rw [if_pos hs]
      refine Answers.one .look { t with sampler := .absent } ?_ rfl
        (h.keeps hh rfl _ rfl rfl rfl rfl hs)
      rw [hstopping] at hs
      simp [AtomicSteps, Atomic.step, hview, LockPc.view, hs]
    · rw [if_neg hs]
      apply Answers.stay
      refine h.keeps hh rfl t rfl rfl rfl hview ⟨?_, by simpa using hs⟩
      rcases hfound with ha | ha
      · exact ha
      · exact absurd ha hs
  | quitting =>
    rw [hpc] at hview
    have hh : s.sampler.holds = true := by rw [hpc]; rfl
    simp only [samplerStep, hpc] at hstep
    cases hstep
    apply Answers.stay
    apply h.unlocks hh (show LockPc.holds .absent = false from rfl) hview
    intro hb
    cases hb
  | reading =>
    rw [hpc] at hview
    have hh : s.sampler.holds = true := by rw [hpc]; rfl
    have hfound : s.timer.isArmed = true ∧ s.timer.stopping = false := by
      have hfound := h.found
      rwa [hpc] at hfound
    -- The three fields are read under the lock, so they are what the atomic timer has at this moment.
    obtain ⟨hisArmed, hstopping, hperiod⟩ := h.seen hh
    simp only [samplerStep, hpc] at hstep
    cases hstep
    refine Answers.one .look { t with sampler := .sleeping s.timer.periodNs } ?_ rfl
      (h.keeps hh rfl _ rfl rfl rfl rfl trivial)
    obtain ⟨ha, hs⟩ := hfound
    rw [hisArmed] at ha
    rw [hstopping] at hs
    simp [AtomicSteps, Atomic.step, hview, LockPc.view, ha, hs, hperiod]
  | read periodNs =>
    rw [hpc] at hview
    have hh : s.sampler.holds = true := by rw [hpc]; rfl
    simp only [samplerStep, hpc] at hstep
    cases hstep
    apply Answers.stay
    apply h.unlocks hh (show LockPc.holds (.sleeping periodNs) = false from rfl) hview
    intro hb
    cases hb
  | sleeping periodNs =>
    rw [hpc] at hview
    have hh : s.sampler.holds = false := by rw [hpc]; rfl
    simp only [samplerStep, hpc] at hstep
    cases hstep
    refine Answers.one .sleepOver { t with sampler := .checking periodNs } ?_ rfl
      (h.runs hh (by simp [hpc]) rfl (by simp) _ rfl rfl rfl rfl)
    simp [AtomicSteps, Atomic.step, hview, LockPc.view]
  | checking periodNs =>
    rw [hpc] at hview
    have hh : s.sampler.holds = false := by rw [hpc]; rfl
    have hgone : ¬s.sampler = .absent := by simp [hpc]
    have hisArmed := h.stage.isArmed_eq hgone
    simp only [samplerStep, hpc] at hstep
    cases hstep
    -- no mutex here: the flag alone is what is seen
    rw [hisArmed]
    by_cases ha : t.timer.isArmed = true
    · rw [if_pos ha]
      refine Answers.one .recheck { t with sampler := .ticking periodNs } ?_ rfl
        (h.runs hh hgone rfl (by simp) _ rfl rfl rfl rfl)
      simp [AtomicSteps, Atomic.step, hview, LockPc.view, ha]
    · rw [if_neg ha]
      refine Answers.one .recheck { t with sampler := .looking } ?_ rfl
        (h.runs hh hgone rfl (by simp) _ rfl rfl rfl rfl)
      simp [AtomicSteps, Atomic.step, hview, LockPc.view, ha]

/-! ## The steps of the request thread -/

theorem step_request {i : Instr} {rest : List Instr} (htodo : s.todo = i :: rest) :
    s.step .request = { s with todo := rest }.perform i := by
  simp [step, htodo]

/-- Instructions are left in calls alone. -/
theorem LooksLike.in_call {i : Instr} {rest : List Instr} (h : s.LooksLike t)
    (htodo : s.todo = i :: rest) : ¬s.call = none := by
  intro hcall
  rw [h.idle hcall] at htodo
  cases htodo

/-- A child that has still to start a sampler has still to look at the fork. -/
theorem LooksLike.creates_rest {i : Instr} {rest : List Instr} (h : s.LooksLike t)
    (htodo : s.todo = i :: rest) (hi : ¬i = .initLock) (hcreate : .create ∈ rest)
    (hs : s.strayed = true) : .initLock ∈ rest := by
  have hinit := h.creates (by rw [htodo]; exact List.mem_cons_of_mem _ hcreate) hs
  rw [htodo] at hinit
  rcases List.mem_cons.mp hinit with heq | hrest
  · exact absurd heq.symm hi
  · exact hrest

/-- The request thread locks the mutex. -/
theorem LooksLike.lock {rest : List Instr} (h : s.LooksLike t) (htodo : s.todo = .lock :: rest)
    (hfree : s.owner = none) (hcritical : critical rest = true)
    (hstage : Stage (s.sampler = .absent) s.timer s.started rest t.timer t.effects) :
    LooksLike { s with owner := some .request, todo := rest } t := by
  have hh : s.sampler.holds = false := by
    by_contra hholds
    rw [Bool.not_eq_false] at hholds
    rw [h.holds.mpr hholds] at hfree
    cases hfree
  exact {
    sampler := h.sampler
    call := h.call
    stage := hstage
    idle := fun hcall => absurd hcall (h.in_call htodo)
    request := by simp [hcritical]
    holds := by simp [hh]
    parent := fun hp => by cases hp
    strayed := h.strayed
    creates := h.creates_rest htodo (by simp)
    found := h.found
    blocked := by
      have hblocked := h.blocked
      rwa [htodo] at hblocked }

/-- The request thread unlocks the mutex: it has signalled by then. -/
theorem LooksLike.unlock {rest : List Instr} (h : s.LooksLike t) (htodo : s.todo = .unlock :: rest)
    (hcritical : critical rest = false)
    (hstage : Stage (s.sampler = .absent) s.timer s.started rest t.timer t.effects) :
    LooksLike { s with owner := none, todo := rest } t where
  sampler := h.sampler
  call := h.call
  stage := hstage
  idle hcall := absurd hcall (h.in_call htodo)
  request := by simp [hcritical]
  holds := by
    have hh := h.apart (by rw [htodo]; rfl)
    simp [hh]
  parent hp := by cases hp
  strayed := h.strayed
  creates := h.creates_rest htodo (by simp)
  found := h.found
  blocked hb := by
    rcases h.blocked hb with hflags | hdue
    · exact .inl hflags
    · rw [htodo] at hdue
      cases hdue

/-- The request thread signals: afterwards nobody is blocked. -/
theorem LooksLike.signal {rest : List Instr} (h : s.LooksLike t) (htodo : s.todo = .signal :: rest)
    (hcritical : critical rest = true)
    (hstage : Stage (s.sampler = .absent) s.timer s.started rest t.timer t.effects) :
    LooksLike { s with
      sampler := if s.sampler = .blocked then .woken else s.sampler
      todo := rest } t := by
  have hc : critical s.todo = true := by
    rw [htodo]
    exact hcritical
  have hh := h.apart hc
  have howner := h.request.mpr hc
  -- A blocked sampler is woken. Nobody else waits for the signal.
  by_cases hb : s.sampler = .blocked
  · rw [if_pos hb]
    have hview := h.sampler
    rw [hb] at hview
    exact {
      sampler := hview
      call := h.call
      stage := hstage.mono fun hgone => by rw [hb] at hgone; cases hgone
      idle := fun hcall => absurd hcall (h.in_call htodo)
      request := by simp [howner, hcritical]
      holds := by simp [howner, LockPc.holds]
      parent := fun hp => by rw [howner] at hp; cases hp
      strayed := fun hs => by
        have hgone := h.strayed hs
        rw [hb] at hgone
        cases hgone
      creates := h.creates_rest htodo (by simp)
      found := trivial
      blocked := fun hwoken => by cases hwoken }
  · rw [if_neg hb]
    exact {
      sampler := h.sampler
      call := h.call
      stage := hstage
      idle := fun hcall => absurd hcall (h.in_call htodo)
      request := by simp [howner, hcritical]
      holds := h.holds
      parent := h.parent
      strayed := h.strayed
      creates := h.creates_rest htodo (by simp)
      found := h.found
      blocked := fun hblocked => absurd hblocked hb }

/-- The request thread stores something, in its critical section or where it does not matter to the
sampler. -/
theorem LooksLike.stores {i : Instr} {rest : List Instr} {f : ThreadTimer} {started : Bool}
    (h : s.LooksLike t) (htodo : s.todo = i :: rest) (hi : ¬i = .initLock) (u : Atomic)
    (hsampler : u.sampler = t.sampler) (hcall : u.call = t.call) (hcritical : critical rest = critical s.todo)
    (hstage : Stage (s.sampler = .absent) f started rest u.timer u.effects)
    (hfound : s.sampler.Found f)
    (hblocked : s.sampler = .blocked →
      (f.isArmed = false ∧ f.stopping = false) ∨ signalDue rest = true) :
    LooksLike { s with timer := f, started := started, todo := rest } u where
  sampler := hsampler.trans h.sampler
  call := hcall.trans h.call
  stage := hstage
  idle hnone := absurd hnone (h.in_call htodo)
  request := by rw [hcritical]; exact h.request
  holds := h.holds
  parent := h.parent
  strayed := h.strayed
  creates := h.creates_rest htodo hi
  found := hfound
  blocked := hblocked

/-- The caller takes the lock, and the atomic timer stays. -/
theorem LooksLike.answers_lock {rest : List Instr} (h : s.LooksLike t) (htodo : s.todo = .lock :: rest)
    (hstep : s.step .request = some s') (hcritical : critical rest = true)
    (hstage : Stage (s.sampler = .absent) s.timer s.started rest t.timer t.effects) :
    Answers AtomicSteps AtomicAction.event t none s'.LooksLike := by
  rw [step_request htodo] at hstep
  simp only [perform] at hstep
  split at hstep
  case isFalse => cases hstep
  case isTrue hfree =>
    cases hstep
    exact .stay (h.lock htodo hfree hcritical hstage)

/-- It gives the lock back, and the atomic timer stays. -/
theorem LooksLike.answers_unlock {rest : List Instr} (h : s.LooksLike t)
    (htodo : s.todo = .unlock :: rest) (hstep : s.step .request = some s')
    (hcritical : critical rest = false)
    (hstage : Stage (s.sampler = .absent) s.timer s.started rest t.timer t.effects) :
    Answers AtomicSteps AtomicAction.event t none s'.LooksLike := by
  rw [step_request htodo] at hstep
  cases hstep
  exact .stay (h.unlock htodo hcritical hstage)

/-- It signals, and the atomic timer stays. -/
theorem LooksLike.answers_signal {rest : List Instr} (h : s.LooksLike t)
    (htodo : s.todo = .signal :: rest) (hstep : s.step .request = some s')
    (hcritical : critical rest = true)
    (hstage : Stage (s.sampler = .absent) s.timer s.started rest t.timer t.effects) :
    Answers AtomicSteps AtomicAction.event t none s'.LooksLike := by
  rw [step_request htodo] at hstep
  cases hstep
  exact .stay (h.signal htodo hcritical hstage)

/-- The sampler is started: it is seen at the same moment. -/
theorem LooksLike.answers_create {rest : List Instr} (h : s.LooksLike t)
    (htodo : s.todo = .create :: rest) (hstep : s.step .request = some s')
    (hgone : s.sampler = .absent) (heffects : t.effects = [.create])
    (hcritical : critical rest = false) (hinit : .initLock ∉ rest)
    (hstage : Stage False s.timer s.started rest { t.timer with installed := true } []) :
    Answers AtomicSteps AtomicAction.event t none s'.LooksLike := by
  rw [step_request htodo] at hstep
  cases hstep
  have hh := LockPc.not_holds_absent hgone
  -- A child that looked has the lock set up again before it creates.
  have hstrayed : s.strayed = false := by
    by_contra hs
    rw [Bool.not_eq_false] at hs
    have hlook := h.creates (by simp [htodo]) hs
    rw [htodo] at hlook
    simp [hinit] at hlook
  refine Answers.one .effect
    { t with timer := { t.timer with installed := true }, sampler := .looking, effects := [] } ?_ rfl ?_
  · simp [AtomicSteps, Atomic.step, heffects, Atomic.apply]
  · exact {
      sampler := rfl
      call := h.call
      stage := hstage.mono False.elim
      idle := fun hcall => absurd hcall (h.in_call htodo)
      request := by
        rw [h.request, htodo, hcritical]
        exact Iff.of_eq (congrArg (· = true) hcritical)
      holds := by rw [h.holds, hh]; rfl
      parent := h.parent
      strayed := fun hs => by rw [hstrayed] at hs; cases hs
      creates := fun _ hs => by rw [hstrayed] at hs; cases hs
      found := trivial
      blocked := fun hb => by cases hb }

/-- The child makes the mutex its own. -/
theorem LooksLike.answers_initLock {rest : List Instr} (h : s.LooksLike t)
    (htodo : s.todo = .initLock :: rest) (hstep : s.step .request = some s')
    (hgone : s.sampler = .absent) (hcritical : critical rest = false)
    (hstage : Stage (s.sampler = .absent) s.timer s.started rest t.timer t.effects) :
    Answers AtomicSteps AtomicAction.event t none s'.LooksLike := by
  rw [step_request htodo] at hstep
  cases hstep
  exact .stay {
    sampler := h.sampler
    call := h.call
    stage := hstage
    idle := fun hcall => absurd hcall (h.in_call htodo)
    request := by simp [hcritical]
    holds := by simp [LockPc.not_holds_absent hgone]
    parent := fun hp => by cases hp
    strayed := fun hs => by cases hs
    creates := fun _ hs => by cases hs
    found := h.found
    blocked := fun hb => by rw [hgone] at hb; cases hb }

/-- A store of the child: the last one is where the reset is seen. -/
theorem LooksLike.answers_store {i : Instr} {stores rest : List Instr} {effects : List TimerEffect}
    (h : s.LooksLike t) (htodo : s.todo = i :: stores ++ rest) (heffects : t.effects = .reset :: effects)
    (hstep : s.step .request = some s') (hsuf : (i :: stores) <:+ resetStores)
    (hrun : (i :: stores).foldl Instr.store (s.timer, s.started) = (.blank, false))
    (hr : Restart rest effects) (hgone : s.sampler = .absent) :
    Answers AtomicSteps AtomicAction.event t none s'.LooksLike := by
  have hi : i ∈ resetStores := hsuf.subset List.mem_cons_self
  have hne : ¬i = .initLock := by
    intro heq
    rw [heq] at hi
    simp [resetStores] at hi
  have hcritical : critical (stores ++ rest) = critical s.todo := by
    rw [htodo]
    exact (critical_store hi _).symm
  rw [step_request htodo, perform_store hi] at hstep
  cases hstep
  -- The last store is where the atomic timer becomes blank. The earlier ones nobody sees.
  cases stores with
  | cons j stores =>
    apply Answers.stay
    refine h.stores htodo hne t rfl rfl hcritical ?_ ?_ ?_
    · rw [heffects]
      exact .reset ((List.suffix_cons i _).trans hsuf) hrun hr hgone
    · rw [hgone]
      trivial
    · intro hb
      rw [hgone] at hb
      cases hb
  | nil =>
    have hblank : i.store (s.timer, s.started) = (.blank, false) := hrun
    refine Answers.one .effect { t with timer := .blank, effects := effects } ?_ rfl ?_
    · simp [AtomicSteps, Atomic.step, heffects, Atomic.apply]
    · refine h.stores htodo hne _ rfl rfl hcritical ?_ ?_ ?_
      · rw [hblank]
        cases hr with
        | none => exact .idle ⟨rfl, fun _ => hgone, rfl⟩
        | create => exact .create rfl rfl hgone
      · rw [hgone]
        trivial
      · intro hb
        rw [hgone] at hb
        cases hb

/-- The atomic timer answers each instruction of the caller. -/
theorem LooksLike.answers_request (h : s.LooksLike t) (hstep : s.step .request = some s') :
    Answers AtomicSteps AtomicAction.event t none s'.LooksLike := by
  obtain ⟨f, started, owner, pc, call, todo, strayed⟩ := s
  obtain ⟨timer, coarse, result, effects⟩ := t
  have hstage : Stage (pc = .absent) f started todo timer effects := h.stage
  cases hstage with
  | idle => cases hstep
  | disarmLock hs => exact h.answers_lock rfl hstep rfl (.disarm hs)
  | armLock hs ha => exact h.answers_lock rfl hstep rfl (.period hs ha)
  | stopLock hs hi => exact h.answers_lock rfl hstep rfl (.stop hs hi)
  | unlock hs => exact h.answers_unlock rfl hstep rfl (.idle hs)
  | stopUnlock hs => exact h.answers_unlock rfl hstep rfl (.join hs)
  | signal hs => exact h.answers_signal rfl hstep rfl (.unlock hs)
  | stopSignal hs => exact h.answers_signal rfl hstep rfl (.stopUnlock hs)
  | disarm hs =>
    cases hstep
    refine Answers.one .effect ⟨f.disarm, coarse, result, []⟩ rfl rfl ?_
    refine h.stores rfl (by simp) _ rfl rfl rfl (.unlock (hs.congr rfl rfl))
      (LockPc.found_of_not_holds (h.apart rfl)) ?_
    intro hb
    -- a blocked sampler stays blocked: the flag was false already
    rcases h.blocked hb with hflags | hdue
    · exact .inl ⟨rfl, hflags.2⟩
    · cases hdue
  | period hs ha =>
    cases hstep
    exact .stay (h.stores rfl (by simp) _ rfl rfl rfl (.arm hs ha)
      (LockPc.found_of_not_holds (h.apart rfl)) fun _ => .inr rfl)
  | @arm _ _ periodNs hs ha =>
    cases hstep
    refine Answers.one .effect ⟨(timer.arm periodNs).2, coarse, result, []⟩ rfl rfl ?_
    refine h.stores rfl (by simp) _ rfl rfl rfl ?_ (LockPc.found_of_not_holds (h.apart rfl))
      fun _ => .inr rfl
    rw [ThreadTimer.arm_of_accepted ha]
    exact .signal (hs.congr rfl rfl)
  | stop hs hi =>
    cases hstep
    exact .stay (h.stores rfl (by simp) _ rfl rfl rfl (.stopDisarm hs hi)
      (LockPc.found_of_not_holds (h.apart rfl)) fun _ => .inr rfl)
  | stopDisarm hs hi =>
    cases hstep
    obtain rfl : started = true := hs.started.trans hi
    refine Answers.one .effect ⟨timer.shutdown, coarse, result, [.joined]⟩ rfl rfl ?_
    exact h.stores rfl (by simp) _ rfl rfl rfl (.stopSignal ⟨hi, rfl, rfl⟩)
      (LockPc.found_of_not_holds (h.apart rfl)) fun _ => .inr rfl
  | join hs =>
    rw [step_request rfl] at hstep
    simp only [perform, if_true] at hstep
    split at hstep
    case isFalse => cases hstep
    case isTrue hgone =>
      cases hstep
      subst hgone
      exact .stay (h.stores rfl (by simp) _ rfl rfl rfl (.uninstall hs rfl) trivial
        fun hb => by cases hb)
  | uninstall hs hgone =>
    cases hstep
    subst hgone
    exact .stay (h.stores rfl (by simp) _ rfl rfl rfl (.resume hs rfl) trivial fun hb => by cases hb)
  | resume hs hgone =>
    cases hstep
    subst hgone
    have habsent : coarse = .absent := h.sampler
    refine Answers.one .effect ⟨timer.joined, coarse, result, []⟩ ?_ rfl ?_
    · simp [AtomicSteps, Atomic.step, Atomic.apply, habsent]
    · exact h.stores rfl (by simp) _ rfl rfl rfl (.idle ⟨rfl, fun _ => rfl, rfl⟩) trivial
        fun hb => by cases hb
  | create hi hs hgone =>
    refine h.answers_create rfl hstep hgone rfl rfl (by simp) ?_
    have hstarted : Stage False { ({ f with installed := true } : ThreadTimer) with installed := false }
        false [.setStarted true, .setInstalled true] { f with installed := true } [] := .started rfl hs
    rwa [ThreadTimer.uninstalled hi] at hstarted
  | started hi hs =>
    cases hstep
    exact .stay (h.stores rfl (by simp) _ rfl rfl rfl (.install hi hs) h.found fun hb => h.blocked hb)
  | install hi hs =>
    cases hstep
    refine .stay (h.stores rfl (by simp) _ rfl rfl rfl ?_ h.found fun hb => h.blocked hb)
    have hsettled : Settled (pc = .absent) timer true := by
      refine ⟨hi.symm, ?_, hs⟩
      intro hn
      rw [hi] at hn
      cases hn
    show Stage _ { ({ timer with installed := false } : ThreadTimer) with installed := true } true [] timer []
    rw [ThreadTimer.reinstalled hi]
    exact .idle hsettled
  | initLock hr hgone =>
    refine h.answers_initLock rfl hstep hgone ?_ (.initWake hr hgone)
    cases hr <;> rfl
  | initWake hr hgone =>
    cases hstep
    subst hgone
    refine .stay (h.stores rfl (by simp) _ rfl rfl rfl ?_ trivial fun hb => by cases hb)
    exact .reset (List.suffix_refl _) rfl hr rfl
  | reset hsuf hrun hr hgone => exact h.answers_store rfl rfl hstep hsuf hrun hr hgone

end Locked

/-! ## The other steps -/

/-- The program of a call returns what its effects do. -/
theorem TimerCall.program_result (c : TimerCall) (t : ThreadTimer) :
    (c.program t.installed).1 = (c.effects t).1 := by
  cases c with
  | init created => cases hi : t.installed <;> cases created <;> simp [program, initProgram, effects, hi]
  | arm periodNs => simp only [program, armProgram, effects, ThreadTimer.arm]; split <;> rfl
  | disarm | shutdown | afterFork => rfl

/-- A call begins outside the critical sections. -/
theorem TimerCall.program_not_critical (c : TimerCall) (installed : Bool) :
    critical (c.program installed).2 = false := by
  cases c with
  | init created => cases installed <;> cases created <;> rfl
  | arm periodNs => simp only [program, armProgram]; split <;> rfl
  | disarm => rfl
  | shutdown => cases installed <;> rfl
  | afterFork created => cases installed <;> cases created <;> rfl

/-- What a call is going to do and what will be seen of it. -/
theorem Stage.begin {gone : Prop} {t : ThreadTimer} {started : Bool} (h : Settled gone t started)
    (c : TimerCall) (hgone : ∀ created, c = .afterFork created → gone) :
    Stage gone t started (c.program t.installed).2 t (c.effects t).2 := by
  cases c with
  | init created =>
    cases hi : t.installed
    case true => simpa [TimerCall.program, initProgram, TimerCall.effects, hi] using .idle h
    case false =>
      have hstarted : started = false := h.started.trans hi
      cases created
      case false => simpa [TimerCall.program, initProgram, TimerCall.effects, hi] using .idle h
      case true =>
        subst hstarted
        simpa [TimerCall.program, initProgram, TimerCall.effects, hi]
          using .create hi h.going (h.sampler hi)
  | arm periodNs =>
    by_cases hr : (!t.installed || periodNs == 0) = true
    · simpa [TimerCall.program, armProgram, TimerCall.effects, ThreadTimer.arm, hr] using .idle h
    · have ha : (t.arm periodNs).1 = true := by simp [ThreadTimer.arm, hr]
      simpa [TimerCall.program, armProgram, TimerCall.effects, hr, ha] using .armLock h ha
  | disarm => exact .disarmLock h
  | shutdown =>
    cases hi : t.installed
    case false => simpa [TimerCall.program, shutdownProgram, TimerCall.effects, hi] using .idle h
    case true => simpa [TimerCall.program, shutdownProgram, TimerCall.effects, hi] using .stopLock h hi
  | afterFork created =>
    have hg := hgone created rfl
    simp only [TimerCall.program, afterForkProgram, TimerCall.effects, List.cons_append, List.nil_append]
    refine .initLock ?_ hg
    cases hi : t.installed <;> cases created
    case true.true => exact .create
    all_goals exact .none

/-- Without instructions left, no effect is left either. -/
theorem Stage.settled {gone : Prop} {f t : ThreadTimer} {started : Bool} {effects : List TimerEffect}
    (h : Stage gone f started [] t effects) : f = t ∧ effects = [] ∧ Settled gone t started := by
  generalize htodo : ([] : List Instr) = todo at h
  cases h with
  | idle hs => exact ⟨rfl, rfl, hs⟩
  | _ => cases htodo

namespace Locked
variable {s s' : Locked} {t : Atomic}

/-- A call that begins is at its first stage. -/
theorem LooksLike.called {c : TimerCall} (h : s.LooksLike t) (hlooks : Looks s (.call c))
    (hstep : s.step (.call c) = some s') :
    s.call = none ∧ s'.LooksLike
      { t with call := some (c.effects t.timer).1, effects := (c.effects t.timer).2 } := by
  simp only [step] at hstep
  split at hstep
  case isFalse => cases hstep
  case isTrue hcall =>
    cases hstep
    have htodo := h.idle hcall
    have hstage := h.stage
    rw [htodo] at hstage
    obtain ⟨htimer, -, hsettled⟩ := hstage.settled
    rw [htimer]
    refine ⟨hcall, ?_⟩
    exact {
      sampler := h.sampler
      call := congrArg some (c.program_result t.timer).symm
      stage := by
        refine Stage.begin hsettled c ?_
        intro created hc
        subst hc
        exact h.strayed hlooks
      idle := fun hnone => by cases hnone
      request := by
        rw [h.request, htodo, c.program_not_critical]
        rfl
      holds := h.holds
      parent := h.parent
      strayed := h.strayed
      creates := by
        intro hcreate hs
        cases c with
        | init => rw [show s.strayed = false from hlooks] at hs; cases hs
        | arm => simp only [TimerCall.program, armProgram] at hcreate; split at hcreate <;> simp at hcreate
        | disarm => simp [TimerCall.program, disarmProgram] at hcreate
        | shutdown =>
          simp only [TimerCall.program, shutdownProgram] at hcreate
          split at hcreate <;> simp at hcreate
        | afterFork => exact List.mem_cons_self
      found := htimer ▸ h.found
      blocked := fun hb => by
        rcases h.blocked hb with hflags | hdue
        · exact .inl (htimer ▸ hflags)
        · rw [htodo] at hdue
          cases hdue }

/-- The atomic timer answers a call with the same call. -/
theorem LooksLike.answers_call {c : TimerCall} (h : s.LooksLike t) (hlooks : Looks s (.call c))
    (hstep : s.step (.call c) = some s') :
    Answers AtomicSteps AtomicAction.event t (some (.call c)) s'.LooksLike := by
  obtain ⟨hcall, hcalled⟩ := h.called hlooks hstep
  refine Answers.one (.call c) _ ?_ rfl hcalled
  simp [AtomicSteps, Atomic.step, h.call, hcall]

/-- And a return with the same return. -/
theorem LooksLike.answers_ret {result : Bool} (h : s.LooksLike t)
    (hstep : s.step (.ret result) = some s') :
    Answers AtomicSteps AtomicAction.event t (some (.ret result)) s'.LooksLike := by
  simp only [step] at hstep
  split at hstep
  case isFalse => cases hstep
  case isTrue hret =>
    cases hstep
    obtain ⟨hcall, htodo⟩ := hret
    have hstage := h.stage
    rw [htodo] at hstage
    obtain ⟨-, heffects, -⟩ := hstage.settled
    refine Answers.one (.ret result) { t with call := none } ?_ rfl ?_
    · simp [AtomicSteps, Atomic.step, h.call, hcall, heffects]
    · exact { h with call := rfl, idle := fun _ => htodo }

/-- And a tick with the same tick. -/
theorem LooksLike.answers_tick {periodNs : Nat} (h : s.LooksLike t)
    (hstep : s.step (.tick periodNs) = some s') :
    Answers AtomicSteps AtomicAction.event t (some (.tick periodNs)) s'.LooksLike := by
  simp only [step] at hstep
  split at hstep
  case isFalse => cases hstep
  case isTrue hpc =>
    cases hstep
    have hview := h.sampler
    rw [hpc] at hview
    refine Answers.one (.tick periodNs) { t with sampler := .looking } ?_ rfl ?_
    · simp [AtomicSteps, Atomic.step, hview, LockPc.view]
    · exact h.runs (by rw [hpc]; rfl) (by simp [hpc]) rfl (by simp) _ rfl rfl rfl rfl

/-- A sampler that wakes up by itself finds the mutex and the flags as they are. -/
theorem LooksLike.answers_wake (h : s.LooksLike t) (hstep : s.step .wake = some s') :
    Answers AtomicSteps AtomicAction.event t none s'.LooksLike := by
  simp only [step] at hstep
  split at hstep
  case isFalse => cases hstep
  case isTrue hpc =>
    cases hstep
    have hview := h.sampler
    rw [hpc] at hview
    exact .stay (h.runs (by rw [hpc]; rfl) (by simp [hpc]) rfl (by simp) t rfl rfl rfl hview)

/-- The child has the timer of its parent and no sampler. -/
theorem LooksLike.answers_fork (h : s.LooksLike t) (hstep : s.step .fork = some s') :
    Answers AtomicSteps AtomicAction.event t (some .fork) s'.LooksLike := by
  simp only [step] at hstep
  split at hstep
  case isFalse => cases hstep
  case isTrue hcall =>
    cases hstep
    have htodo := h.idle hcall
    refine Answers.one .fork { t with sampler := .absent } ?_ rfl ?_
    · simp [AtomicSteps, Atomic.step, h.call, hcall]
    · exact {
        sampler := rfl
        call := h.call
        stage := h.stage.mono fun _ => rfl
        idle := h.idle
        request := by
          rw [htodo]
          split <;> simp [critical]
        holds := by split <;> simp [LockPc.holds]
        parent := fun _ => rfl
        strayed := fun _ => rfl
        creates := by simp [htodo]
        found := trivial
        blocked := fun hb => by cases hb }

/-- The timer without the mutex answers every step of the two threads. -/
theorem simulates : Simulates (Guarded Looks LockSteps) LockAction.event AtomicSteps AtomicAction.event
    LooksLike := by
  intro s s' t a h hstep
  obtain ⟨hlooks, hstep⟩ := hstep
  cases a with
  | call c => exact h.answers_call hlooks hstep
  | request => exact h.answers_request hstep
  | ret result => exact h.answers_ret hstep
  | sampler => exact h.answers_sampler hstep
  | tick periodNs => exact h.answers_tick hstep
  | wake => exact h.answers_wake hstep
  | fork => exact h.answers_fork hstep

/-- The two start alike. -/
theorem initial_looksLike : initial.LooksLike .initial where
  sampler := rfl
  call := rfl
  stage := .idle ⟨rfl, fun _ => rfl, rfl⟩
  idle _ := rfl
  request := by simp [initial, critical]
  holds := by simp [initial, LockPc.holds]
  parent hp := by cases hp
  strayed hs := by cases hs
  creates hc := by cases hc
  found := trivial
  blocked hb := by cases hb

end Locked

end CboxTelemetry.Profiler
