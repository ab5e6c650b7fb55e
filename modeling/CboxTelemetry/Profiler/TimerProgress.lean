import CboxTelemetry.Profiler.TimerPromises

/-!
# The calls of the timer return

The sampler lets go of the mutex after a few steps, and when it is told to stop it is gone after a few more.
So a call of the request thread can always be brought to its end by the two threads alone, and once
`cbox_timer_shutdown` waits for the sampler, every way to go on ends. The exception is a child whose parent's
sampler had the mutex at the fork: a thread that the child does not have never unlocks it.
-/

namespace CboxTelemetry.Profiler

/-- What the two threads do by themselves. -/
def LockAction.works : LockAction → Bool
  | .request | .ret _ | .sampler | .tick _ => true
  | .call _ | .wake | .fork => false

/-- How many steps the sampler needs, at most, to unlock the mutex. -/
def LockPc.toRelease : LockPc → Nat
  | .testingArmed => 5
  | .testingStopping => 4
  | .tested => 3
  | .reading => 2
  | .quitting | .read _ => 1
  | .absent | .locking | .blocked | .woken | .sleeping _ | .checking _ | .ticking _ => 0

/-- How many steps it needs to be gone when the timer stops. -/
def LockPc.toQuit : LockPc → Nat
  | .absent => 0
  | .quitting => 1
  | .tested => 2
  | .testingStopping => 3
  | .testingArmed => 4
  | .locking | .woken => 5
  | .blocked | .checking _ | .ticking _ => 6
  | .sleeping _ => 7
  | .read _ => 8
  | .reading => 9

namespace Stage
variable {gone : Prop} {f t : ThreadTimer} {started : Bool} {todo rest : List Instr}
  {effects : List TimerEffect}

/-- After the join the two flags are stored. -/
theorem join_rest (h : Stage gone f started (.join :: rest) t effects) :
    rest = [.setInstalled false, .setStopping false] := by
  generalize htodo : Instr.join :: rest = todo at h
  cases h with
  | join =>
    cases htodo
    rfl
  | @reset _ _ _ i _ _ _ hsuf =>
    have hi : i ∈ resetStores := hsuf.subset List.mem_cons_self
    rw [List.cons_append] at htodo
    cases htodo
    simp [resetStores] at hi
  | _ => cases htodo

/-- A call that is to lock the mutex begins with that. -/
theorem lock_first (h : Stage gone f started todo t effects) (hmem : .lock ∈ todo)
    (hcritical : critical todo = false) : ∃ rest, todo = .lock :: rest := by
  cases h with
  | disarmLock | armLock | stopLock => exact ⟨_, rfl⟩
  | initLock hr | initWake hr => cases hr <;> simp [resetStores] at hmem
  | @reset _ _ _ i stores rest effects hsuf _ hr =>
    have hnot : .lock ∉ i :: stores := by
      intro hin
      have hi := hsuf.subset hin
      simp [resetStores] at hi
    rcases List.mem_append.mp hmem with hin | hin
    · exact absurd hin hnot
    · cases hr <;> simp at hin
  | _ => simp at hmem

end Stage

namespace Locked
variable {s s' u : Locked} {t : Atomic} {a : LockAction} {as bs : List LockAction}

/-- The mutex belongs to a thread of the parent, and the call is going to lock it. -/
def Stuck (s : Locked) : Prop := s.owner = some .parent ∧ .lock ∈ s.todo

/-- What is left of the call in progress, and of what it waits for. -/
def toReturn (s : Locked) : Nat :=
  if s.call = none then 0
  else 16 * s.todo.length + 1 +
    match s.todo with
    | .lock :: _ => s.sampler.toRelease
    | .join :: _ => s.sampler.toQuit
    | _ => 0

/-! ## The sampler -/

/-- A sampler that holds the lock has a step, and each brings it nearer to giving the lock back. -/
theorem sampler_releases (h : s.sampler.holds = true) :
    ∃ s', s.samplerStep = some s' ∧ s'.sampler.toRelease < s.sampler.toRelease := by
  cases hpc : s.sampler with
  | absent | locking | blocked | woken | sleeping | checking | ticking =>
    rw [hpc] at h
    cases h
  | testingArmed =>
    simp only [samplerStep, hpc]
    refine ⟨_, rfl, ?_⟩
    split <;> simp [LockPc.toRelease]
  | testingStopping =>
    simp only [samplerStep, hpc]
    split
    · exact ⟨_, rfl, by simp [LockPc.toRelease]⟩
    · exact ⟨_, rfl, by simp [LockPc.toRelease]⟩
  | tested =>
    simp only [samplerStep, hpc]
    refine ⟨_, rfl, ?_⟩
    split <;> simp [LockPc.toRelease]
  | quitting | reading | read =>
    simp only [samplerStep, hpc]
    exact ⟨_, rfl, by simp [LockPc.toRelease]⟩

/-- Of a timer that stops the sampler finds its way out. -/
theorem sampler_quits (hstopping : s.timer.stopping = true) (harmed : s.timer.isArmed = false)
    (hfound : s.sampler.Found s.timer) (hstep : s.samplerStep = some s') :
    s'.sampler.toQuit < s.sampler.toQuit := by
  cases hpc : s.sampler with
  | absent | blocked | ticking => simp [samplerStep, hpc] at hstep
  | locking | woken =>
    simp only [samplerStep, hpc] at hstep
    split at hstep
    case isFalse => cases hstep
    case isTrue =>
      cases hstep
      simp [LockPc.toQuit]
  | reading =>
    rw [hpc] at hfound
    obtain ⟨-, hs⟩ := hfound
    rw [hstopping] at hs
    cases hs
  | _ =>
    simp only [samplerStep, hpc, hstopping, harmed, if_true] at hstep
    cases hstep
    simp [LockPc.toQuit]

/-- It can always go on when nobody else has the mutex. -/
theorem sampler_goes_on (hpc : ¬s.sampler = .absent) (hblocked : ¬s.sampler = .blocked)
    (hticking : ∀ periodNs, ¬s.sampler = .ticking periodNs)
    (hfree : s.sampler.holds = false → s.owner = none) : ∃ s', s.samplerStep = some s' := by
  cases h : s.sampler with
  | absent => exact absurd h hpc
  | blocked => exact absurd h hblocked
  | ticking periodNs => exact absurd h (hticking periodNs)
  | locking | woken =>
    have hnone : s.owner = none := by
      apply hfree
      rw [h]
      rfl
    simp [samplerStep, h, hnone]
  | testingStopping =>
    simp only [samplerStep, h]
    split <;> exact ⟨_, rfl⟩
  | _ => simp [samplerStep, h]

/-! ## The request thread -/

/-- The measure is bounded by the instructions left. -/
theorem toReturn_le : s.toReturn ≤ 16 * s.todo.length + 10 := by
  have hrelease : s.sampler.toRelease ≤ 5 := by
    cases s.sampler <;> simp [LockPc.toRelease]
  have hquit : s.sampler.toQuit ≤ 9 := by
    cases s.sampler <;> simp [LockPc.toQuit]
  unfold toReturn
  split
  · omega
  · split <;> omega

/-- And it counts each of them in a call. -/
theorem lt_toReturn (h : ¬s.call = none) : 16 * s.todo.length < s.toReturn := by
  unfold toReturn
  rw [if_neg h]
  split <;> omega

/-- Only the mutex and `pthread_join` make the request thread wait. -/
theorem perform_goes_on {i : Instr} (hlock : i = .lock → s.owner = none)
    (hjoin : i = .join → s.sampler = .absent) : ∃ s', s.perform i = some s' := by
  cases i with
  | lock => simp [perform, hlock rfl]
  | join =>
    simp only [perform, hjoin rfl, if_true]
    split <;> exact ⟨_, rfl⟩
  | _ => exact ⟨_, rfl⟩

/-- The caller's next instruction goes on unless it waits for the lock or for the sampler. -/
theorem request_goes_on {i : Instr} {rest : List Instr} (hcall : ¬s.call = none)
    (htodo : s.todo = i :: rest) (hlock : i = .lock → s.owner = none)
    (hjoin : i = .join → s.sampler = .absent) :
    ∃ s', LockSteps s .request s' ∧ s'.toReturn < s.toReturn := by
  obtain ⟨s', hperform⟩ := perform_goes_on (s := { s with todo := rest }) hlock hjoin
  refine ⟨s', (step_request htodo).trans hperform, ?_⟩
  obtain ⟨-, hrest, -⟩ := perform_frame hperform
  have hle := toReturn_le (s := s')
  have hlt := lt_toReturn hcall
  rw [hrest] at hle
  rw [htodo, List.length_cons] at hlt
  simp only at hle
  omega

/-- The sampler is what the request thread waits for. -/
theorem LooksLike.owner_of_waits {rest : List Instr} (h : s.LooksLike t) (htodo : s.todo = .lock :: rest)
    (howner : ¬s.owner = none) (hstuck : ¬s.Stuck) : s.sampler.holds = true := by
  cases hs : s.owner with
  | none => exact absurd hs howner
  | some holder =>
    cases holder with
    | sampler => exact h.holds.mp hs
    | request =>
      have hcritical := h.request.mp hs
      rw [htodo] at hcritical
      cases hcritical
    | parent =>
      apply absurd _ hstuck
      refine ⟨hs, ?_⟩
      rw [htodo]
      exact List.mem_cons_self

/-- Nobody but the sampler has the mutex while the request thread waits for it to be gone. -/
theorem LooksLike.free_of_joins {rest : List Instr} (h : s.LooksLike t) (htodo : s.todo = .join :: rest)
    (hpc : ¬s.sampler = .absent) (hh : s.sampler.holds = false) : s.owner = none := by
  have hkept := h.kept
  cases hs : s.owner with
  | none => rfl
  | some holder =>
    cases holder with
    | sampler =>
      rw [h.holds.mp hs] at hh
      cases hh
    | parent => exact absurd (h.strayed (h.parent hs)) hpc
    | request =>
      have hcritical := h.request.mp hs
      have hstage := h.stage
      rw [htodo] at hcritical hstage
      rw [hstage.join_rest] at hcritical
      cases hcritical

/-- While the request thread waits for the sampler, the sampler goes on and comes nearer to its end. -/
theorem LooksLike.joins_progress {rest : List Instr} (h : s.LooksLike t) (htodo : s.todo = .join :: rest)
    (hpc : ¬s.sampler = .absent) :
    ∃ a s', LockSteps s a s' ∧ a.works = true ∧ s'.sampler.toQuit < s.sampler.toQuit ∧
      s'.todo = s.todo ∧ s'.call = s.call := by
  obtain ⟨-, hstopping, harmed⟩ := h.kept.joins (by rw [htodo]; rfl)
  have hblocked : ¬s.sampler = .blocked := by
    intro hb
    rcases h.blocked hb with ⟨-, hs⟩ | hdue
    · rw [hstopping] at hs
      cases hs
    · -- the signal was before `pthread_join`
      have hstage := h.stage
      rw [htodo] at hdue hstage
      rw [hstage.join_rest] at hdue
      cases hdue
  by_cases hticking : ∃ periodNs, s.sampler = .ticking periodNs
  · obtain ⟨periodNs, hticking⟩ := hticking
    refine ⟨.tick periodNs, { s with sampler := .locking }, ?_, rfl, ?_, rfl, rfl⟩
    · simp [LockSteps, step, hticking]
    · rw [hticking]
      simp [LockPc.toQuit]
  · obtain ⟨s', hstep⟩ := sampler_goes_on hpc hblocked (not_exists.mp hticking) (h.free_of_joins htodo hpc)
    obtain ⟨hcall, htodo', -, -⟩ := samplerStep_frame hstep
    exact ⟨.sampler, s', hstep, rfl, sampler_quits hstopping harmed h.found hstep, htodo', hcall⟩

/-- A call in progress that is not stuck comes nearer to its return. -/
theorem LooksLike.progress (h : s.LooksLike t) (hcall : ¬s.call = none) (hstuck : ¬s.Stuck) :
    ∃ a s', LockSteps s a s' ∧ a.works = true ∧ s'.toReturn < s.toReturn := by
  cases htodo : s.todo with
  | nil =>
    obtain ⟨result, hresult⟩ := Option.ne_none_iff_exists'.mp hcall
    refine ⟨.ret result, { s with call := none }, ?_, rfl, ?_⟩
    · simp [LockSteps, step, hresult, htodo]
    · have hlt := lt_toReturn hcall
      have hzero : ({ s with call := none } : Locked).toReturn = 0 := if_pos rfl
      omega
  | cons i rest =>
    -- Waiting for the lock, the caller goes on when the sampler that holds it does.
    by_cases hlock : i = .lock ∧ ¬s.owner = none
    · obtain ⟨rfl, howner⟩ := hlock
      obtain ⟨s', hstep, hlt⟩ := sampler_releases (h.owner_of_waits htodo howner hstuck)
      obtain ⟨hcall', htodo', -, -⟩ := samplerStep_frame hstep
      refine ⟨.sampler, s', hstep, rfl, ?_⟩
      simp only [toReturn, hcall', htodo', htodo, if_neg hcall]
      omega
    -- Joining, it goes on when the sampler quits.
    · by_cases hjoin : i = .join ∧ ¬s.sampler = .absent
      · obtain ⟨rfl, hpc⟩ := hjoin
        obtain ⟨a, s', hstep, hworks, hlt, htodo', hcall'⟩ := h.joins_progress htodo hpc
        refine ⟨a, s', hstep, hworks, ?_⟩
        simp only [toReturn, hcall', htodo', htodo, if_neg hcall]
        omega
      · rw [not_and, not_not] at hlock hjoin
        obtain ⟨s', hstep, hlt⟩ := request_goes_on hcall htodo hlock hjoin
        exact ⟨.request, s', hstep, rfl, hlt⟩

/-- A step of the two threads goes on with the call and does not make it stuck. -/
theorem LooksLike.works (h : s.LooksLike t) (hcall : ¬s.call = none) (hstuck : ¬s.Stuck)
    (hworks : a.works = true) (hstep : LockSteps s a s') : (∃ t', s'.LooksLike t') ∧ ¬s'.Stuck := by
  have hlooks : Looks s a := by
    cases a with
    | call => cases hworks
    | _ => trivial
  refine ⟨simulates.related h (.single ⟨hlooks, hstep⟩), ?_⟩
  rintro ⟨howner, hmem⟩
  apply hstuck
  obtain ⟨result, hresult⟩ := Option.ne_none_iff_exists'.mp hcall
  by_cases hret : a = .ret result
  · subst hret
    simp only [LockSteps, step] at hstep
    split at hstep
    case isFalse => cases hstep
    case isTrue =>
      cases hstep
      exact ⟨howner, hmem⟩
  · obtain ⟨-, hparent, htodo⟩ := step_in_call hresult hret hstep
    exact ⟨hparent howner, htodo _ hmem⟩

/-- A child that inherited the lock and wants it has locking as its next instruction. -/
theorem LooksLike.lock_first (h : s.LooksLike t) (howner : s.owner = some .parent)
    (hmem : .lock ∈ s.todo) : ∃ rest, s.todo = .lock :: rest := by
  have hcritical : critical s.todo = false := by
    by_contra hc
    rw [Bool.not_eq_false] at hc
    rw [h.request.mpr hc] at howner
    cases howner
  exact h.stage.lock_first hmem hcritical

/-- Nothing moves in a child that waits for a thread of its parent. -/
theorem waits_for_parent {rest : List Instr} (hcall : ¬s.call = none) (howner : s.owner = some .parent)
    (htodo : s.todo = .lock :: rest) (hpc : s.sampler = .absent) (hstep : LockSteps s a s') : False := by
  cases a with
  | call c => simp [LockSteps, step, hcall] at hstep
  | fork => simp [LockSteps, step, hcall] at hstep
  | request => simp [LockSteps, step, htodo, perform, howner] at hstep
  | ret result => simp [LockSteps, step, htodo] at hstep
  | sampler => simp [LockSteps, step, samplerStep, hpc] at hstep
  | tick periodNs => simp [LockSteps, step, hpc] at hstep
  | wake => simp [LockSteps, step, hpc] at hstep

/-- And there it stays. -/
theorem LooksLike.stays (h : s.LooksLike t) (hcall : ¬s.call = none) (hstuck : s.Stuck)
    (hstep : LockSteps s a s') : False := by
  obtain ⟨howner, hmem⟩ := hstuck
  obtain ⟨rest, htodo⟩ := h.lock_first howner hmem
  exact waits_for_parent hcall howner htodo (h.strayed (h.parent howner)) hstep

end Locked

/-- The call in progress can return. -/
def Locked.CanReturn (s : Locked) : Prop :=
  ∃ bs u, Run LockSteps s bs u ∧ (∀ b ∈ bs, b.works = true) ∧ u.call = none

/-- **A call can always return**, by steps of the two threads alone, exactly if it does not wait for a mutex
that belongs to a thread of the parent; and then so many steps are enough. -/
theorem canReturn_iff {as : List LockAction} {s : Locked} (h : LockRun .initial as s)
    (hcall : ¬s.call = none) :
    (s.CanReturn ↔ ¬s.Stuck) ∧ (s.CanReturn → ∃ bs u, Run LockSteps s bs u ∧ (∀ b ∈ bs, b.works = true) ∧
      u.call = none ∧ bs.length ≤ 16 * s.todo.length + 10) := by
  obtain ⟨t, hlike⟩ := Locked.LooksLike.of_run h
  have hreturns : ¬s.Stuck → ∃ bs u, Run LockSteps s bs u ∧ (∀ b ∈ bs, b.works = true) ∧
      u.call = none ∧ bs.length ≤ s.toReturn := by
    intro hstuck
    -- What the measure goes down on is kept: the atomic timer is still followed, and the child not stuck.
    refine Run.exists_done (fun s => (∃ t, s.LooksLike t) ∧ ¬s.Stuck) Locked.toReturn ?_
      ⟨⟨t, hlike⟩, hstuck⟩
    rintro s ⟨⟨t, hlike⟩, hstuck⟩
    by_cases hidle : s.call = none
    · exact .inl hidle
    · obtain ⟨a, s', hstep, hworks, hlt⟩ := hlike.progress hidle hstuck
      exact .inr ⟨a, s', hstep, hworks, hlike.works hidle hstuck hworks hstep, hlt⟩
  have hstays : s.CanReturn → ¬s.Stuck := by
    rintro ⟨bs, u, hrun, -, hu⟩ hstuck
    cases hrun with
    | nil => exact hcall hu
    | cons hstep _ => exact hlike.stays hcall hstuck hstep
  refine ⟨⟨hstays, ?_⟩, ?_⟩
  · intro hstuck
    obtain ⟨bs, u, hrun, hworks, hu, -⟩ := hreturns hstuck
    exact ⟨bs, u, hrun, hworks, hu⟩
  · intro hcan
    obtain ⟨bs, u, hrun, hworks, hu, hle⟩ := hreturns (hstays hcan)
    exact ⟨bs, u, hrun, hworks, hu, hle.trans Locked.toReturn_le⟩

/-- A disarm that finds the mutex locked by the sampler. -/
theorem canReturn_iff_waiting : ∃ s,
    LockRun .initial (Locked.aboutToTick.take 7 ++ [.call .disarm]) s ∧ s.owner = some .sampler ∧
      (s.CanReturn ↔ ¬s.Stuck) := by
  have htakes : (takes Looks Locked.step .initial (Locked.aboutToTick.take 7 ++ [.call .disarm])).map
      (fun s => (s.owner, s.call)) = some (some .sampler, some true) := by
    decide +kernel
  obtain ⟨s, hs, hflags⟩ := Option.map_eq_some_iff.mp htakes
  obtain ⟨howner, hcall⟩ := Prod.mk.inj hflags
  exact ⟨s, Locked.run_of_takes hs, howner, (canReturn_iff (Locked.run_of_takes hs) (by simp [hcall])).1⟩

/-! ## A child -/

namespace Locked
variable {s s' child : Locked}

/-- What waits for nobody can be brought to its end by the request thread alone. -/
theorem canReturn_of_free {result : Bool} (hcall : s.call = some result) (hlock : .lock ∉ s.todo)
    (hjoin : .join ∉ s.todo) : s.CanReturn := by
  -- by induction on what is left of the call
  generalize htodo : s.todo = todo at hlock hjoin
  induction todo generalizing s with
  | nil =>
    refine ⟨[.ret result], { s with call := none }, .single ?_, by simp [LockAction.works], rfl⟩
    simp [LockSteps, step, hcall, htodo]
  | cons i rest ih =>
    rw [List.mem_cons, not_or] at hlock hjoin
    obtain ⟨s', hperform⟩ := perform_goes_on (s := { s with todo := rest })
      (fun hi => absurd hi.symm hlock.1) (fun hi => absurd hi.symm hjoin.1)
    obtain ⟨hcall', htodo', -⟩ := perform_frame hperform
    obtain ⟨bs, u, hrun, hworks, hu⟩ := ih (hcall'.trans hcall) htodo' hlock.2 hjoin.2
    refine ⟨.request :: bs, u, .cons ((step_request htodo).trans hperform) hrun, ?_, hu⟩
    exact List.forall_mem_cons.mpr ⟨rfl, hworks⟩

/-- The locks of a call come first in it, or not at all. -/
theorem lock_first_program {c : TimerCall} {installed : Bool} (h : .lock ∈ (c.program installed).2) :
    ∃ rest, (c.program installed).2 = .lock :: rest := by
  cases c with
  | init created => cases installed <;> cases created <;> simp [TimerCall.program, initProgram] at h
  | arm periodNs =>
    by_cases hrefused : (!installed || periodNs == 0) = true
    · simp [TimerCall.program, armProgram, hrefused] at h
    · simp [TimerCall.program, armProgram, hrefused]
  | disarm => exact ⟨_, rfl⟩
  | shutdown =>
    cases installed with
    | false => cases h
    | true => exact ⟨_, rfl⟩
  | afterFork created =>
    cases installed <;> cases created <;>
      simp [TimerCall.program, afterForkProgram, initProgram, resetStores] at h

/-- A call that locks nothing does not wait for the sampler either. -/
theorem join_not_mem {c : TimerCall} {installed : Bool} (h : .lock ∉ (c.program installed).2) :
    .join ∉ (c.program installed).2 := by
  cases c with
  | init created => cases installed <;> cases created <;> simp [TimerCall.program, initProgram]
  | arm periodNs =>
    by_cases hrefused : (!installed || periodNs == 0) = true <;> simp [TimerCall.program, armProgram, hrefused]
  | disarm => exact absurd List.mem_cons_self h
  | shutdown =>
    cases installed with
    | false => exact List.not_mem_nil
    | true => exact absurd List.mem_cons_self h
  | afterFork created =>
    cases installed <;> cases created <;>
      simp [TimerCall.program, afterForkProgram, initProgram, resetStores]

/-- In a child that is alone, and whose mutex is free, every call runs to its end. -/
theorem canReturn_of_alone {c : TimerCall} {installed : Bool} (howner : s.owner = none) (hpc : s.sampler = .absent)
    (hcall : s.call = some (c.program installed).1) (htodo : s.todo = (c.program installed).2) : s.CanReturn := by
  by_cases hlock : .lock ∈ (c.program installed).2
  case neg =>
    exact canReturn_of_free hcall (by rwa [htodo]) (by rw [htodo]; exact join_not_mem hlock)
  -- The three calls that lock it do so once, and no thread is there to take it from them.
  obtain ⟨timer, started, owner, sampler, call, todo, strayed⟩ := s
  cases howner
  cases hpc
  cases hcall
  cases htodo
  cases c with
  | init created => cases installed <;> cases created <;> simp [TimerCall.program, initProgram] at hlock
  | afterFork created =>
    cases installed <;> cases created <;>
      simp [TimerCall.program, afterForkProgram, initProgram, resetStores] at hlock
  | arm periodNs =>
    by_cases hrefused : (!installed || periodNs == 0) = true
    · simp [TimerCall.program, armProgram, hrefused] at hlock
    · simp only [TimerCall.program, armProgram, hrefused]
      exact ⟨[.request, .request, .request, .request, .request, .ret true], _,
        .cons rfl (.cons rfl (.cons rfl (.cons rfl (.cons rfl (.single rfl))))), by simp [LockAction.works], rfl⟩
  | disarm =>
    exact ⟨[.request, .request, .request, .ret true], _, .cons rfl (.cons rfl (.cons rfl (.single rfl))),
      by simp [LockAction.works], rfl⟩
  | shutdown =>
    cases installed with
    | false => cases hlock
    | true =>
      -- `pthread_join` has no sampler to wait for, whether or not the parent had started one.
      cases started <;>
      exact ⟨[.request, .request, .request, .request, .request, .request, .request, .request, .ret true], _,
        .cons rfl (.cons rfl (.cons rfl (.cons rfl (.cons rfl (.cons rfl (.cons rfl (.cons rfl (.single rfl)))))))),
        by simp [LockAction.works], rfl⟩

end Locked

/-- **The window at a fork.** In a child that has not looked at the fork yet, a call of the timer returns if the
mutex was free at the fork, and otherwise only if it does not lock it, as `cbox_timer_after_fork` does not.
`PHP_MSHUTDOWN` calls `cbox_timer_shutdown` in such a child. -/
theorem forked_canReturn_iff {s child s' : Locked} {c : TimerCall} (hfork : LockSteps s .fork child)
    (hcall : LockSteps child (.call c) s') :
    s'.CanReturn ↔ s.owner = none ∨ .lock ∉ (c.program s.timer.installed).2 := by
  simp only [LockSteps, Locked.step] at hfork
  split at hfork
  case isFalse => cases hfork
  case isTrue hidle =>
    cases hfork
    simp only [LockSteps, Locked.step, hidle, if_true] at hcall
    cases hcall
    constructor
    · rintro ⟨bs, u, hrun, -, hu⟩
      by_contra hstuck
      rw [not_or, not_not] at hstuck
      obtain ⟨howner, hlock⟩ := hstuck
      obtain ⟨rest, htodo⟩ := Locked.lock_first_program hlock
      -- Whoever had the mutex is a thread of the parent now.
      cases hrun with
      | nil => cases hu
      | cons hstep _ => exact Locked.waits_for_parent (by simp) (if_neg howner) htodo rfl hstep
    · rintro (hfree | hlock)
      · exact Locked.canReturn_of_alone (if_pos hfree) rfl rfl rfl
      · exact Locked.canReturn_of_free rfl hlock (Locked.join_not_mem hlock)

/-- The sampler has the mutex at the fork, and the child ends without having looked. -/
theorem forked_canReturn_iff_locked : ∃ s child s', LockRun .initial (Locked.aboutToTick.take 7) s ∧
    LockSteps s .fork child ∧ LockSteps child (.call .shutdown) s' ∧ ¬s'.CanReturn := by
  have htakes : ((takes Looks Locked.step .initial (Locked.aboutToTick.take 7)).bind fun s =>
      (s.step .fork).bind fun child => (child.step (.call .shutdown)).map fun _ =>
        (s.owner, s.timer.installed)) = some (some .sampler, true) := by
    decide +kernel
  obtain ⟨s, hs, htakes⟩ := Option.bind_eq_some_iff.mp htakes
  obtain ⟨child, hchild, htakes⟩ := Option.bind_eq_some_iff.mp htakes
  obtain ⟨s', hs', hflags⟩ := Option.map_eq_some_iff.mp htakes
  obtain ⟨howner, hinstalled⟩ := Prod.mk.inj hflags
  refine ⟨s, child, s', Locked.run_of_takes hs, hchild, hs', ?_⟩
  rw [forked_canReturn_iff hchild hs', hinstalled, howner]
  simp [TimerCall.program, shutdownProgram]

/-! ## The end of the sampler -/

namespace Locked
variable {s s' u : Locked} {t : Atomic} {a : LockAction} {as bs : List LockAction}

/-- `cbox_timer_shutdown` from `pthread_join` on. -/
structure Ending (s : Locked) : Prop where
  like : ∃ t, s.LooksLike t
  call : ¬s.call = none
  rest : s.todo = [.join, .setInstalled false, .setStopping false] ∨
    s.sampler = .absent ∧ s.todo <:+ [.setInstalled false, .setStopping false]

/-- What is left of it. -/
def toEnd (s : Locked) : Nat := s.todo.length + s.sampler.toQuit

/-- An ending timer is not stuck. -/
theorem Ending.not_stuck (h : s.Ending) : ¬s.Stuck := by
  rintro ⟨-, hmem⟩
  rcases h.rest with htodo | ⟨-, hsuf⟩
  · simp [htodo] at hmem
  · have hin := hsuf.subset hmem
    simp at hin

/-- The sampler moves only while it is waited for. -/
theorem Ending.joining (h : s.Ending) (hpc : ¬s.sampler = .absent) :
    s.todo = [.join, .setInstalled false, .setStopping false] := by
  rcases h.rest with htodo | ⟨hgone, -⟩
  · exact htodo
  · exact absurd hgone hpc

/-- Each step of an ending timer leaves it ending, and counts down. -/
theorem Ending.step (h : s.Ending) (ha : ∀ result, a ≠ .ret result) (hstep : LockSteps s a s') :
    s'.Ending ∧ s'.toEnd < s.toEnd := by
  obtain ⟨t, hlike⟩ := h.like
  obtain ⟨result, hresult⟩ := Option.ne_none_iff_exists'.mp h.call
  have hcall' : ¬s'.call = none := by
    rw [(step_in_call hresult (ha result) hstep).1]
    simp
  have hlike' : Looks s a → ∃ t, s'.LooksLike t := fun hlooks =>
    simulates.related hlike (.single ⟨hlooks, hstep⟩)
  cases a with
  | call c => simp [LockSteps, Locked.step, h.call] at hstep
  | fork => simp [LockSteps, Locked.step, h.call] at hstep
  | ret r => exact absurd rfl (ha r)
  | request =>
    -- The caller joins while the sampler is there, and stores the two flags after.
    rcases h.rest with htodo | ⟨hgone, hsuf⟩
    · rw [LockSteps, step_request htodo] at hstep
      have hstarted := (hlike.kept.joins (by rw [htodo]; rfl)).1
      simp only [perform, hstarted, if_true] at hstep
      split at hstep
      case isFalse => cases hstep
      case isTrue hgone =>
        cases hstep
        refine ⟨⟨hlike' trivial, hcall', .inr ⟨hgone, List.suffix_refl _⟩⟩, ?_⟩
        simp [toEnd, htodo]
    · cases htodo : s.todo with
      | nil => simp [LockSteps, Locked.step, htodo] at hstep
      | cons i rest =>
        rw [htodo] at hsuf
        have hi := hsuf.subset List.mem_cons_self
        rw [LockSteps, step_request htodo] at hstep
        simp only [List.mem_cons, List.not_mem_nil, or_false] at hi
        rcases hi with rfl | rfl
        all_goals
          cases hstep
          refine ⟨⟨hlike' trivial, hcall', .inr ⟨hgone, (List.suffix_cons _ rest).trans hsuf⟩⟩, ?_⟩
          simp [toEnd, htodo]
  | sampler =>
    have hpc : ¬s.sampler = .absent := by
      intro hgone
      simp [LockSteps, Locked.step, samplerStep, hgone] at hstep
    -- The sampler reads the stop and the disarm, so each of its steps is one towards the end.
    have htodo := h.joining hpc
    obtain ⟨-, hstopping, harmed⟩ := hlike.kept.joins (by rw [htodo]; rfl)
    have hquit := sampler_quits hstopping harmed hlike.found hstep
    obtain ⟨-, htodo', -, -⟩ := samplerStep_frame hstep
    refine ⟨⟨hlike' trivial, hcall', .inl (htodo'.trans htodo)⟩, ?_⟩
    simp only [toEnd, htodo']
    omega
  | tick periodNs =>
    simp only [LockSteps, Locked.step] at hstep
    split at hstep
    case isFalse => cases hstep
    case isTrue hpc =>
      cases hstep
      refine ⟨⟨hlike' trivial, hcall', .inl (h.joining (by simp [hpc]))⟩, ?_⟩
      simp [toEnd, hpc, LockPc.toQuit]
  | wake =>
    simp only [LockSteps, Locked.step] at hstep
    split at hstep
    case isFalse => cases hstep
    case isTrue hpc =>
      cases hstep
      refine ⟨⟨hlike' trivial, hcall', .inl (h.joining (by simp [hpc]))⟩, ?_⟩
      simp [toEnd, hpc, LockPc.toQuit]

end Locked

/-- **`cbox_timer_shutdown` ends whatever the order.** From `pthread_join` on there are at most twelve steps
until it returns, and until then there always is one, wherever the sampler was and however often it wakes up
by itself. -/
theorem shutdown_ends {as bs : List LockAction} {s u : Locked} (h : LockRun .initial as s)
    (hjoin : s.todo.head? = some .join) (hrun : Run LockSteps s bs u)
    (hbs : ∀ b ∈ bs, ∀ result, b ≠ .ret result) :
    bs.length ≤ 12 ∧ (u.todo = [] ∨ ∃ b v, LockSteps u b v ∧ b.works = true ∧ ∀ result, b ≠ .ret result) := by
  obtain ⟨t, hlike⟩ := Locked.LooksLike.of_run h
  obtain ⟨rest, htodo⟩ : ∃ rest, s.todo = .join :: rest := by
    cases hs : s.todo with
    | nil => simp [hs] at hjoin
    | cons i rest =>
      rw [hs, List.head?_cons, Option.some.injEq] at hjoin
      exact ⟨rest, by rw [hjoin]⟩
  have hrest : s.todo = [.join, .setInstalled false, .setStopping false] := by
    have hstage := hlike.stage
    rw [htodo] at hstage
    rw [htodo, hstage.join_rest]
  -- Nine steps at most are the sampler's.
  have hending : s.Ending := by
    refine ⟨⟨t, hlike⟩, ?_, .inl hrest⟩
    intro hidle
    rw [hlike.idle hidle] at htodo
    cases htodo
  obtain ⟨hu, hlength⟩ := Run.length_le Locked.Ending Locked.toEnd
    (fun _ _ _ hs ha hstep => hs.step ha hstep) hending hrun hbs
  have hle : s.sampler.toQuit ≤ 9 := by
    cases s.sampler <;> simp [LockPc.toQuit]
  refine ⟨?_, ?_⟩
  · simp only [Locked.toEnd, hrest, List.length_cons, List.length_nil] at hlength
    omega
  · by_cases hdone : u.todo = []
    · exact .inl hdone
    · obtain ⟨t', hlike'⟩ := hu.like
      obtain ⟨b, v, hstep, hworks, -⟩ := hlike'.progress hu.call hu.not_stuck
      refine .inr ⟨b, v, hstep, hworks, ?_⟩
      intro result hret
      subst hret
      simp only [LockSteps, Locked.step] at hstep
      split at hstep
      case isFalse => cases hstep
      case isTrue hdone' => exact hdone hdone'.2

/-- The timer is shut down when the sampler is about to tick. -/
theorem shutdown_ends_ticking : ∃ s u,
    LockRun .initial (Locked.aboutToTick ++
      [.call .shutdown, .request, .request, .request, .request, .request]) s ∧
    Run LockSteps s [.tick 5000000, .sampler] u ∧
    (u.todo = [] ∨ ∃ b v, LockSteps u b v ∧ b.works = true ∧ ∀ result, b ≠ .ret result) := by
  have htakes : ((takes Looks Locked.step .initial (Locked.aboutToTick ++
      [.call .shutdown, .request, .request, .request, .request, .request])).bind fun s =>
        (takes Looks Locked.step s [.tick 5000000, .sampler]).map fun _ => s.todo.head?) =
          some (some .join) := by
    decide +kernel
  obtain ⟨s, hs, htakes⟩ := Option.bind_eq_some_iff.mp htakes
  obtain ⟨u, hu, hjoin⟩ := Option.map_eq_some_iff.mp htakes
  have hrun := (Locked.run_of_takes hu).of_guarded
  exact ⟨s, u, Locked.run_of_takes hs, hrun,
    (shutdown_ends (Locked.run_of_takes hs) hjoin hrun (by simp)).2⟩

end CboxTelemetry.Profiler
