import CboxTelemetry.Extension.Lifecycle

/-!
# The process that owns the state

A fork copies the flags of the timer and not the timer, and the module finds out at the next call that
looks, because `ownerPid` is not the pid any more. All other work keeps the owner, the recorder and the
agreement of the flags with the kernel (`Keeps`).
-/

namespace CboxTelemetry.Extension

open Profiler (Instant Stack Timer)

/-! ## Work within one process -/

/-- Work that is done for the process that owns the state. -/
structure Keeps (g g' : Globals) : Prop where
  active_eq : g'.active = g.active
  enabled_eq : g'.enabled = g.enabled
  ownerPid_eq : g'.ownerPid = g.ownerPid
  crashEnabled_eq : g'.crashEnabled = g.crashEnabled
  recorder_eq : g'.recorder = g.recorder
  timer : g.prof.timer.Sound → g'.prof.timer.Sound

variable {g g₁ g₂ : Globals}

theorem Keeps.refl (g : Globals) : Keeps g g := ⟨rfl, rfl, rfl, rfl, rfl, id⟩

/-- Two that keep, one after the other. -/
theorem Keeps.trans (h₁ : Keeps g g₁) (h₂ : Keeps g₁ g₂) : Keeps g g₂ where
  active_eq := h₂.active_eq.trans h₁.active_eq
  enabled_eq := h₂.enabled_eq.trans h₁.enabled_eq
  ownerPid_eq := h₂.ownerPid_eq.trans h₁.ownerPid_eq
  crashEnabled_eq := h₂.crashEnabled_eq.trans h₁.crashEnabled_eq
  recorder_eq := h₂.recorder_eq.trans h₁.recorder_eq
  timer h := h₂.timer (h₁.timer h)

/-- A step that does something with the profiler and the unit and leaves the rest of these fields. -/
theorem Keeps.of_prof (g : Globals) {prof : Profiler.State} (unit : UnitState)
    (htimer : g.prof.timer.Sound → prof.timer.Sound) : Keeps g { g with prof := prof, unit := unit } :=
  ⟨rfl, rfl, rfl, rfl, rfl, htimer⟩

/-- The timer after a stop: disarmed, or left alone. -/
theorem stop_timer (s : Profiler.State) : s.stop.timer = s.timer ∨ s.stop.timer = s.timer.disarm := by
  cases hrunning : s.running with
  | true =>
    rw [Profiler.State.stop_of_running hrunning]
    exact .inr rfl
  | false =>
    rw [Profiler.State.stop_of_stopped hrunning]
    exact .inl rfl

/-- Stopping keeps the timer sound. -/
theorem stop_timer_sound {s : Profiler.State} (h : s.timer.Sound) : s.stop.timer.Sound := by
  obtain hkept | hdisarmed := stop_timer s
  · rwa [hkept]
  · rw [hdisarmed]
    exact h.disarm

theorem keeps_stop (g : Globals) : Keeps g { g with prof := g.prof.stop } :=
  .of_prof g g.unit stop_timer_sound

theorem keeps_reset (g : Globals) : Keeps g { g with prof := g.prof.reset } := by
  refine .of_prof g g.unit fun h => ?_
  rwa [Profiler.State.reset_timer]

theorem keeps_closeUnit (g : Globals) : Keeps g g.closeUnit := by
  obtain ⟨_, _, _, _, _, htimer⟩ := keeps_reset g
  exact ⟨rfl, rfl, rfl, rfl, rfl, htimer⟩

theorem keeps_startProfiler (g : Globals) (request : UnitRequest) (maxDurationNs : Nat) (env : CallEnv) :
    Keeps g (g.startProfiler request maxDurationNs env) :=
  ⟨rfl, rfl, rfl, rfl, rfl, fun h => Profiler.State.start_timer_sound h _ _ _ _ _⟩

/-- Opening a unit. -/
theorem keeps_unitOpen (g : Globals) (request : UnitRequest) (automatic : Bool) (env : CallEnv) :
    Keeps g (g.unitOpen request automatic env) := by
  have hopened : Keeps g (g.openUnit request automatic env) := ⟨rfl, rfl, rfl, rfl, rfl, id⟩
  unfold Globals.unitOpen
  simp only
  split
  · exact hopened.trans (keeps_startProfiler _ _ _ _)
  · exact hopened.trans (keeps_reset _)

/-- Adopting one. -/
theorem keeps_adopt (g : Globals) (context : Option Context) (env : CallEnv) :
    Keeps g (g.adopt context env) := by
  unfold Globals.adopt
  simp only
  split
  · refine .of_prof g _ fun h => ?_
    show g.prof.stop.reset.timer.Sound
    rw [Profiler.State.reset_timer]
    exact stop_timer_sound h
  · split
    · exact .of_prof g _ fun h => Profiler.State.start_timer_sound h _ _ _ _ _
    · exact .of_prof g _ id

/-- `begin`, past its look. -/
theorem keeps_beginUnit (g : Globals) (context : Option Context) (env : CallEnv) :
    Keeps g (g.beginUnit context env) := by
  unfold Globals.beginUnit
  split
  · exact keeps_adopt g context env
  · simp only
    split
    · exact ((keeps_stop g).trans (keeps_unitOpen _ _ _ _)).trans (.of_prof _ _ id)
    · exact (keeps_unitOpen _ _ _ _).trans (.of_prof _ _ id)

/-- `finish`, past its look. -/
theorem keeps_finishUnit (g : Globals) (handle : Int) (includeProfile includeStacks : Bool) (env : CallEnv) :
    Keeps g (g.finishUnit handle includeProfile includeStacks env).2 := by
  unfold Globals.finishUnit
  split
  · exact .refl g
  · split
    · exact .refl g
    · have hcrumb : ∀ g : Globals, Keeps g (g.pushCrumb Globals.crumbUnitEnd g.unit.type.code
          (unitTypeName g.unit.type.code) (clock env.now)) := fun _ => ⟨rfl, rfl, rfl, rfl, rfl, id⟩
      exact ((keeps_stop g).trans (hcrumb _)).trans (keeps_closeUnit _)

/-- `PHP_RSHUTDOWN`. -/
theorem keeps_rshutdown (g : Globals) : Keeps g g.rshutdown := by
  unfold Globals.rshutdown
  split
  · exact (keeps_stop g).trans (keeps_closeUnit _)
  · exact .refl g

theorem keeps_noteOpBegin (g : Globals) (type : OpType) (now : UInt64) : Keeps g (g.noteOpBegin type now).2 := by
  rw [Globals.noteOpBegin_frame]
  exact ⟨rfl, rfl, rfl, rfl, rfl, id⟩

theorem keeps_noteOpEnd (g : Globals) (token : OpToken) (now : UInt64) : Keeps g (g.noteOpEnd token now) := by
  rw [Globals.noteOpEnd_frame]
  exact ⟨rfl, rfl, rfl, rfl, rfl, id⟩

/-! ## The timer of a process -/

/-- A fork gives the child a pid that is not the recorded one. -/
def ForkedAnew (w : Worker) : Action → Prop
  | .fork child => child ≠ w.globals.ownerPid
  | _ => True

/-- The state is that of the process `pid`, and so is its timer. An extension that is not active never has
one. -/
structure Owned (pid : Int) (g : Globals) : Prop where
  ownerPid_eq : g.ownerPid = pid
  timer : g.prof.timer.Sound
  enabled : g.active = true → g.enabled = true
  inactive : g.active = false → g.prof.timer.kernel = .none

/-- The flags of the timer agree with the kernel in the process that owns them; any other process has no
timer. -/
structure TimerOwned (w : Worker) : Prop where
  enabled : w.globals.active = true → w.globals.enabled = true
  own : w.globals.active = true → w.pid = w.globals.ownerPid → w.globals.prof.timer.Sound
  forked : w.globals.active = true → w.pid ≠ w.globals.ownerPid → w.globals.prof.timer.kernel = .none
  inactive : w.globals.active = false →
    w.globals.prof.timer.Sound ∧ w.globals.prof.timer.kernel = .none

section
variable {w w' : Worker} {pid : Int} {env : CallEnv}

/-- A process that owns its timer. -/
theorem Owned.timerOwned (h : Owned w.pid g) : TimerOwned (w.withGlobals g) where
  enabled := h.enabled
  own _ _ := h.timer
  forked _ hne := absurd h.ownerPid_eq.symm hne
  inactive hinactive := ⟨h.timer, h.inactive hinactive⟩

/-- What a call does when it has looked for a fork. -/
theorem Owned.keeps (h : Owned pid g) (hkeeps : Keeps g g₁) (hinactive : g.active = false → g₁ = g) :
    Owned pid g₁ where
  ownerPid_eq := hkeeps.ownerPid_eq.trans h.ownerPid_eq
  timer := hkeeps.timer h.timer
  enabled hactive := by
    rw [hkeeps.enabled_eq]
    apply h.enabled
    rw [← hkeeps.active_eq, hactive]
  inactive hno := by
    rw [hkeeps.active_eq] at hno
    rw [hinactive hno]
    exact h.inactive hno

/-- What the other steps do. -/
theorem TimerOwned.keeps (h : TimerOwned w) (hpid : w'.pid = w.pid) (hkeeps : Keeps w.globals w'.globals)
    (hnone : w.globals.prof.timer.kernel = .none → w'.globals.prof.timer.kernel = .none) : TimerOwned w' where
  enabled hactive := by
    rw [hkeeps.enabled_eq]
    apply h.enabled
    rw [← hkeeps.active_eq, hactive]
  own hactive howner := by
    rw [hkeeps.active_eq] at hactive
    rw [hkeeps.ownerPid_eq, hpid] at howner
    exact hkeeps.timer (h.own hactive howner)
  forked hactive howner := by
    rw [hkeeps.active_eq] at hactive
    rw [hkeeps.ownerPid_eq, hpid] at howner
    exact hnone (h.forked hactive howner)
  inactive hinactive := by
    rw [hkeeps.active_eq] at hinactive
    obtain ⟨hsound, hkernel⟩ := h.inactive hinactive
    exact ⟨hkeeps.timer hsound, hnone hkernel⟩

/-- After the look the process owns its timer. -/
theorem TimerOwned.detectFork (h : TimerOwned w) (e : CallEnv) :
    Owned w.pid (w.globals.detectFork (w.env e)) := by
  unfold Globals.detectFork
  split
  · next howner =>
    have hpid : w.globals.ownerPid = w.pid := howner
    cases hactive : w.globals.active with
    | true => exact ⟨hpid, h.own hactive hpid.symm, h.enabled, fun hno => absurd hactive (by rw [hno]; exact nofun)⟩
    | false =>
      obtain ⟨hsound, hkernel⟩ := h.inactive hactive
      exact ⟨hpid, hsound, h.enabled, fun _ => hkernel⟩
  · next howner =>
    have hpid : w.pid ≠ w.globals.ownerPid := fun heq => howner heq.symm
    split
    · next hinactive =>
      obtain ⟨hsound, hkernel⟩ := h.inactive (by rwa [Bool.not_eq_true'] at hinactive)
      exact ⟨rfl, hsound, h.enabled, fun _ => hkernel⟩
    -- In a child of an active worker the timer is repaired.
    · next hactive =>
      have hactive : w.globals.active = true := by
        rwa [Bool.not_eq_true', Bool.not_eq_false] at hactive
      have hkernel : w.globals.prof.afterFork.timer.kernel = .none := by
        show ({ w.globals.prof with
          running := false, pendingTicks := 0, pendingDeliveries := 0 } : Profiler.State).reset.timer.kernel = .none
        rw [Profiler.State.reset_timer]
        exact h.forked hactive hpid
      exact ⟨rfl, Timer.Sound.afterFork hkernel, h.enabled, fun _ => hkernel⟩

/-- A stop arms nothing. -/
theorem stop_timer_kernel {s : Profiler.State} (h : s.timer.kernel = .none) : s.stop.timer.kernel = .none := by
  obtain hkept | hdisarmed := stop_timer s
  · rw [hkept, h]
  · rw [hdisarmed]
    exact Timer.disarm_kernel_none h

/-- No kernel timer comes from `PHP_RSHUTDOWN`. -/
theorem rshutdown_timer_kernel (h : g.prof.timer.kernel = .none) : g.rshutdown.prof.timer.kernel = .none := by
  unfold Globals.rshutdown
  split
  · show g.prof.stop.reset.timer.kernel = .none
    rw [Profiler.State.reset_timer]
    exact stop_timer_kernel h
  · exact h

/-- The request starts in a process that owns its timer. -/
theorem Owned.rinit {g' : Globals} {sapi : Option Bytes} (h : Owned pid g)
    (hstarted : RequestStarted g sapi env g') : Owned pid g' := by
  have hsink : Owned pid { g with recorder := requestRecorder g env } :=
    ⟨h.ownerPid_eq, h.timer, h.enabled, h.inactive⟩
  cases hstarted with
  | quiet => exact hsink
  | opened hactive _ =>
    refine hsink.keeps (keeps_unitOpen _ _ _ _) fun hno => ?_
    have hno : g.active = false := hno
    rw [hactive] at hno
    cases hno

/-- **Every step keeps the timer with its process.** -/
theorem TimerOwned.step {a : Action} (h : TimerOwned w) (hsteady : Steady w.globals) (hanew : ForkedAnew w a)
    (hstep : WorkerSteps w a w') : TimerOwned w' := by
  -- Each call looks first, and then works on a timer of its own.
  cases a with
  | rinit sapi e =>
    cases hstep
    apply Owned.timerOwned
    exact (h.detectFork e).rinit (started_rinit _ sapi _)
  | rshutdown =>
    cases hstep
    exact h.keeps rfl (keeps_rshutdown _) rshutdown_timer_kernel
  | begin context e =>
    cases hstep
    unfold Globals.begin
    split
    · exact h.keeps rfl (.refl _) id
    · next hgo =>
      apply Owned.timerOwned
      have howned := h.detectFork e
      have hactive : (w.globals.detectFork (w.env e)).active = w.globals.active := by
        unfold Globals.detectFork
        split
        · rfl
        · split <;> rfl
      refine howned.keeps (keeps_beginUnit _ _ _) fun hno => ?_
      rw [hactive] at hno
      rw [hno] at hgo
      exact absurd rfl hgo
  | finish handle p s e =>
    cases hstep
    have howned := h.detectFork e
    apply Owned.timerOwned
    refine howned.keeps (keeps_finishUnit _ _ _ _ _) fun hno => ?_
    show ((w.globals.detectFork (w.env e)).finishUnit handle p s (w.env e)).2 = _
    simp only [Globals.finishUnit, hno, Bool.not_false, Bool.true_or, if_true]
  | status e =>
    cases hstep
    exact (h.detectFork e).timerOwned
  | iniSet periodUs maxDepth =>
    cases hstep
    exact h.keeps rfl ⟨rfl, rfl, rfl, rfl, rfl, id⟩ id
  | opBegin type now =>
    cases hstep
    refine h.keeps rfl (keeps_noteOpBegin _ _ _) fun hkernel => ?_
    show (w.globals.noteOpBegin type now).2.prof.timer.kernel = .none
    rw [Globals.noteOpBegin_frame]
    exact hkernel
  | opEnd call now =>
    simp only [WorkerSteps, Worker.step] at hstep
    split at hstep
    · next token _ =>
      cases hstep
      refine h.keeps rfl (keeps_noteOpEnd _ _ _) fun hkernel => ?_
      show (w.globals.noteOpEnd token now).prof.timer.kernel = .none
      rw [Globals.noteOpEnd_frame]
      exact hkernel
    · cases hstep
  | tick ticks =>
    cases hstep
    exact h.keeps rfl ⟨rfl, rfl, rfl, rfl, rfl, id⟩ id
  | interrupt stack between now =>
    simp only [WorkerSteps, Worker.step] at hstep
    split at hstep
    · next prof hinterrupt =>
      cases hstep
      have htimer := (hsteady.sound.interrupt hinterrupt).timer
      refine h.keeps rfl ⟨rfl, rfl, rfl, rfl, rfl, fun hsound => ?_⟩ fun hkernel => ?_
      · show prof.timer.Sound
        obtain hkept | hdisarmed := htimer
        · rwa [hkept]
        · rw [hdisarmed]
          exact hsound.disarm
      · show prof.timer.kernel = .none
        obtain hkept | hdisarmed := htimer
        · rw [hkept, hkernel]
        · rw [hdisarmed]
          exact Timer.disarm_kernel_none hkernel
    · cases hstep
  | fork child =>
    -- The child is no owner before it looks, and has no kernel timer.
    cases hstep
    refine ⟨h.enabled, fun _ howner => absurd howner hanew, fun _ _ => rfl, fun hno => ?_⟩
    obtain ⟨⟨hcreated, harmed⟩, hkernel⟩ := h.inactive hno
    refine ⟨⟨hcreated.trans ?_, harmed.trans ?_⟩, rfl⟩
    · rw [hkernel]
      rfl
    · rw [hkernel]
      rfl

/-- After a call, a process that has not found out yet has no profiler that runs. -/
theorem owned_of_call {a : Action} (hcall : a.isCall = true) (hsteady : Steady w.globals)
    (henabled : w.globals.active = true → w.globals.enabled = true) (hstep : WorkerSteps w a w') :
    w'.globals.active = false ∨ w'.pid = w'.globals.ownerPid ∨ w'.globals.prof.running = false := by
  -- A call that looks leaves the process as the owner.
  have hdetect : ∀ e : CallEnv, (w.globals.detectFork (w.env e)).ownerPid = w.pid := by
    intro e
    unfold Globals.detectFork
    split
    · assumption
    · split <;> rfl
  cases a with
  | rinit sapi e =>
    cases hstep
    refine .inr (.inl ?_)
    show w.pid = (w.globals.rinit sapi (w.env e)).ownerPid
    have hstarted := started_rinit w.globals sapi (w.env e)
    generalize w.globals.rinit sapi (w.env e) = g at hstarted
    cases hstarted with
    | quiet => exact (hdetect e).symm
    | opened _ _ =>
      rw [(keeps_unitOpen _ _ _ _).ownerPid_eq]
      exact (hdetect e).symm
  | rshutdown =>
    cases hstep
    refine .inr (.inr ?_)
    show w.globals.rshutdown.prof.running = false
    unfold Globals.rshutdown
    split
    · show w.globals.prof.stop.reset.running = false
      rw [Profiler.State.reset_running, Profiler.State.stop_running]
    · next hnone => exact (hsteady.closed (not_not.mp hnone)).stopped
  | begin context e =>
    cases hstep
    unfold Globals.begin
    cases hactive : w.globals.active with
    | false => exact .inl hactive
    | true =>
      rw [henabled hactive]
      refine .inr (.inl ?_)
      show w.pid = ((w.globals.detectFork (w.env e)).beginUnit context (w.env e)).ownerPid
      rw [(keeps_beginUnit _ _ _).ownerPid_eq, hdetect]
  | finish handle p s e =>
    cases hstep
    refine .inr (.inl ?_)
    show w.pid = ((w.globals.detectFork (w.env e)).finishUnit handle p s (w.env e)).2.ownerPid
    rw [(keeps_finishUnit _ _ _ _ _).ownerPid_eq, hdetect]
  | status e =>
    cases hstep
    exact .inr (.inl (hdetect e).symm)
  | iniSet _ _ | opBegin _ _ | opEnd _ _ | tick _ | interrupt _ _ _ | fork _ => cases hcall

/-- **After a call, the kernel's timer ticks if and only if the profiler runs.** -/
theorem TimerOwned.ticking_iff {a : Action} (h : TimerOwned w') (henabled : w.globals.active = true →
    w.globals.enabled = true) (hsteady : Steady w.globals) (hcall : a.isCall = true)
    (hstep : WorkerSteps w a w') :
    w'.globals.prof.timer.kernel = .ticking ↔ w'.globals.prof.running = true := by
  have hsteady' := hsteady.step hstep
  have hsound : w'.globals.prof.timer.Sound →
      (w'.globals.prof.timer.kernel = .ticking ↔ w'.globals.prof.running = true) :=
    fun hsound => hsound.armed_iff.symm.trans hsteady'.armed_iff
  cases hactive : w'.globals.active with
  | false => exact hsound (h.inactive hactive).1
  | true =>
    by_cases howner : w'.pid = w'.globals.ownerPid
    · exact hsound (h.own hactive howner)
    · rcases owned_of_call hcall hsteady henabled hstep with hno | howned | hstopped
      · rw [hactive] at hno
        cases hno
      · exact absurd howned howner
      · rw [h.forked hactive howner, hstopped]
        exact iff_of_false nofun nofun

end

/-! ## The theorem -/

/-- In every run the timer is the process's own, and the worker steady. -/
theorem timerOwned_of_run {ini : Ini} {io : StartupIo} {pid : Int} {as : List Action} {w : Worker}
    (hrun : Run (Guarded ForkedAnew WorkerSteps) (startedWorker ini io pid) as w) :
    TimerOwned w ∧ Steady w.globals := by
  have hbooted := booted_minit ini io pid
  have hstart : TimerOwned (startedWorker ini io pid) ∧ Steady (startedWorker ini io pid).globals := by
    obtain ⟨-, harmed, hcreated, hkernel, -, -⟩ := hbooted.prof.idle
    have hsound : (Globals.minit ini io pid).prof.timer.Sound := by
      constructor
      · rw [hcreated, hkernel]
        exact iff_of_false nofun fun h => h rfl
      · rw [harmed, hkernel]
        exact iff_of_false nofun nofun
    exact ⟨⟨hbooted.enabled, fun _ _ => hsound, fun _ _ => hkernel, fun _ => ⟨hsound, hkernel⟩⟩, hbooted.steady⟩
  have hstep : ∀ w a w', TimerOwned w ∧ Steady (Worker.globals w) → Guarded ForkedAnew WorkerSteps w a w' →
      TimerOwned w' ∧ Steady w'.globals :=
    fun _ _ _ h hs => ⟨h.1.step h.2 hs.1 hs.2, h.2.step hs.2⟩
  exact @Run.invariant _ _ _ _ _ _ (fun w => TimerOwned w ∧ Steady w.globals) hstep hstart hrun

/-- **The lifecycle invariant.** It holds whatever happens, and after every call the timer that it speaks of is
the one of the kernel, as long as no child is given the pid on record. -/
theorem lifecycle_of_run {ini : Ini} {io : StartupIo} {pid : Int} {as : List Action} {w : Worker}
    (hrun : Run WorkerSteps (startedWorker ini io pid) as w) :
    Lifecycle w.globals ∧
      (Run (Guarded ForkedAnew WorkerSteps) (startedWorker ini io pid) as w →
        ∀ a w', a.isCall = true → ForkedAnew w a → WorkerSteps w a w' →
          (w'.globals.prof.timer.kernel = .ticking ↔ w'.globals.prof.running = true)) := by
  refine ⟨(steady_of_run hrun).toLifecycle, fun hanew a w' hcall hfresh hstep => ?_⟩
  obtain ⟨howned, hsteady⟩ := timerOwned_of_run hanew
  have howned' := howned.step hsteady hfresh hstep
  exact howned'.ticking_iff howned.enabled hsteady hcall hstep

/-- Small tables, and a unit for every request. -/
def autoIni : Ini where
  enabled := true
  profilerEnabled := true
  periodUs := 1000
  maxDepth := 64
  maxFrames := 64
  maxNodes := 256
  crumbCapacity := 16
  crashEnabled := false
  crashDir := none
  autoStart := true
  autoMaxMs := 30000

/-- A startup at which nothing fails. -/
def plainStartup : StartupIo where
  crumbs := true
  slab := some fun _ => 0
  frames := true
  nodes := true
  timer := true
  sigaction := true
  moduleBase := 0

/-- A call at which nothing fails. -/
def callAt (now : Instant) : CallEnv where
  pid := 0
  now := now
  startNow := now
  gcRuns := 0
  gcCollected := 0
  timer := ⟨true, true⟩
  sink := ⟨none, true⟩

/-- A worker in its first request. -/
def servingWorker : Worker :=
  (startedWorker autoIni plainStartup 100).withGlobals ((Globals.minit autoIni plainStartup 100).rinit none
    { callAt 5 with pid := 100 })

/-- A child of a profiling parent, that profiles a unit of its own. -/
theorem lifecycle_of_run_forked : ∃ as w w', Run (Guarded ForkedAnew WorkerSteps)
      (startedWorker autoIni plainStartup 100) as w ∧
    WorkerSteps w (.begin none (callAt ⟨9, by decide⟩)) w' ∧ Lifecycle w.globals ∧
      w'.globals.prof.timer.kernel = .ticking := by
  have hopened : Guarded ForkedAnew WorkerSteps (startedWorker autoIni plainStartup 100)
      (.rinit none (callAt ⟨5, by decide⟩)) servingWorker := ⟨trivial, rfl⟩
  have hforked : ∃ w, Guarded ForkedAnew WorkerSteps servingWorker (.fork 101) w ∧
      (w.globals.begin none (w.env (callAt ⟨9, by decide⟩))).2.prof.running = true := by
    refine ⟨_, ⟨?_, rfl⟩, ?_⟩
    · show (101 : Int) ≠ servingWorker.globals.ownerPid
      decide +kernel
    · decide +kernel
  obtain ⟨w, hfork, hrunning⟩ := hforked
  have hrun := Run.cons hopened (.single hfork)
  have hstep : WorkerSteps w (.begin none (callAt ⟨9, by decide⟩)) (w.withGlobals
      (w.globals.begin none (w.env (callAt ⟨9, by decide⟩))).2) := rfl
  refine ⟨_, w, _, hrun, hstep, (lifecycle_of_run hrun.of_guarded).1, ?_⟩
  have hanew : ForkedAnew w (.begin none (callAt ⟨9, by decide⟩)) := trivial
  exact ((lifecycle_of_run hrun.of_guarded).2 hrun _ _ rfl hanew hstep).mpr hrunning

end CboxTelemetry.Extension
