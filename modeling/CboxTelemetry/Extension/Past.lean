import CboxTelemetry.Extension.Twin

/-!
# What the past of a process leaves

Whatever units a process has had, its profiler has the room it was set up with, and the fixed settings are as they
were; and nothing is pending while the profiler stands still, if the timer's signal is `own`, that is, if it comes
while the timer ticks (`Stays`). So two processes that have started in the same way, and have had different pasts,
can differ in little else.
-/

namespace CboxTelemetry.Extension

open Profiler (Instant Stack)
open Profiler.State (SameRoom SamePending)

/-! ## What stays -/

/-- The settings that no step changes. -/
def Globals.fixed (g : Globals) : Settings := { g.settings with periodUs := 0, maxDepth := 0 }

structure Stays (own : Prop) (g g' : Globals) : Prop where
  fixed_eq : g'.fixed = g.fixed
  room : SameRoom g.prof g'.prof
  installed_eq : g'.prof.timer.installed = g.prof.timer.installed
  settled : own → g.prof.Settled → g'.prof.Settled

variable {own : Prop} {g g₁ g' : Globals}

theorem Stays.refl (g : Globals) : Stays own g g := ⟨rfl, .refl _, rfl, fun _ => id⟩

theorem Stays.trans (h : Stays own g g₁) (h' : Stays own g₁ g') : Stays own g g' :=
  ⟨h'.fixed_eq.trans h.fixed_eq, h.room.trans h'.room, h'.installed_eq.trans h.installed_eq,
    fun ho hs => h'.settled ho (h.settled ho hs)⟩

/-- Work on the rest. -/
theorem Stays.of_prof (hfixed : g'.fixed = g.fixed) (hprof : g'.prof = g.prof) : Stays own g g' := by
  refine ⟨hfixed, ?_, by rw [hprof], fun _ hs => ?_⟩
  · rw [hprof]
    exact .refl _
  · rwa [hprof]

theorem stays_stop (g : Globals) : Stays own g { g with prof := g.prof.stop } := by
  refine ⟨rfl, Profiler.State.sameRoom_stop _, ?_, fun _ => Profiler.State.Settled.stop⟩
  show g.prof.stop.timer.installed = _
  obtain hkept | hdisarmed := stop_timer g.prof
  · rw [hkept]
  · rw [hdisarmed, Profiler.Timer.disarm_installed]

theorem stays_reset (g : Globals) : Stays own g { g with prof := g.prof.reset } :=
  ⟨rfl, Profiler.State.sameRoom_reset _, congrArg Profiler.Timer.installed (Profiler.State.reset_timer _),
    fun _ => Profiler.State.Settled.reset⟩

/-- Starting the profiler keeps what was set up. -/
theorem stays_startProfiler (g : Globals) (request : UnitRequest) (maxDurationNs : Nat) (env : CallEnv) :
    Stays own g (g.startProfiler request maxDurationNs env) :=
  ⟨rfl, Profiler.State.sameRoom_start _ _ _ _ _ _, Profiler.State.start_installed _ _ _ _ _ _,
    fun _ hs => hs.start _ _ _ _ _⟩

theorem stays_closeUnit (g : Globals) : Stays own g g.closeUnit := by
  obtain ⟨-, hroom, hinstalled, hsettled⟩ := stays_reset g
  exact ⟨rfl, hroom, hinstalled, hsettled⟩

theorem stays_unitOpen (g : Globals) (request : UnitRequest) (automatic : Bool) (env : CallEnv) :
    Stays own g (g.unitOpen request automatic env) := by
  have hopened : Stays own g (g.openUnit request automatic env) := .of_prof rfl rfl
  rw [Globals.unitOpen_eq]
  split
  · exact hopened.trans (stays_startProfiler _ _ _ _)
  · exact hopened.trans (stays_reset _)

/-- The end of an adoption. -/
theorem stays_clearDeadline (g : Globals) (unit : UnitState) :
    Stays own g { g with prof := g.prof.clearDeadline, unit := unit } :=
  ⟨rfl, .of_same g.prof.same_clearDeadline fun _ => rfl, rfl, fun _ => id⟩

theorem stays_adopt (g : Globals) (context : Option Context) (env : CallEnv) : Stays own g (g.adopt context env) := by
  have hunit : ∀ unit : UnitState, Stays own g { g with unit := unit } := fun _ => .of_prof rfl rfl
  unfold Globals.adopt
  simp only
  split
  · have hstopped : Stays own g { g with prof := g.prof.stop.reset } :=
      (stays_stop g).trans (stays_reset { g with prof := g.prof.stop })
    obtain ⟨-, hroom, hinstalled, hsettled⟩ := hstopped.trans (stays_clearDeadline _ .cleared)
    exact ⟨rfl, hroom, hinstalled, hsettled⟩
  · split
    · obtain ⟨-, hroom, hinstalled, hsettled⟩ := ((hunit { g.unit with
        adopted := true
        sampled := (g.readContext context).sampled
        type := (Globals.contextType (context.getD [])).getD g.unit.type }).trans
          (stays_startProfiler _ (g.readContext context) 0 env)).trans (stays_clearDeadline _ .cleared)
      exact ⟨rfl, hroom, hinstalled, hsettled⟩
    · obtain ⟨-, hroom, hinstalled, hsettled⟩ := stays_clearDeadline g .cleared
      exact ⟨rfl, hroom, hinstalled, hsettled⟩

theorem stays_beginUnit (g : Globals) (context : Option Context) (env : CallEnv) :
    Stays own g (g.beginUnit context env) := by
  unfold Globals.beginUnit
  split
  · exact stays_adopt g context env
  · simp only
    split
    · exact ((stays_stop g).trans (stays_unitOpen _ _ _ _)).trans (.of_prof rfl rfl)
    · exact (stays_unitOpen _ _ _ _).trans (.of_prof rfl rfl)

theorem stays_finishUnit (g : Globals) (handle : Int) (p s : Bool) (env : CallEnv) :
    Stays own g (g.finishUnit handle p s env).2 := by
  unfold Globals.finishUnit
  split
  · exact .refl g
  · split
    · exact .refl g
    · have hcrumb : ∀ g : Globals, Stays own g (g.pushCrumb Globals.crumbUnitEnd g.unit.type.code
          (unitTypeName g.unit.type.code) (clock env.now)) := fun _ => .of_prof rfl rfl
      exact ((stays_stop g).trans (hcrumb _)).trans (stays_closeUnit _)

/-- `PHP_RSHUTDOWN` keeps it. -/
theorem stays_rshutdown (g : Globals) : Stays own g g.rshutdown := by
  unfold Globals.rshutdown
  split
  · exact (stays_stop g).trans (stays_closeUnit _)
  · exact .refl g

/-- A fork, as far as the child has found out, leaves the room too. -/
theorem stays_detectFork (g : Globals) (env : CallEnv) : Stays own g (g.detectFork env) := by
  unfold Globals.detectFork
  split
  · exact .refl g
  · split
    · exact .of_prof rfl rfl
    · have hstopped : SameRoom g.prof { g.prof with running := false, pendingTicks := 0, pendingDeliveries := 0 } :=
        .of_same ⟨rfl, rfl, rfl, rfl, rfl, rfl, rfl, rfl⟩ fun _ => rfl
      have hforked : SameRoom g.prof g.prof.afterFork := hstopped.trans (Profiler.State.sameRoom_reset _)
      have htimer : SameRoom g.prof.afterFork { g.prof.afterFork with timer := g.prof.afterFork.timer.afterFork } :=
        .of_same ⟨rfl, rfl, rfl, rfl, rfl, rfl, rfl, rfl⟩ fun _ => rfl
      refine ⟨rfl, hforked.trans htimer, ?_, fun _ _ => Profiler.State.Settled.afterFork g.prof⟩
      show g.prof.afterFork.timer.installed = _
      have hkept : g.prof.afterFork.timer = g.prof.timer := Profiler.State.reset_timer _
      rw [hkept]

theorem RequestStarted.stays {sapi : Option Bytes} {env : CallEnv} (h : RequestStarted g sapi env g') : Stays own g g' := by
  cases h with
  | quiet => exact .of_prof rfl rfl
  | opened _ _ =>
    have hsink : Stays own g { g with recorder := requestRecorder g env } := .of_prof rfl rfl
    exact hsink.trans (stays_unitOpen _ _ _ _)

/-! ## Histories -/

/-- The timer's signal comes while the timer ticks, and at no other time; and a child is not given the pid on
record. -/
def OwnTicks (w : Worker) : Action → Prop
  | .fork child => child ≠ w.globals.ownerPid
  | .tick _ => w.globals.prof.timer.kernel = .ticking
  | .interrupt _ between _ => between = [] ∨ w.globals.prof.timer.kernel = .ticking
  | _ => True

variable {w w' : Worker} {a : Action}

/-- A process with a past. -/
structure Past (own : Prop) (start : Globals) (w : Worker) : Prop where
  steady : Steady w.globals
  timer : TimerOwned w
  stays : Stays own start w.globals

/-- A timer that ticks is the profiler's. -/
theorem Past.running_of_ticking {start : Globals} (h : Past own start w) (hticking : w.globals.prof.timer.kernel = .ticking) :
    w.globals.prof.running = true := by
  have hsound : w.globals.prof.timer.Sound := by
    cases hactive : w.globals.active with
    | true =>
      by_cases howner : w.pid = w.globals.ownerPid
      · exact h.timer.own hactive howner
      · rw [h.timer.forked hactive howner] at hticking
        cases hticking
    | false => exact (h.timer.inactive hactive).1
  exact h.steady.armed_iff.mp (hsound.armed_iff.mpr hticking)

/-- **Every step** leaves the room, and nothing pending. -/
theorem stays_step {start : Globals} (h : Past own start w) (hown : own → OwnTicks w a) (hstep : WorkerSteps w a w') :
    Stays own w.globals w'.globals := by
  -- Every call keeps what was set up. A tick and an interrupt need the profiler running.
  cases a with
  | rinit sapi e =>
    cases hstep
    exact (stays_detectFork _ _).trans (started_rinit w.globals sapi (w.env e)).stays
  | rshutdown =>
    cases hstep
    exact stays_rshutdown _
  | begin context e =>
    cases hstep
    show Stays own w.globals (w.globals.begin context (w.env e)).2
    unfold Globals.begin
    split
    · exact .refl _
    · exact (stays_detectFork _ _).trans (stays_beginUnit _ _ _)
  | finish handle p s e =>
    cases hstep
    exact (stays_detectFork _ _).trans (stays_finishUnit _ _ _ _ _)
  | status e =>
    cases hstep
    exact stays_detectFork _ _
  | iniSet periodUs maxDepth =>
    cases hstep
    exact .of_prof rfl rfl
  | opBegin type now =>
    cases hstep
    show Stays own w.globals (w.globals.noteOpBegin type now).2
    rw [Globals.noteOpBegin_frame]
    exact .of_prof rfl rfl
  | opEnd call now =>
    simp only [WorkerSteps, Worker.step] at hstep
    split at hstep
    · next t _ =>
      cases hstep
      show Stays own w.globals (w.globals.noteOpEnd t now)
      rw [Globals.noteOpEnd_frame]
      exact .of_prof rfl rfl
    · cases hstep
  | tick ticks =>
    cases hstep
    refine ⟨rfl, .of_same (w.globals.prof.same_tick ticks) fun _ => rfl, rfl, fun ho _ hstopped => ?_⟩
    have hstopped : w.globals.prof.running = false := hstopped
    rw [h.running_of_ticking (hown ho)] at hstopped
    cases hstopped
  | interrupt stack between now =>
    simp only [WorkerSteps, Worker.step] at hstep
    split at hstep
    · next prof hinterrupt =>
      cases hstep
      refine ⟨rfl, h.steady.sound.interrupt_room hinterrupt, ?_, fun ho _ => ?_⟩
      · show prof.timer.installed = _
        obtain hkept | hdisarmed := (h.steady.sound.interrupt hinterrupt).timer
        · rw [hkept]
        · rw [hdisarmed, Profiler.Timer.disarm_installed]
      refine h.steady.sound.interrupt_settled (fun hstopped => ?_) hinterrupt
      refine (hown ho).resolve_right fun hticking => ?_
      rw [h.running_of_ticking hticking] at hstopped
      cases hstopped
    · cases hstep
  | fork child =>
    cases hstep
    exact ⟨rfl, .of_same (w.globals.prof.same_timer _) fun _ => rfl, rfl, fun _ => id⟩

theorem OwnTicks.forkedAnew (h : OwnTicks w a) : ForkedAnew w a := by
  cases a with
  | fork child => exact h
  | _ => trivial

/-- A step adds to the past. -/
theorem Past.step {start : Globals} (h : Past own start w) (hanew : ForkedAnew w a) (hown : own → OwnTicks w a)
    (hstep : WorkerSteps w a w') : Past own start w' where
  steady := h.steady.step hstep
  timer := h.timer.step h.steady hanew hstep
  stays := h.stays.trans (stays_step h hown hstep)

theorem past_startedWorker (ini : Ini) (io : StartupIo) (pid : Int) :
    Past own (Globals.minit ini io pid) (startedWorker ini io pid) := by
  obtain ⟨htimer, hsteady⟩ := timerOwned_of_run (.nil (startedWorker ini io pid))
  exact ⟨hsteady, htimer, .refl _⟩

theorem past_of_run {ini : Ini} {io : StartupIo} {pid : Int} {as : List Action}
    (hrun : Run (Guarded OwnTicks WorkerSteps) (startedWorker ini io pid) as w) :
    Past True (Globals.minit ini io pid) w :=
  Run.invariant (fun _ _ _ h hs => h.step hs.1.forkedAnew (fun _ => hs.1) hs.2) (past_startedWorker ini io pid) hrun

/-- With ticks at any time. -/
theorem past_of_forks {ini : Ini} {io : StartupIo} {pid : Int} {as : List Action}
    (hrun : Run (Guarded ForkedAnew WorkerSteps) (startedWorker ini io pid) as w) :
    Past False (Globals.minit ini io pid) w :=
  Run.invariant (fun _ _ _ h hs => h.step hs.1 nofun hs.2) (past_startedWorker ini io pid) hrun

/-- Nothing is pending after startup. -/
theorem settled_minit (ini : Ini) (io : StartupIo) (pid : Int) : (Globals.minit ini io pid).prof.Settled := by
  have hprof := (booted_minit ini io pid).prof
  generalize (Globals.minit ini io pid).prof = prof at hprof
  cases hprof with
  | off => exact fun _ => ⟨rfl, rfl⟩
  | on installed =>
    intro _
    show (setup ini io).prof.pendingTicks = 0 ∧ (setup ini io).prof.pendingDeliveries = 0
    have hblank : ({ Profiler.State.blank with timer := (setup ini io).timer } : Profiler.State).ready = false := rfl
    unfold Profiler.Setup.prof
    obtain hnothing | ⟨bytes, ft, tree, -, -, -, hready⟩ := Profiler.State.init_cases hblank (setup ini io).maxFrames
      (setup ini io).maxNodes (setup ini io).slab (setup ini io).frames (setup ini io).nodes
    · rw [hnothing]
      exact ⟨rfl, rfl⟩
    · rw [hready]
      exact ⟨rfl, rfl⟩

/-- **Two pasts.** With no profiler running in either, nothing that a start looks at differs. -/
theorem Stays.atRest {start : Globals} (h : Stays True start g) (h' : Stays True start g') (hs : Steady g) (hs' : Steady g')
    (hsettled : start.prof.Settled) (hstopped : g.prof.running = false) (hstopped' : g'.prof.running = false) :
    Globals.AtRest g g' := by
  obtain ⟨hticks, hdeliveries⟩ := h.settled trivial hsettled hstopped
  obtain ⟨hticks', hdeliveries'⟩ := h'.settled trivial hsettled hstopped'
  refine ⟨h.room.symm.trans h'.room, hs.sound, hs'.sound, hstopped, ?_, ?_, ?_⟩
  · rw [hstopped, hstopped']
  · rw [hticks, hticks']
  · rw [hdeliveries, hdeliveries']

/-- The settings that can be changed are the same if they are said to be. -/
theorem Stays.settings_eq {start : Globals} (h : Stays own start g) (h' : Stays own start g')
    (hperiod : g'.periodUs = g.periodUs) (hdepth : g'.maxDepth = g.maxDepth) : g'.settings = g.settings := by
  have hsettings : ∀ g : Globals, g.settings = { g.fixed with periodUs := g.periodUs, maxDepth := g.maxDepth } :=
    fun _ => rfl
  rw [hsettings g, hsettings g', h.fixed_eq, h'.fixed_eq, hperiod, hdepth]

end CboxTelemetry.Extension
