import CboxTelemetry.Extension.Past
import CboxTelemetry.Profiler.Driven

/-!
# The extension drives the profiler

A worker does nothing to its profiler but call the functions of `profiler.c`, at moments of its own choosing. So
the profiler of a worker is one of the machines of `Profiler.Machine`, from module startup on, forks included
(`machine_of_run`), and it is only ever started while it stands still, with a period, a depth and a duration in
their ranges, whatever the settings and the contexts say (`Startable`).
-/

namespace CboxTelemetry.Extension

open Profiler (Drives AskedSteps tickCount)

/-- The starts that the extension asks for. -/
structure Startable (periodNs maxDepth maxDurationNs : Nat) : Prop where
  period_ge : periodUsMin.toNat * 1000 ≤ periodNs
  period_le : periodNs ≤ periodUsMax.toNat * 1000
  depth_pos : 0 < maxDepth
  depth_le : maxDepth ≤ depthMax.toNat
  duration_le : maxDurationNs ≤ autoMaxMsMax.toNat * 1000000

/-- The ticks that a step delivers. -/
def Action.delivered : Action → Nat
  | .tick ticks => tickCount ticks
  | .interrupt _ between _ => (between.map tickCount).sum
  | _ => 0

variable {g g' : Globals}

/-! ## The calls -/

/-- Whatever a caller or a setting asks for is brought into its range first. -/
theorem startable_request (request : UnitRequest) {maxDurationNs : Nat}
    (hduration : maxDurationNs ≤ autoMaxMsMax.toNat * 1000000) :
    Startable ((clamp request.periodUs periodUsMin periodUsMax).toNat * 1000)
      (clamp request.maxDepth 1 depthMax).toNat maxDurationNs := by
  have hge := clamp_ge request.periodUs periodUsMin periodUsMax (by decide)
  have hle := clamp_le request.periodUs periodUsMin periodUsMax (by decide)
  have hpos := clamp_ge request.maxDepth 1 depthMax (by decide)
  have hdepth := clamp_le request.maxDepth 1 depthMax (by decide)
  exact ⟨Nat.mul_le_mul_right _ (Int.toNat_le_toNat hge), Nat.mul_le_mul_right _ (Int.toNat_le_toNat hle),
    Int.pos_iff_toNat_pos.mp hpos, Int.toNat_le_toNat hdepth, hduration⟩

/-- Starting the profiler is one of the steps that the machine may take. -/
theorem drives_startProfiler (hstopped : g.prof.running = false) (request : UnitRequest) {maxDurationNs : Nat}
    (hduration : maxDurationNs ≤ autoMaxMsMax.toNat * 1000000) (env : CallEnv) :
    Drives Startable 0 g.prof (g.startProfiler request maxDurationNs env).prof :=
  Profiler.drives_start hstopped (startable_request request hduration) env.startNow env.timer

theorem drives_unitOpen (h : Steady g) (hstopped : g.prof.running = false) (request : UnitRequest)
    (automatic : Bool) (env : CallEnv) (hactive : automatic = true → g.active = true) :
    Drives Startable 0 g.prof (g.unitOpen request automatic env).prof := by
  have hopened : (g.openUnit request automatic env).prof = g.prof := rfl
  rw [Globals.unitOpen_eq]
  split
  · rw [← hopened]
    apply drives_startProfiler
    · rw [hopened]
      exact hstopped
    · -- Only an automatic unit has a limit, and there are none before the setting is clamped.
      show (if automatic then g.autoMaxMs.toNat * 1000000 else 0) ≤ _
      cases automatic with
      | false => exact Nat.zero_le _
      | true =>
        have hcap := (h.cap (hactive rfl)).2
        simp only [if_true]
        omega
  · exact Profiler.drives_reset _

theorem drives_adopt (h : Steady g) (context : Option Context) (env : CallEnv) :
    Drives Startable 0 g.prof (g.adopt context env).prof := by
  unfold Globals.adopt
  simp only
  split
  · exact (Profiler.drives_stop_reset _).followedBy (Profiler.drives_clearDeadline _)
  · split
    · next hstart =>
      -- The unit has no profile yet, so the profiler does not run.
      simp only [Bool.and_eq_true, Bool.not_eq_true'] at hstart
      have hstopped : g.prof.running = false := by
        cases hrunning : g.prof.running with
        | false => rfl
        | true =>
          have hprofiling := (h.running_unit hrunning).2.2
          rw [hstart.1] at hprofiling
          cases hprofiling
      have hstarted := drives_startProfiler (g := { g with unit := { g.unit with
        adopted := true
        sampled := (g.readContext context).sampled
        type := (Globals.contextType (context.getD [])).getD g.unit.type } }) hstopped (g.readContext context)
          (Nat.zero_le _) env
      exact hstarted.followedBy (Profiler.drives_clearDeadline _)
    · exact Profiler.drives_clearDeadline _

theorem drives_detectFork (g : Globals) (env : CallEnv) : Drives Startable 0 g.prof (g.detectFork env).prof := by
  unfold Globals.detectFork
  split
  · exact .refl _
  · split
    · exact .refl _
    · exact Profiler.drives_afterFork _

/-- `begin`, past its look. -/
theorem drives_beginUnit (h : Steady g) (context : Option Context) (env : CallEnv) :
    Drives Startable 0 g.prof (g.beginUnit context env).prof := by
  unfold Globals.beginUnit
  split
  · exact drives_adopt h context env
  · simp only
    split
    · -- A unit that was left open is given up.
      exact (Profiler.drives_stop _).followedBy
        (drives_unitOpen h.stop (Profiler.State.stop_running _) _ false env nofun)
    · next hnone => exact drives_unitOpen h (h.closed (not_not.mp hnone)).stopped _ false env nofun

theorem drives_finishUnit (g : Globals) (handle : Int) (p s : Bool) (env : CallEnv) :
    Drives Startable 0 g.prof (g.finishUnit handle p s env).2.prof := by
  unfold Globals.finishUnit
  split
  · exact .refl _
  · split
    · exact .refl _
    · exact Profiler.drives_stop_reset _

theorem drives_rshutdown (g : Globals) : Drives Startable 0 g.prof g.rshutdown.prof := by
  unfold Globals.rshutdown
  split
  · exact Profiler.drives_stop_reset _
  · exact .refl _

theorem RequestStarted.drives {sapi : Option Bytes} {env : CallEnv} (hsteady : Steady g)
    (h : RequestStarted g sapi env g') : Drives Startable 0 g.prof g'.prof := by
  cases h with
  | quiet => exact .refl _
  | opened hactive hnone =>
    have hsink : Steady { g with recorder := requestRecorder g env } := hsteady.of_eq rfl rfl rfl rfl rfl
    exact drives_unitOpen hsink (hsteady.closed hnone).stopped _ true env fun _ => hactive

/-! ## Runs -/

variable {w w' : Worker} {a : Action}

/-- **Every step** of a worker drives its profiler, and delivers the ticks that it says. -/
theorem drives_step (h : Steady w.globals) (hstep : WorkerSteps w a w') :
    Drives Startable a.delivered w.globals.prof w'.globals.prof := by
  -- Only the calls that look, the tick and the interrupt reach the profiler.
  cases a with
  | rinit sapi e =>
    cases hstep
    exact (drives_detectFork _ _).followedBy
      ((started_rinit w.globals sapi (w.env e)).drives (h.detectFork _))
  | rshutdown =>
    cases hstep
    exact drives_rshutdown _
  | begin context e =>
    cases hstep
    show Drives Startable 0 w.globals.prof (w.globals.begin context (w.env e)).2.prof
    unfold Globals.begin
    split
    · exact .refl _
    · exact (drives_detectFork _ _).followedBy (drives_beginUnit (h.detectFork _) _ _)
  | finish handle p s e =>
    cases hstep
    exact (drives_detectFork _ _).followedBy (drives_finishUnit _ _ _ _ _)
  | status e =>
    cases hstep
    exact drives_detectFork _ _
  | iniSet periodUs maxDepth =>
    cases hstep
    exact .refl _
  | opBegin type now =>
    cases hstep
    show Drives Startable 0 w.globals.prof (w.globals.noteOpBegin type now).2.prof
    rw [Globals.noteOpBegin_frame]
    exact .refl _
  | opEnd call now =>
    simp only [WorkerSteps, Worker.step] at hstep
    split at hstep
    · next t _ =>
      cases hstep
      show Drives Startable 0 w.globals.prof (w.globals.noteOpEnd t now).prof
      rw [Globals.noteOpEnd_frame]
      exact .refl _
    · cases hstep
  | tick ticks =>
    cases hstep
    exact Profiler.drives_tick _ _
  | interrupt stack between now =>
    simp only [WorkerSteps, Worker.step] at hstep
    split at hstep
    · next prof hinterrupt =>
      cases hstep
      exact Profiler.drives_interrupt h.sound hinterrupt
    · cases hstep
  | fork child =>
    cases hstep
    exact Profiler.drives_fork _

theorem drives_run {as : List Action} (h : Steady w.globals) (hrun : Run WorkerSteps w as w') :
    Drives Startable (as.map Action.delivered).sum w.globals.prof w'.globals.prof := by
  induction hrun with
  | nil w => exact .refl _
  | cons hstep _ ih =>
    rw [List.map_cons, List.sum_cons]
    exact (drives_step h hstep).trans (ih (h.step hstep))

/-- Module startup sets a profiler up, or leaves one that could not be. -/
theorem exists_setup (ini : Ini) (io : StartupIo) (pid : Int) : ∃ c : Profiler.Setup,
    c.maxFrames = (setup ini io).maxFrames ∧ c.maxNodes = (setup ini io).maxNodes ∧
      (Globals.minit ini io pid).prof = c.prof := by
  have hprof := (booted_minit ini io pid).prof
  generalize (Globals.minit ini io pid).prof = prof at hprof
  cases hprof with
  | off => exact ⟨{ setup ini io with slab := none, slab_length := nofun }, rfl, rfl, rfl⟩
  | on installed =>
    -- The timer that is installed in the end might have been so from the first.
    refine ⟨{ setup ini io with timer := { Profiler.Timer.blank with installed := installed } }, rfl, rfl, ?_⟩
    have hinit : ∀ timer : Profiler.Timer, (Profiler.Setup.prof { setup ini io with timer := timer }) =
        { (setup ini io).prof with timer := timer } := by
      intro timer
      unfold Profiler.Setup.prof Profiler.State.init
      simp only [Profiler.State.blank, Bool.false_eq_true, if_false]
      split
      · rfl
      · split
        · rfl
        · split <;> rfl
    exact (hinit _).symm

/-- **The profiler of a worker is the machine.** Wherever a run of the worker gets to, its profiler is that of a
run of the machine from module startup, which starts it only while it stands still and only in the ranges of the
settings, and to which all the ticks of the worker, and no others, are delivered. -/
theorem machine_of_run (ini : Ini) (io : StartupIo) (pid : Int) {as : List Action}
    (hrun : Run WorkerSteps (startedWorker ini io pid) as w) : ∃ c : Profiler.Setup,
      c.maxFrames = (setup ini io).maxFrames ∧ c.maxNodes = (setup ini io).maxNodes ∧
      ∃ bs l, Run (AskedSteps Startable) c.machine bs ⟨w.globals.prof, .idle, l⟩ ∧
        l.delivered = (as.map Action.delivered).sum := by
  obtain ⟨c, hframes, hnodes, hprof⟩ := exists_setup ini io pid
  obtain ⟨bs, l, hmachine, hdelivered⟩ := drives_run (booted_minit ini io pid).steady hrun .empty
  refine ⟨c, hframes, hnodes, bs, l, ?_, ?_⟩
  · rw [Profiler.Setup.machine, ← hprof]
    exact hmachine
  · rw [hdelivered]
    exact Nat.zero_add _

/-- A unit in which a delivery of three ticks is sampled, in a function that the engine calls. -/
def sampledUnit : List Action := [.begin none (callAt 2), .tick 3, .interrupt [none] [] ⟨9, by decide⟩]

/-- A worker whose unit has three samples. -/
theorem machine_of_run_sampled : ∃ w, Run WorkerSteps (startedWorker autoIni plainStartup 100) sampledUnit w ∧
    w.globals.prof.samples = 3 ∧ ∃ c : Profiler.Setup, c.maxFrames = 64 ∧
      ∃ bs l, Run (AskedSteps Startable) c.machine bs ⟨w.globals.prof, .idle, l⟩ ∧ l.delivered = 3 := by
  have hsampled : (takes (fun _ _ => True) Worker.step (startedWorker autoIni plainStartup 100) sampledUnit).map
      (fun w => w.globals.prof.samples) = some 3 := by decide +kernel
  obtain ⟨w, hw, hsamples⟩ := Option.map_eq_some_iff.mp hsampled
  have hrun : Run WorkerSteps (startedWorker autoIni plainStartup 100) sampledUnit w := (Run.of_takes hw).of_guarded
  obtain ⟨c, hframes, -, bs, l, hmachine, hdelivered⟩ := machine_of_run autoIni plainStartup 100 hrun
  exact ⟨w, hrun, hsamples, c, hframes, bs, l, hmachine, hdelivered⟩

end CboxTelemetry.Extension
