import CboxTelemetry.Extension.Worker

/-!
# The lifecycle of a unit

Four objects go together: the unit, the profiler, the timer and the operations. `Lifecycle` says how, and
holds of every state a worker can get to (`lifecycle_of_run`): what one function does to it is one lemma,
and the functions are put together from `detectFork`, `unitOpen`, `adopt`, `stop` and `closeUnit` as in the
source.
-/

namespace CboxTelemetry.Extension

open Profiler (Instant Stack)

/-! ## The invariant -/

/-- Nothing has been measured and nothing is in flight. -/
structure OpState.Idle (s : OpState) : Prop where
  agg_eq : ∀ type, s.agg type = .zero
  frames_eq : ∀ f ∈ s.frames.toList, f.type = .none
  depth_eq : s.depth = 0

/-- The cleared operations are idle. -/
theorem OpState.idle_cleared : OpState.cleared.Idle where
  agg_eq _ := rfl
  frames_eq f hf := by
    rw [OpState.cleared, Vector.toList_replicate] at hf
    rw [List.eq_of_mem_replicate hf]
  depth_eq := rfl

/-- Where nothing is in flight, no slot is in use. -/
theorem OpState.Idle.free {s : OpState} (h : s.Idle) {slot : Nat} {f : OpFrame} (hf : s.frames[slot]? = some f) :
    f.type = .none := by
  have hlist : s.frames.toList[slot]? = some f := by
    rw [← hf]
    simp
  exact h.frames_eq f (List.mem_of_getElem? hlist)

theorem OpState.idle_opsReset (s : OpState) : s.opsReset.Idle :=
  ⟨idle_cleared.agg_eq, idle_cleared.frames_eq, rfl⟩

/-- There is no unit, and nothing is left of one. -/
structure Closed (g : Globals) : Prop where
  stopped : g.prof.running = false
  empty : g.prof.Empty
  idle : g.ops.Idle

/-- The invariant that the calls keep up. -/
structure Lifecycle (g : Globals) : Prop where
  armed_iff : g.prof.timer.isArmed = true ↔ g.prof.running = true
  running_unit : g.prof.running = true →
    g.unit.handle ≠ 0 ∧ g.unit.sampled = true ∧ g.unit.profiling = true
  deadline_iff : g.prof.running = true →
    (g.prof.deadlineNs ≠ 0 ↔ g.unit.automatic = true ∧ g.unit.adopted = false)
  closed : g.unit.handle = 0 → Closed g

/-- What goes with it: the tables are sound, and the cap of automatic units is one that was let through. -/
structure Steady (g : Globals) : Prop extends Lifecycle g where
  sound : g.prof.Sound
  cap : g.active = true → autoMaxMsMin ≤ g.autoMaxMs ∧ g.autoMaxMs ≤ autoMaxMsMax

variable {g : Globals}

/-! ## Pieces -/

/-- A profiler that stands still needs its tables sound, and empty where no unit is open. -/
theorem Steady.of_stopped (hstopped : g.prof.running = false) (hidle : g.prof.timer.isArmed = false)
    (hsound : g.prof.Sound) (hclosed : g.unit.handle = 0 → g.prof.Empty ∧ g.ops.Idle)
    (hcap : g.active = true → autoMaxMsMin ≤ g.autoMaxMs ∧ g.autoMaxMs ≤ autoMaxMsMax) : Steady g where
  armed_iff := by rw [hstopped, hidle]
  running_unit h := absurd h (by rw [hstopped]; exact nofun)
  deadline_iff h := absurd h (by rw [hstopped]; exact nofun)
  closed h := ⟨hstopped, (hclosed h).1, (hclosed h).2⟩
  sound := hsound
  cap := hcap

/-- One that stands still is not armed. -/
theorem Steady.isArmed_of_stopped (h : Steady g) (hstopped : g.prof.running = false) :
    g.prof.timer.isArmed = false := by
  cases harmed : g.prof.timer.isArmed with
  | false => rfl
  | true =>
    rw [h.armed_iff.mp harmed] at hstopped
    cases hstopped

theorem Steady.stop (h : Steady g) : Steady { g with prof := g.prof.stop } :=
  .of_stopped (Profiler.State.stop_running _) (Profiler.State.stop_isArmed h.armed_iff.mp) h.sound.stop
    (fun hnone => ⟨(h.closed hnone).empty.same (Profiler.State.same_stop _), (h.closed hnone).idle⟩) h.cap

/-- The end of a unit whose profiler has been stopped. -/
theorem Steady.closeUnit (h : Steady g) (hstopped : g.prof.running = false) : Steady g.closeUnit := by
  refine .of_stopped ?_ ?_ h.sound.reset (fun _ => ⟨h.sound.empty_reset, g.ops.idle_opsReset⟩) h.cap
  · show g.prof.reset.running = false
    rw [Profiler.State.reset_running, hstopped]
  · show g.prof.reset.timer.isArmed = false
    rw [Profiler.State.reset_timer]
    exact h.isArmed_of_stopped hstopped

/-- The part of the globals that the invariant is about. -/
theorem Steady.of_eq (h : Steady g) {g' : Globals} (hprof : g'.prof = g.prof) (hunit : g'.unit = g.unit)
    (hops : g'.ops = g.ops) (hactive : g'.active = g.active) (hcap : g'.autoMaxMs = g.autoMaxMs) : Steady g' where
  armed_iff := by
    rw [hprof]
    exact h.armed_iff
  running_unit := by
    rw [hprof, hunit]
    exact h.running_unit
  deadline_iff := by
    rw [hprof, hunit]
    exact h.deadline_iff
  closed hnone := by
    rw [hunit] at hnone
    obtain ⟨hstopped, hempty, hidle⟩ := h.closed hnone
    constructor
    · rw [hprof, hstopped]
    · rw [hprof]
      exact hempty
    · rw [hops]
      exact hidle
  sound := by
    rw [hprof]
    exact h.sound
  cap := by
    rw [hactive, hcap]
    exact h.cap

theorem Steady.pushCrumb (h : Steady g) (kind code : UInt8) (label : Bytes) (now : UInt64) :
    Steady (g.pushCrumb kind code label now) := h.of_eq rfl rfl rfl rfl rfl

/-- The repair of a fork. -/
theorem Steady.repair (h : Steady g) (env : CallEnv) : Steady (g.repair env) := by
  have hsound : Profiler.State.Sound { g.prof with
      running := false, pendingTicks := 0, pendingDeliveries := 0 } :=
    h.sound.same ⟨rfl, rfl, rfl, rfl, rfl, rfl, rfl, rfl⟩
  have hafter : g.prof.afterFork = ({ g.prof with
      running := false, pendingTicks := 0, pendingDeliveries := 0 } : Profiler.State).reset := rfl
  refine .of_stopped ?_ rfl ?_ (fun _ => ⟨?_, g.ops.idle_opsReset⟩) h.cap
  · show g.prof.afterFork.running = false
    rw [hafter, Profiler.State.reset_running]
  · exact hsound.reset.same ⟨rfl, rfl, rfl, rfl, rfl, rfl, rfl, rfl⟩
  · exact hsound.empty_reset.same ⟨rfl, rfl, rfl, rfl, rfl, rfl, rfl, rfl⟩

/-- The look for a fork. -/
theorem Steady.detectFork (h : Steady g) (env : CallEnv) : Steady (g.detectFork env) := by
  unfold Globals.detectFork
  split
  · exact h
  · split
    · exact h.of_eq rfl rfl rfl rfl rfl
    · exact h.repair env

/-- Starting the profiler of an open unit, that is sampled, when it does not run. -/
theorem Steady.startProfiler (h : Steady g) (hstopped : g.prof.running = false) (hopen : g.unit.handle ≠ 0)
    (hsampled : g.unit.sampled = true) (request : UnitRequest) (maxDurationNs : Nat) (env : CallEnv)
    (hdeadline : maxDurationNs ≠ 0 ↔ g.unit.automatic = true ∧ g.unit.adopted = false)
    (hsmall : maxDurationNs < 2 ^ 63) : Steady (g.startProfiler request maxDurationNs env) := by
  have hidle := h.isArmed_of_stopped hstopped
  unfold Globals.startProfiler
  generalize (clamp request.periodUs periodUsMin periodUsMax).toNat * 1000 = periodNs
  generalize (clamp request.maxDepth 1 depthMax).toNat = maxDepth
  have hsound := h.sound.start periodNs maxDepth maxDurationNs env.startNow env.timer
  have hstarted := Profiler.State.started_start g.prof periodNs maxDepth maxDurationNs env.startNow env.timer
  generalize g.prof.start periodNs maxDepth maxDurationNs env.startNow env.timer = result at hstarted hsound
  -- The start is refused, or it is not armed, or the profiler runs.
  cases hstarted with
  | refused _ => exact .of_stopped hstopped hidle hsound (fun hnone => absurd hnone hopen) h.cap
  | unarmed s' _ _ hrunning harmed _ =>
    exact .of_stopped (hrunning.trans hstopped) (harmed.trans hidle) hsound (fun hnone => absurd hnone hopen) h.cap
  | running s' _ _ hrunning harmed _ _ hdeadlineNs =>
    refine ⟨⟨iff_of_true harmed hrunning, fun _ => ⟨hopen, hsampled, rfl⟩, fun _ => ?_,
      fun hnone => absurd hnone hopen⟩, hsound, h.cap⟩
    -- The deadline does not wrap around, so it is zero only where there is none.
    show s'.deadlineNs ≠ 0 ↔ g.unit.automatic = true ∧ g.unit.adopted = false
    rw [hdeadlineNs, ← hdeadline]
    by_cases hnone : maxDurationNs = 0
    · simp [hnone]
    · have hlt := env.startNow.lt
      rw [if_neg hnone, Profiler.u64_of_lt (by omega)]
      exact iff_of_true (by omega) hnone

/-- Clearing the storage of a profiler that does not run. -/
theorem Steady.reset (h : Steady g) (hstopped : g.prof.running = false) :
    Steady { g with prof := g.prof.reset } := by
  refine .of_stopped ?_ ?_ h.sound.reset (fun hnone => ⟨h.sound.empty_reset, (h.closed hnone).idle⟩) h.cap
  · show g.prof.reset.running = false
    rw [Profiler.State.reset_running, hstopped]
  · show g.prof.reset.timer.isArmed = false
    rw [Profiler.State.reset_timer]
    exact h.isArmed_of_stopped hstopped

/-- The next handle is not 0. -/
theorem advanceHandle_ne (handle : UInt32) : Globals.advanceHandle handle ≠ 0 := by
  unfold Globals.advanceHandle
  split
  · decide
  · assumption

/-! ## Units -/

/-- The new unit, before its profiler is started. -/
theorem Steady.openUnit (h : Steady g) (hstopped : g.prof.running = false) (request : UnitRequest)
    (automatic : Bool) (env : CallEnv) : Steady (g.openUnit request automatic env) :=
  .of_stopped hstopped (h.isArmed_of_stopped hstopped) h.sound
    (fun hnone => absurd hnone (advanceHandle_ne g.nextHandle)) h.cap

/-- A unit opened over a profiler that stands still. -/
theorem Steady.unitOpen (h : Steady g) (hstopped : g.prof.running = false) (request : UnitRequest)
    (automatic : Bool) (env : CallEnv) (hactive : automatic = true → g.active = true) :
    Steady (g.unitOpen request automatic env) := by
  have hopened := h.openUnit hstopped request automatic env
  unfold Globals.unitOpen
  simp only
  split
  · next hwanted =>
    simp only [Bool.and_eq_true] at hwanted
    refine hopened.startProfiler hstopped (advanceHandle_ne g.nextHandle) hwanted.1.2 request _ env ?_ ?_
    · -- Only an automatic unit has a limit, and it is not adopted yet.
      show (if automatic then g.autoMaxMs.toNat * 1000000 else 0) ≠ 0 ↔ automatic = true ∧ false = false
      cases automatic with
      | false => simp
      | true =>
        have hcap := h.cap (hactive rfl)
        simp only [autoMaxMsMin, if_true, true_and] at hcap ⊢
        exact iff_of_true (by omega) trivial
    · show (if automatic then g.autoMaxMs.toNat * 1000000 else 0) < 2 ^ 63
      cases automatic with
      | false => exact Nat.two_pow_pos 63
      | true =>
        have hcap := h.cap (hactive rfl)
        simp only [autoMaxMsMax, if_true] at hcap ⊢
        omega
  · exact hopened.reset hstopped

/-- A trace context does not matter. -/
theorem Steady.applyTrace (h : Steady g) (context : Option Context) :
    Steady { g with unit := g.unit.applyTrace context } := by
  obtain ⟨hhandle, -, hsampled, hprofiling, hautomatic, hadopted, -⟩ := g.unit.applyTrace_same context
  refine ⟨⟨h.armed_iff, fun hrunning => ?_, fun hrunning => ?_, fun hnone => ?_⟩, h.sound, h.cap⟩
  · show (g.unit.applyTrace context).handle ≠ 0 ∧ _
    rw [hhandle, hsampled, hprofiling]
    exact h.running_unit hrunning
  · show g.prof.deadlineNs ≠ 0 ↔ (g.unit.applyTrace context).automatic = true ∧ _
    rw [hautomatic, hadopted]
    exact h.deadline_iff hrunning
  · have hclosed := h.closed (hhandle.symm.trans hnone)
    exact ⟨hclosed.stopped, hclosed.empty, hclosed.idle⟩

/-- The end of an adoption: the deadline is cleared, and there is none for an adopted unit. -/
theorem Steady.adopted (harmed : g.prof.timer.isArmed = true ↔ g.prof.running = true)
    (hrunning : g.prof.running = true → g.unit.sampled = true ∧ g.unit.profiling = true)
    (hopen : g.unit.handle ≠ 0) (hadopted : g.unit.adopted = true) (hsound : g.prof.Sound)
    (hcap : g.active = true → autoMaxMsMin ≤ g.autoMaxMs ∧ g.autoMaxMs ≤ autoMaxMsMax)
    (context : Option Context) : Steady { g with
      prof := g.prof.clearDeadline
      unit := { g.unit with automatic := true }.applyTrace context } := by
  have hcleared : Steady { g with
      prof := g.prof.clearDeadline
      unit := { g.unit with automatic := true } } := by
    refine ⟨⟨harmed, fun h => ⟨hopen, hrunning h⟩, fun _ => ?_, fun hnone => absurd hnone hopen⟩,
      hsound.same g.prof.same_clearDeadline, hcap⟩
    show (0 : Nat) ≠ 0 ↔ true = true ∧ g.unit.adopted = false
    rw [hadopted]
    exact iff_of_false (fun h => h rfl) fun h => absurd h.2 nofun
  exact hcleared.applyTrace context

/-- An adoption. -/
theorem Steady.adopt (h : Steady g) (hopen : g.unit.handle ≠ 0) (context : Option Context) (env : CallEnv) :
    Steady (g.adopt context env) := by
  unfold Globals.adopt
  simp only
  generalize g.readContext context = request
  generalize (Globals.contextType (context.getD [])).getD g.unit.type = type
  split
  · -- The caller does not want a profile.
    refine Steady.adopted (g := { g with
      prof := g.prof.stop.reset
      unit := { g.unit with adopted := true, sampled := request.sampled, type := type, profiling := false } })
      ?_ ?_ hopen rfl h.sound.stop.reset h.cap context
    · have hidle := h.stop.isArmed_of_stopped (Profiler.State.stop_running _)
      rw [Profiler.State.reset_timer, Profiler.State.reset_running, Profiler.State.stop_running]
      rw [hidle]
    · intro hrunning
      rw [Profiler.State.reset_running, Profiler.State.stop_running] at hrunning
      cases hrunning
  · next hwanted =>
    have hsampled : request.sampled = true := by
      cases hs : request.sampled with
      | true => rfl
      | false => exact absurd (by rw [hs]; rfl) hwanted
    split
    · next hstart =>
      -- The unit has no profile yet, so the profiler does not run.
      simp only [Bool.and_eq_true, Bool.not_eq_true'] at hstart
      have hstopped : g.prof.running = false := by
        cases hrunning : g.prof.running with
        | false => rfl
        | true =>
          have hprofiling := (h.running_unit hrunning).2.2
          rw [hstart.1] at hprofiling
          cases hprofiling
      have hunit : Steady { g with
          unit := { g.unit with adopted := true, sampled := request.sampled, type := type } } :=
        .of_stopped hstopped (h.isArmed_of_stopped hstopped) h.sound (fun hnone => absurd hnone hopen) h.cap
      have hstarted := hunit.startProfiler hstopped hopen hsampled request 0 env
        (iff_of_false (fun h => h rfl) fun h => absurd h.2 nofun) (by decide)
      refine Steady.adopted hstarted.armed_iff (fun hrunning => (hstarted.running_unit hrunning).2) ?_ ?_
        hstarted.sound hstarted.cap context
      · unfold Globals.startProfiler
        simp only
        split <;> exact hopen
      · unfold Globals.startProfiler
        simp only
        split <;> rfl
    · exact Steady.adopted (g := { g with
        unit := { g.unit with adopted := true, sampled := request.sampled, type := type } })
        h.armed_iff (fun hrunning => ⟨hsampled, (h.running_unit hrunning).2.2⟩) hopen rfl h.sound h.cap context

/-! ## The calls -/

/-- `begin`. -/
theorem Steady.begin (h : Steady g) (context : Option Context) (env : CallEnv) :
    Steady (g.begin context env).2 := by
  unfold Globals.begin
  split
  · exact h
  · have hfork := h.detectFork env
    show Steady ((g.detectFork env).beginUnit context env)
    generalize g.detectFork env = g at hfork
    unfold Globals.beginUnit
    split
    · next hadoptable =>
      simp only [Globals.adoptable, Bool.and_eq_true, bne_iff_ne] at hadoptable
      exact hfork.adopt hadoptable.1.1 context env
    · simp only
      split
      · exact (hfork.stop.unitOpen (Profiler.State.stop_running _) _ false env nofun).applyTrace context
      · next hnone =>
        have hstopped := (hfork.closed (not_not.mp hnone)).stopped
        exact (hfork.unitOpen hstopped _ false env nofun).applyTrace context

/-- `finish`. -/
theorem Steady.finish (h : Steady g) (handle : Int) (includeProfile includeStacks : Bool) (env : CallEnv) :
    Steady (g.finish handle includeProfile includeStacks env).2 := by
  have hfork := h.detectFork env
  unfold Globals.finish Globals.finishUnit
  split
  · exact hfork
  · split
    · exact hfork
    · exact (hfork.stop.pushCrumb _ _ _ _).closeUnit (Profiler.State.stop_running _)

/-- The recorder after `RINIT`. -/
def requestRecorder (g : Globals) (env : CallEnv) : Recorder :=
  if g.active && g.crashEnabled then g.recorder.crashOpenSink env.sink env.pid else g.recorder

/-- What `RINIT` does after the look for a fork: it opens a unit, or does not. -/
inductive RequestStarted (g : Globals) (sapi : Option Bytes) (env : CallEnv) : Globals → Prop
  | quiet : RequestStarted g sapi env { g with recorder := requestRecorder g env }
  | opened : g.active = true → g.unit.handle = 0 →
      RequestStarted g sapi env (Globals.unitOpen { g with recorder := requestRecorder g env }
        ⟨Globals.unitTypeForSapi sapi, true, true, g.periodUs, g.maxDepth⟩ true env)

/-- `PHP_RINIT` looks, and starts the request. -/
theorem started_rinit (g : Globals) (sapi : Option Bytes) (env : CallEnv) :
    RequestStarted (g.detectFork env) sapi env (g.rinit sapi env) := by
  unfold Globals.rinit
  simp only
  generalize g.detectFork env = g
  have hrecorder : (if (g.active && g.crashEnabled) = true then
      { g with recorder := g.recorder.crashOpenSink env.sink env.pid } else g) =
        { g with recorder := requestRecorder g env } := by
    unfold requestRecorder
    split <;> rfl
  rw [hrecorder]
  split
  · next hauto =>
    simp only [Bool.and_eq_true, beq_iff_eq] at hauto
    exact .opened hauto.1.1.1 hauto.2
  · exact .quiet

/-- `PHP_RINIT`. -/
theorem Steady.rinit (h : Steady g) (sapi : Option Bytes) (env : CallEnv) : Steady (g.rinit sapi env) := by
  have hfork := h.detectFork env
  have hstarted := started_rinit g sapi env
  generalize g.rinit sapi env = g' at hstarted
  cases hstarted with
  | quiet => exact hfork.of_eq rfl rfl rfl rfl rfl
  | opened hactive hnone =>
    have hsink : Steady { g.detectFork env with recorder := requestRecorder (g.detectFork env) env } :=
      hfork.of_eq rfl rfl rfl rfl rfl
    exact hsink.unitOpen (hfork.closed hnone).stopped _ true env fun _ => hactive

/-- `PHP_RSHUTDOWN`. -/
theorem Steady.rshutdown (h : Steady g) : Steady g.rshutdown := by
  unfold Globals.rshutdown
  split
  · exact h.stop.closeUnit (Profiler.State.stop_running _)
  · exact h

/-- While there is a unit, its operations do not matter. -/
theorem Steady.of_ops (h : Steady g) (hopen : g.unit.handle ≠ 0) (ops : OpState) :
    Steady { g with ops := ops } :=
  ⟨⟨h.armed_iff, h.running_unit, h.deadline_iff, fun hnone => absurd hnone hopen⟩, h.sound, h.cap⟩

/-- The begin of an operation. -/
theorem Steady.noteOpBegin (h : Steady g) (type : OpType) (now : UInt64) : Steady (g.noteOpBegin type now).2 := by
  unfold Globals.noteOpBegin
  simp only
  split
  · next hopen => exact (h.pushCrumb _ _ _ _).of_ops hopen _
  · exact h.pushCrumb _ _ _ _

/-- And its end. -/
theorem Steady.noteOpEnd (h : Steady g) (token : OpToken) (now : UInt64) : Steady (g.noteOpEnd token now) := by
  unfold Globals.noteOpEnd
  simp only
  split
  · next hopen => exact (h.of_ops hopen _).pushCrumb _ _ _ _
  · exact h.pushCrumb _ _ _ _

/-- Ticks touch nothing that the invariant is about. -/
theorem Steady.tick (h : Steady g) (ticks : Nat) : Steady { g with prof := g.prof.tick ticks } :=
  ⟨⟨h.armed_iff, h.running_unit, h.deadline_iff, fun hnone => ⟨(h.closed hnone).stopped,
    (h.closed hnone).empty.same (g.prof.same_tick ticks), (h.closed hnone).idle⟩⟩,
    h.sound.same (g.prof.same_tick ticks), h.cap⟩

/-- An interrupt. -/
theorem Steady.interrupt (h : Steady g) {prof : Profiler.State}
    (hinterrupt : Profiler.State.Interrupted g.prof prof) : Steady { g with prof := prof } := by
  have hclosed : g.unit.handle = 0 → Closed { g with prof := prof } := fun hnone => by
    obtain ⟨hstopped, hempty, hidle⟩ := h.closed hnone
    obtain ⟨hsame, hstays, -⟩ := hinterrupt.stopped hstopped
    exact ⟨hstays, hempty.same hsame, hidle⟩
  cases hrunning : g.prof.running with
  | false =>
    obtain ⟨-, hstays, htimer⟩ := hinterrupt.stopped hrunning
    refine .of_stopped hstays ?_ hinterrupt.sound (fun hnone => ⟨(hclosed hnone).empty, (hclosed hnone).idle⟩) h.cap
    show prof.timer.isArmed = false
    rw [htimer]
    exact h.isArmed_of_stopped hrunning
  | true =>
    -- The profiler runs on, or the deadline has stopped it.
    obtain ⟨hstays, htimer⟩ | ⟨hstopped, htimer⟩ := hinterrupt.running hrunning
    · refine ⟨⟨?_, fun _ => h.running_unit hrunning, fun _ => ?_, hclosed⟩, hinterrupt.sound, h.cap⟩
      · show prof.timer.isArmed = true ↔ prof.running = true
        rw [htimer, hstays]
        exact iff_of_true (h.armed_iff.mpr hrunning) rfl
      · show prof.deadlineNs ≠ 0 ↔ _
        rw [hinterrupt.deadlineNs_eq]
        exact h.deadline_iff hrunning
    · refine .of_stopped hstopped ?_ hinterrupt.sound (fun hnone => ⟨(hclosed hnone).empty, (hclosed hnone).idle⟩)
        h.cap
      show prof.timer.isArmed = false
      rw [htimer]
      exact Profiler.Timer.disarm_isArmed _

/-- A fork copies everything but the timer itself. -/
theorem Steady.fork (h : Steady g) : Steady { g with prof := { g.prof with timer := g.prof.timer.fork } } :=
  ⟨⟨h.armed_iff, h.running_unit, h.deadline_iff, fun hnone => ⟨(h.closed hnone).stopped,
    (h.closed hnone).empty.same (g.prof.same_timer g.prof.timer.fork), (h.closed hnone).idle⟩⟩,
    h.sound.same (g.prof.same_timer g.prof.timer.fork), h.cap⟩

/-- **Every step keeps the invariant.** -/
theorem Steady.step {w w' : Worker} {a : Action} (h : Steady w.globals) (hstep : WorkerSteps w a w') :
    Steady w'.globals := by
  -- Each operation has its lemma above.
  cases a with
  | rinit sapi e => cases hstep; exact h.rinit sapi _
  | rshutdown => cases hstep; exact h.rshutdown
  | begin context e => cases hstep; exact h.begin context _
  | finish handle p s e => cases hstep; exact h.finish handle p s _
  | status e => cases hstep; exact h.detectFork _
  | iniSet periodUs maxDepth => cases hstep; exact h.of_eq rfl rfl rfl rfl rfl
  | opBegin type now => cases hstep; exact h.noteOpBegin type now
  | opEnd call now =>
    simp only [WorkerSteps, Worker.step] at hstep
    split at hstep
    · cases hstep; exact h.noteOpEnd _ now
    · cases hstep
  | tick ticks => cases hstep; exact h.tick ticks
  | interrupt stack between now =>
    simp only [WorkerSteps, Worker.step] at hstep
    split at hstep
    · next prof hinterrupt => cases hstep; exact h.interrupt (h.sound.interrupt hinterrupt)
    · cases hstep
  | fork child => cases hstep; exact h.fork

/-! ## Module startup -/

theorem clamp_ge (value min max : Int) (h : min ≤ max) : min ≤ clamp value min max := by
  unfold clamp
  split_ifs <;> omega

theorem clamp_le (value min max : Int) (h : min ≤ max) : clamp value min max ≤ max := by
  unfold clamp
  split_ifs <;> omega

/-- The profiler is set up with numbers in their ranges. -/
def setup (ini : Ini) (io : StartupIo) : Profiler.Setup where
  maxFrames := (clamp ini.maxFrames Profiler.framesMin Profiler.framesMax).toNat
  maxNodes := (clamp ini.maxNodes Profiler.nodesMin Profiler.nodesMax).toNat
  slab := io.slab.map fun byte => (List.range ((clamp ini.maxFrames Profiler.framesMin
    Profiler.framesMax).toNat * Profiler.arenaBytesPerFrame)).map byte
  frames := io.frames
  nodes := io.nodes
  timer := .blank
  frames_ge := by
    have h := clamp_ge ini.maxFrames Profiler.framesMin Profiler.framesMax (by decide)
    omega
  frames_le := by
    have h := clamp_le ini.maxFrames Profiler.framesMin Profiler.framesMax (by decide)
    omega
  nodes_ge := by
    have h := clamp_ge ini.maxNodes Profiler.nodesMin Profiler.nodesMax (by decide)
    omega
  nodes_le := by
    have h := clamp_le ini.maxNodes Profiler.nodesMin Profiler.nodesMax (by decide)
    omega
  slab_length := by
    intro bytes hbytes
    obtain ⟨byte, -, rfl⟩ := Option.map_eq_some_iff.mp hbytes
    rw [List.length_map, List.length_range]

/-- A profiler after module startup: the one that has been set up, or none; and the signal's handler may be
installed. -/
inductive Readied (ini : Ini) (io : StartupIo) : Profiler.State → Prop
  | off : Readied ini io .blank
  | on (installed : Bool) : Readied ini io { (setup ini io).prof with
      timer := { Profiler.Timer.blank with installed := installed } }

/-- What module startup leaves. -/
structure Booted (ini : Ini) (io : StartupIo) (g : Globals) : Prop where
  unit_eq : g.unit = .cleared
  ops_eq : g.ops = .cleared
  prof : Readied ini io g.prof
  cap : g.active = true → autoMaxMsMin ≤ g.autoMaxMs ∧ g.autoMaxMs ≤ autoMaxMsMax
  enabled : g.active = true → g.enabled = true

/-- The startup leaves the module disabled, unready, or ready. -/
theorem booted_minit (ini : Ini) (io : StartupIo) (pid : Int) : Booted ini io (Globals.minit ini io pid) := by
  have hcap : autoMaxMsMin ≤ clamp ini.autoMaxMs autoMaxMsMin autoMaxMsMax ∧
      clamp ini.autoMaxMs autoMaxMsMin autoMaxMsMax ≤ autoMaxMsMax :=
    ⟨clamp_ge _ _ _ (by decide), clamp_le _ _ _ (by decide)⟩
  have htimer : (setup ini io).prof.timer = .blank := (Profiler.State.setup_idle _).2.1
  have hprof : ((Profiler.State.init .blank (clamp ini.maxFrames Profiler.framesMin Profiler.framesMax).toNat
      (clamp ini.maxNodes Profiler.nodesMin Profiler.nodesMax).toNat (io.slab.map fun byte =>
        (List.range ((clamp ini.maxFrames Profiler.framesMin Profiler.framesMax).toNat *
          Profiler.arenaBytesPerFrame)).map byte) io.frames io.nodes).2) = (setup ini io).prof := rfl
  unfold Globals.minit
  -- The startup ends early where the module is disabled or the crumbs get no memory, and it passes
  -- over a profiler that is off.
  cases henabled : ini.enabled with
  | false => exact ⟨rfl, rfl, .off, nofun, nofun⟩
  | true =>
    simp only [Bool.not_true, Bool.false_eq_true, if_false]
    split
    · exact ⟨rfl, rfl, .off, nofun, nofun⟩
    · split
      · exact ⟨rfl, rfl, .off, fun _ => hcap, fun _ => rfl⟩
      · generalize Profiler.State.init .blank (clamp ini.maxFrames Profiler.framesMin
          Profiler.framesMax).toNat (clamp ini.maxNodes Profiler.nodesMin Profiler.nodesMax).toNat
          (io.slab.map fun byte => (List.range ((clamp ini.maxFrames Profiler.framesMin
            Profiler.framesMax).toNat * Profiler.arenaBytesPerFrame)).map byte) io.frames io.nodes = started
          at hprof
        obtain ⟨ok, prof⟩ := started
        have heq : prof = (setup ini io).prof := hprof
        rw [heq]
        have hinstalled : ∀ timer : Profiler.Timer,
            timer = { Profiler.Timer.blank with installed := timer.installed } →
            Readied ini io { (setup ini io).prof with timer := timer } := by
          intro timer heq
          rw [heq]
          exact .on timer.installed
        cases ok with
        | false =>
          refine ⟨rfl, rfl, ?_, fun _ => hcap, fun _ => rfl⟩
          have hsame := hinstalled (setup ini io).prof.timer (by rw [htimer])
          exact hsame
        | true =>
          simp only [htimer, Profiler.Timer.init]
          cases io.timer with
          | false => exact ⟨rfl, rfl, hinstalled _ rfl, fun _ => hcap, fun _ => rfl⟩
          | true => exact ⟨rfl, rfl, hinstalled _ rfl, fun _ => hcap, fun _ => rfl⟩

/-- A profiler that has never been started. -/
theorem Readied.idle {ini : Ini} {io : StartupIo} {prof : Profiler.State} (h : Readied ini io prof) :
    prof.running = false ∧ prof.timer.isArmed = false ∧ prof.timer.created = false ∧
      prof.timer.kernel = .none ∧ prof.Sound ∧ prof.Empty := by
  cases h with
  | off =>
    exact ⟨rfl, rfl, rfl, rfl, ⟨nofun, fun _ => ⟨rfl, rfl, rfl, rfl⟩⟩, rfl, rfl, rfl, .inl rfl⟩
  | on installed =>
    obtain ⟨hstopped, -, hempty⟩ := Profiler.State.setup_idle (setup ini io)
    exact ⟨hstopped, rfl, rfl, rfl, (setup ini io).fresh.sound.same ⟨rfl, rfl, rfl, rfl, rfl, rfl, rfl, rfl⟩,
      hempty.same ⟨rfl, rfl, rfl, rfl, rfl, rfl, rfl, rfl⟩⟩

/-- A worker after its startup is steady. -/
theorem Booted.steady {ini : Ini} {io : StartupIo} (h : Booted ini io g) : Steady g := by
  obtain ⟨hstopped, hidle, -, -, hsound, hempty⟩ := h.prof.idle
  refine .of_stopped hstopped hidle hsound (fun _ => ⟨hempty, ?_⟩) h.cap
  rw [h.ops_eq]
  exact OpState.idle_cleared

/-- And after every run. -/
theorem steady_of_run {ini : Ini} {io : StartupIo} {pid : Int} {as : List Action} {w : Worker}
    (hrun : Run WorkerSteps (startedWorker ini io pid) as w) : Steady w.globals := by
  have hstep : ∀ w a w', Steady (Worker.globals w) → WorkerSteps w a w' → Steady w'.globals :=
    fun _ _ _ h hs => h.step hs
  have h := Run.invariant hstep (booted_minit ini io pid).steady hrun
  exact h

end CboxTelemetry.Extension
