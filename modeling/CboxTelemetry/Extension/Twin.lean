import CboxTelemetry.Extension.Accounting
import CboxTelemetry.Extension.AlikeOps
import CboxTelemetry.Extension.Handles
import CboxTelemetry.Profiler.Restart

/-!
# Extensions that cannot be told apart

Two states of the extension are alike if their units differ in nothing but the handle, their operations and
their profilers are alike, and so are the settings (`Globals.Alike`). The ring, the recorder and the numbers that
have been given out are not part of it. `timed` is for two runs that read the same of the clock and of the
collector, `tied` for two that have the same timer.
-/

namespace CboxTelemetry.Extension

open Profiler (Instant Stack TimerIo)
open Profiler.State (SameRoom SamePending)

/-! ## The relations -/

/-- Units that differ in the handle, and in what is for the crash record only. -/
structure UnitState.Alike (timed : Prop) (u u' : UnitState) : Prop where
  closed_iff : u'.handle = 0 ↔ u.handle = 0
  type_eq : u'.type = u.type
  sampled_eq : u'.sampled = u.sampled
  profiling_eq : u'.profiling = u.profiling
  automatic_eq : u'.automatic = u.automatic
  adopted_eq : u'.adopted = u.adopted
  startNs_eq : timed → u'.startNs = u.startNs

/-- The settings that the functions read. -/
structure Settings where
  enabled : Bool
  active : Bool
  profilerEnabled : Bool
  periodUs : Int
  maxDepth : Int
  autoStart : Bool
  autoMaxMs : Int

def Globals.settings (g : Globals) : Settings :=
  ⟨g.enabled, g.active, g.profilerEnabled, g.periodUs, g.maxDepth, g.autoStart, g.autoMaxMs⟩

/-- The profiler is stopped before a unit is opened, and before one is closed. -/
def Globals.stopped (g : Globals) : Globals := { g with prof := g.prof.stop }

/-- What a unit was told when it was opened. -/
def Globals.gcAtBegin (g : Globals) : UInt64 × UInt64 := (g.gcRunsAtBegin, g.gcCollectedAtBegin)

structure Globals.Alike (timed tied : Prop) (g g' : Globals) : Prop where
  settings : g'.settings = g.settings
  unit : g.unit.Alike timed g'.unit
  ops : g.ops.Alike timed g'.ops
  prof : g.prof.Alike tied g'.prof
  period : g.unit.profiling = true → g'.prof.periodNs = g.prof.periodNs
  gc : timed → g.unit.handle ≠ 0 → g'.gcAtBegin = g.gcAtBegin

/-- The environments of one call in both. -/
structure CallEnv.Alike (timed : Prop) (env env' : CallEnv) : Prop where
  now_eq : timed → env'.now = env.now
  gc_eq : timed → env'.gcRuns = env.gcRuns ∧ env'.gcCollected = env.gcCollected

theorem UnitState.alike_cleared (timed : Prop) : UnitState.Alike timed .cleared .cleared :=
  ⟨Iff.rfl, rfl, rfl, rfl, rfl, rfl, fun _ => rfl⟩

/-- The ids of a unit do not matter. -/
theorem UnitState.Alike.applyTrace {timed : Prop} {u u' : UnitState} (h : u.Alike timed u')
    (context : Option Context) : (u.applyTrace context).Alike timed (u'.applyTrace context) := by
  obtain ⟨h₁, h₂, h₃, h₄, h₅, h₆, h₇⟩ := u.applyTrace_same context
  obtain ⟨k₁, k₂, k₃, k₄, k₅, k₆, k₇⟩ := u'.applyTrace_same context
  constructor
  · rw [h₁, k₁]
    exact h.closed_iff
  · rw [h₂, k₂, h.type_eq]
  · rw [h₃, k₃, h.sampled_eq]
  · rw [h₄, k₄, h.profiling_eq]
  · rw [h₅, k₅, h.automatic_eq]
  · rw [h₆, k₆, h.adopted_eq]
  · intro htimed
    rw [h₇, k₇, h.startNs_eq htimed]

/-- The period that is asked for. -/
def UnitRequest.periodNs (request : UnitRequest) : Nat := (clamp request.periodUs periodUsMin periodUsMax).toNat * 1000

/-- The period asked for is clamped, and so not 0. -/
theorem UnitRequest.periodNs_ne_zero (request : UnitRequest) : request.periodNs ≠ 0 := by
  have hge := clamp_ge request.periodUs periodUsMin periodUsMax (by decide)
  have hmin : periodUsMin = 100 := rfl
  unfold UnitRequest.periodNs
  omega

namespace Globals
variable {timed tied : Prop} {g g' : Globals} {env env' : CallEnv}

/-! ## Opening a unit -/

/-- The unit asks for a profile, and gets one if the timer can be armed. -/
def startsProfiler (g : Globals) (request : UnitRequest) : Prop :=
  request.wantProfile = true ∧ request.sampled = true ∧ g.profilerEnabled = true ∧ g.prof.ready = true

instance (g : Globals) (request : UnitRequest) : Decidable (g.startsProfiler request) :=
  inferInstanceAs (Decidable (_ ∧ _ ∧ _ ∧ _))

/-- Whether the timer can be armed. -/
def arms (g : Globals) (request : UnitRequest) (io : TimerIo) : Bool :=
  (g.prof.timer.arm io request.periodNs).1

/-- Profilers that stand still and have the same room. -/
structure AtRest (g g' : Globals) : Prop where
  room : SameRoom g.prof g'.prof
  sound : g.prof.Sound
  sound' : g'.prof.Sound
  stopped : g.prof.running = false
  pending : SamePending g.prof g'.prof

theorem AtRest.alike_reset (h : AtRest g g') (htimer : tied → g'.prof.timer = g.prof.timer) :
    g.prof.reset.Alike tied g'.prof.reset :=
  h.room.alike_reset h.sound h.sound' h.pending (fun hrunning => absurd hrunning (by rw [h.stopped]; exact nofun)) htimer

/-- The limit of a unit, for its profile. -/
def limitNs (g : Globals) (automatic : Bool) : Nat := if automatic then g.autoMaxMs.toNat * 1000000 else 0

/-- A unit is opened, and its profiler is started where it is wanted. -/
theorem unitOpen_eq (g : Globals) (request : UnitRequest) (automatic : Bool) (env : CallEnv) :
    g.unitOpen request automatic env =
      if request.wantProfile && request.sampled && g.profilerEnabled then
        (g.openUnit request automatic env).startProfiler request (g.limitNs automatic) env
      else { g.openUnit request automatic env with prof := g.prof.reset } := rfl

/-- A start that succeeds is one of a profiler that is ready. -/
theorem ready_of_start {s : Profiler.State} {periodNs maxDepth maxDurationNs : Nat} {now : Instant} {io : TimerIo}
    (h : (s.start periodNs maxDepth maxDurationNs now io).1 = true) : s.ready = true := by
  have hstarted := Profiler.State.started_start s periodNs maxDepth maxDurationNs now io
  generalize s.start periodNs maxDepth maxDurationNs now io = r at h hstarted
  cases hstarted with
  | refused _ => cases h
  | unarmed _ _ _ _ _ _ => cases h
  | running _ hready _ _ _ _ _ _ => exact hready

/-- Starting the profilers of units that are open. -/
theorem AtRest.alike_startProfiler {u u' : Globals} (h : AtRest u u') (hsettings : u'.settings = u.settings)
    (hunit : ∀ profiling : Bool, UnitState.Alike timed { u.unit with profiling := profiling }
      { u'.unit with profiling := profiling })
    (hops : u.ops.Alike timed u'.ops) (hgc : timed → u.unit.handle ≠ 0 → u'.gcAtBegin = u.gcAtBegin)
    (hprofiling : u.unit.profiling = false ∧ u'.unit.profiling = false) (request : UnitRequest) {limit : Nat}
    (hstart : limit ≠ 0 → env'.startNow = env.startNow)
    (htimer : tied → u'.prof.timer = u.prof.timer ∧ env'.timer = env.timer)
    (harm : u.prof.ready = true → u'.arms request env'.timer = u.arms request env.timer) :
    Alike timed tied (u.startProfiler request limit env) (u'.startProfiler request limit env') := by
  have hlive : u.prof.running = true →
      u'.prof.maxDepth = u.prof.maxDepth ∧ u'.prof.deadlineNs = u.prof.deadlineNs := by
    intro hrunning
    rw [h.stopped] at hrunning
    cases hrunning
  obtain ⟨hok, hprof, hperiod⟩ := @SameRoom.alike_start _ _ tied h.room h.sound h.sound' h.pending
    request.periodNs (clamp request.maxDepth 1 depthMax).toNat limit request.periodNs_ne_zero env.startNow
    env'.startNow hstart env.timer env'.timer hlive (fun htied => (htimer htied).1) harm
    (fun htied => by rw [(htimer htied).1, (htimer htied).2])
  have hready := @ready_of_start u.prof request.periodNs (clamp request.maxDepth 1 depthMax).toNat limit env.startNow
    env.timer
  -- The two starts come out alike: both refused, or both running.
  unfold Globals.startProfiler
  simp only
  unfold UnitRequest.periodNs at hok hprof hperiod hready
  rw [hok]
  generalize u.prof.start _ _ limit env.startNow env.timer = r at hprof hperiod hready
  generalize u'.prof.start _ _ limit env'.startNow env'.timer = r' at hprof hperiod
  obtain ⟨ok, prof⟩ := r
  cases ok with
  | false =>
    refine ⟨hsettings, ?_, hops, hprof, fun hon => ?_, hgc⟩
    · have hsame := hunit false
      rw [show ({ u.unit with profiling := false } : UnitState) = u.unit from by rw [← hprofiling.1],
        show ({ u'.unit with profiling := false } : UnitState) = u'.unit from by rw [← hprofiling.2]] at hsame
      exact hsame
    · have hon : u.unit.profiling = true := hon
      rw [hprofiling.1] at hon
      cases hon
  | true =>
    exact ⟨hsettings, hunit true, hops, hprof, fun _ => hperiod (hready rfl), hgc⟩

/-- **Opening a unit** makes them alike, if the timer can be armed in both or in neither. -/
theorem AtRest.alike_unitOpen (h : AtRest g g') (hsettings : g'.settings = g.settings) (request : UnitRequest)
    (automatic : Bool) (henv : CallEnv.Alike timed env env')
    (hstart : automatic = true → env'.startNow = env.startNow)
    (htimer : tied → g'.prof.timer = g.prof.timer ∧ env'.timer = env.timer)
    (harm : g.startsProfiler request → g'.arms request env'.timer = g.arms request env.timer) :
    Alike timed tied (g.unitOpen request automatic env) (g'.unitOpen request automatic env') := by
  -- The new units differ in their handles alone.
  have hopen : (g'.openUnit request automatic env').unit.handle ≠ 0 := advanceHandle_ne g'.nextHandle
  have hunit : ∀ profiling : Bool, UnitState.Alike timed
      { (g.openUnit request automatic env).unit with profiling := profiling }
      { (g'.openUnit request automatic env').unit with profiling := profiling } := fun profiling =>
    ⟨iff_of_false hopen (advanceHandle_ne g.nextHandle), rfl, rfl, rfl, rfl, rfl,
      fun htimed => congrArg clock (henv.now_eq htimed)⟩
  have hgc : timed → (g'.openUnit request automatic env').gcAtBegin = (g.openUnit request automatic env).gcAtBegin := by
    intro htimed
    obtain ⟨hruns, hcollected⟩ := henv.gc_eq htimed
    exact Prod.ext hruns hcollected
  have hlimit : g'.limitNs automatic = g.limitNs automatic := by
    rw [limitNs, limitNs, show g'.autoMaxMs = g.autoMaxMs from congrArg Settings.autoMaxMs hsettings]
  rw [unitOpen_eq, unitOpen_eq, hlimit,
    show g'.profilerEnabled = g.profilerEnabled from congrArg Settings.profilerEnabled hsettings]
  split
  · next hwanted =>
    simp only [Bool.and_eq_true] at hwanted
    have hrest : AtRest (g.openUnit request automatic env) (g'.openUnit request automatic env') :=
      ⟨h.room, h.sound, h.sound', h.stopped, h.pending⟩
    refine hrest.alike_startProfiler hsettings hunit (OpState.alike_opsReset _ _) (fun htimed _ => hgc htimed) ⟨rfl, rfl⟩
      request ?_ htimer fun hready => harm ⟨hwanted.1.1, hwanted.1.2, hwanted.2, hready⟩
    unfold limitNs
    cases automatic with
    | true => exact fun _ => hstart rfl
    | false => exact fun hno => absurd rfl hno
  · exact ⟨hsettings, hunit false, OpState.alike_opsReset _ _, h.alike_reset fun htied => (htimer htied).1, nofun, fun htimed _ => hgc htimed⟩

/-! ## Hooks, ticks and interrupts -/

/-- Tokens of one call in both. -/
structure Paired (timed : Prop) (s s' : OpState) (t t' : OpToken) : Prop extends t.Alike s s' t' where
  startNs_eq : timed → t'.startNs = t.startNs

/-- The begin of an operation, on both sides. -/
theorem Alike.noteOpBegin (h : Alike timed tied g g') (type : OpType) {now now' : UInt64} (hnow : timed → now' = now) :
    Alike timed tied (g.noteOpBegin type now).2 (g'.noteOpBegin type now').2 ∧
      Paired timed (g.noteOpBegin type now).2.ops (g'.noteOpBegin type now').2.ops (g.noteOpBegin type now).1
        (g'.noteOpBegin type now').1 := by
  unfold Globals.noteOpBegin
  simp only [pushCrumb]
  by_cases hclosed : g.unit.handle = 0
  · have hclosed' := h.unit.closed_iff.mpr hclosed
    simp only [hclosed, hclosed', ne_eq, not_true_eq_false, if_false]
    refine ⟨⟨h.settings, h.unit, h.ops, h.prof, h.period, h.gc⟩, ⟨rfl, rfl, ?_⟩, hnow⟩
    rw [UInt32.sub_self, UInt32.sub_self]
  · have hclosed' := mt h.unit.closed_iff.mp hclosed
    obtain ⟨htoken, hops⟩ := h.ops.opsBegin type now now'
    simp only [hclosed, hclosed', ne_eq, not_false_eq_true, if_true]
    refine ⟨⟨h.settings, h.unit, hops, h.prof, h.period, h.gc⟩, htoken, fun htimed => ?_⟩
    rw [(OpState.opsBegin_token _ type now').2.1, (OpState.opsBegin_token _ type now).2.1, hnow htimed]

/-- The end of an operation, on both sides. -/
theorem Alike.noteOpEnd (h : Alike timed tied g g') {t t' : OpToken} (ht : Paired timed g.ops g'.ops t t')
    {now now' : UInt64} (hnow : timed → now' = now) :
    Alike timed tied (g.noteOpEnd t now) (g'.noteOpEnd t' now') := by
  unfold Globals.noteOpEnd
  simp only [pushCrumb]
  by_cases hclosed : g.unit.handle = 0
  · have hclosed' := h.unit.closed_iff.mpr hclosed
    simp only [hclosed, hclosed', ne_eq, not_true_eq_false, if_false]
    exact ⟨h.settings, h.unit, h.ops, h.prof, h.period, h.gc⟩
  · have hclosed' := mt h.unit.closed_iff.mp hclosed
    have helapsed : timed → elapsed t'.startNs now' = elapsed t.startNs now := by
      intro htimed
      rw [ht.startNs_eq htimed, hnow htimed]
    have hops := h.ops.opsEnd ht.toAlike helapsed
    simp only [hclosed, hclosed', ne_eq, not_false_eq_true, if_true]
    exact ⟨h.settings, h.unit, hops, h.prof, h.period, h.gc⟩

/-- A call of an earlier unit ends. -/
theorem noteOpEnd_stale {t : OpToken} (hstale : t.generation ≠ g.ops.generation) (now : UInt64) :
    g.noteOpEnd t now = g.pushCrumb crumbOpEnd t.type.code t.type.name now := by
  unfold Globals.noteOpEnd
  rw [OpState.opsEnd_stale hstale]
  split <;> rfl

end Globals

/-! ## Results -/

namespace FinishResult

/-- A result without what is read of the clock and of the collector. -/
def unclocked (r : FinishResult) : FinishResult := { r with
  durationNs := 0
  operations := r.operations.map fun op => (op.1, ⟨op.2.count, 0, 0⟩)
  counters := { r.counters with gcRuns := 0, gcCollected := 0 } }

/-- A result without the two counters of the process. -/
def withoutTotals (r : FinishResult) : FinishResult :=
  { r with counters := { r.counters with breadcrumbsWritten := 0, arenaPeakBytes := 0 } }

def setPeriod (r : FinishResult) (periodNs : Nat) : FinishResult :=
  { r with counters := { r.counters with periodNs := periodNs } }

end FinishResult

namespace Globals
variable {timed tied : Prop} {g g' : Globals} {env env' : CallEnv}

/-- The two report the same numbers of operations. -/
theorem Alike.counts (h : Alike timed tied g g') :
    (operations g'.ops).map (fun op => (op.1, (⟨op.2.count, 0, 0⟩ : OpAgg))) =
      (operations g.ops).map fun op => (op.1, ⟨op.2.count, 0, 0⟩) := by
  unfold operations
  simp only [List.map_map, Function.comp_def, h.ops.count_eq]

/-- What is told of the unit and of the profiler, apart from the period. -/
theorem Alike.parts (h : Alike timed tied g g') (hsound : g.prof.Sound) (p s : Bool) (env env' : CallEnv) :
    (g'.result p s env').withoutTotals.setPeriod 0 = { (g.result p s env).withoutTotals.setPeriod 0 with
      durationNs := elapsed g'.unit.startNs (clock env'.now)
      operations := operations g'.ops
      counters := { ((g.result p s env).withoutTotals.setPeriod 0).counters with
        gcRuns := env'.gcRuns - g'.gcRunsAtBegin
        gcCollected := env'.gcCollected - g'.gcCollectedAtBegin } } := by
  obtain ⟨hsamples, hdropped, hdeferred, hevents, hmax, hoverruns, hcapped⟩ := h.prof.counters_eq
  obtain ⟨hframeHits, hnodeHits, hframes, hnodes⟩ := h.prof.tables_eq
  have hprofile : (g'.result p s env').profile = (g.result p s env).profile := by
    unfold Globals.result
    simp only [h.unit.profiling_eq, hsamples]
    split
    · next hgo =>
      simp only [Bool.and_eq_true, decide_eq_true_eq] at hgo
      -- A profiler with samples is ready.
      have hready : g.prof.ready = true := by
        cases hready : g.prof.ready with
        | true => rfl
        | false =>
          have hnone := (hsound.nothing hready).2.2.1
          omega
      rw [h.prof.profileInto hready (h.period hgo.1.2)]
    · rfl
  unfold Globals.result at hprofile ⊢
  simp only [h.unit.profiling_eq, hsamples] at hprofile
  unfold FinishResult.withoutTotals FinishResult.setPeriod Globals.counters
  simp only [h.unit.type_eq, h.unit.sampled_eq, h.unit.profiling_eq, h.unit.automatic_eq, h.ops.overflow_eq,
    hsamples, hdropped, hdeferred, hevents, hmax, hoverruns, hcapped, hframeHits, hnodeHits, hframes, hnodes]
  rw [hprofile]

/-- **The results of both** are the same, but for the clock and for the period. -/
theorem Alike.result_unclocked (h : Alike timed tied g g') (hsound : g.prof.Sound) (p s : Bool)
    (env env' : CallEnv) : (g'.result p s env').withoutTotals.unclocked =
      ((g.result p s env).withoutTotals.unclocked).setPeriod g'.prof.periodNs := by
  have hparts := congrArg (fun r => (r.unclocked).setPeriod g'.prof.periodNs) (h.parts hsound p s env env')
  have hcounts := h.counts
  have hleft : ((g'.result p s env').withoutTotals.setPeriod 0).unclocked.setPeriod g'.prof.periodNs =
      (g'.result p s env').withoutTotals.unclocked := rfl
  rw [← hleft]
  refine hparts.trans ?_
  unfold FinishResult.unclocked
  simp only [hcounts]
  rfl

/-- Where the clock and the collector say the same, the results do. -/
theorem Alike.result_timed (h : Alike timed tied g g') (hsound : g.prof.Sound) (htimed : timed)
    (hopen : g.unit.handle ≠ 0) (henv : CallEnv.Alike timed env env') (p s : Bool) :
    (g'.result p s env').withoutTotals = (g.result p s env).withoutTotals.setPeriod g'.prof.periodNs := by
  have hparts := congrArg (fun r => r.setPeriod g'.prof.periodNs) (h.parts hsound p s env env')
  have hoperations : operations g'.ops = operations g.ops := by
    unfold operations
    rw [h.ops.agg_eq htimed]
  obtain ⟨hruns, hcollected⟩ := henv.gc_eq htimed
  have hgc := h.gc htimed hopen
  simp only [gcAtBegin, Prod.mk.injEq] at hgc
  have hleft : ((g'.result p s env').withoutTotals.setPeriod 0).setPeriod g'.prof.periodNs =
      (g'.result p s env').withoutTotals := rfl
  rw [← hleft]
  refine hparts.trans ?_
  rw [h.unit.startNs_eq htimed, henv.now_eq htimed, hoperations, hruns, hcollected, hgc.1, hgc.2]
  rfl

end Globals

/-! ## Workers -/

/-- The worker has been found out about, and is sound. -/
structure Known (w : Worker) : Prop where
  steady : Steady w.globals
  onRecord : OnRecord w

/-- Two workers that cannot be told apart. The calls from `n` on, and from `n'` on, are the same ones. -/
structure Twin (timed tied : Prop) (n n' : Nat) (w w' : Worker) : Prop where
  alike : w.globals.Alike timed tied w'.globals
  known : Known w
  known' : Known w'
  length_eq : ∃ k, w.calls.length = n + k ∧ w'.calls.length = n' + k
  calls : ∀ i : Nat, Option.Rel (Option.Rel (Globals.Paired timed w.globals.ops w'.globals.ops)) w.calls[n + i]?
    w'.calls[n' + i]?

/-- The call is of an earlier unit, if it is still running. -/
def Stale (w : Worker) (call : Nat) : Prop :=
  ∀ t, w.calls[call]? = some (some t) → t.generation ≠ w.globals.ops.generation

section
variable {timed tied : Prop} {n n' : Nat} {w w' v v' : Worker} {a a' : Action}

theorem Known.step {s : Worker × Handles} (h : Known w) (hfork : WithoutFork s a) (hstep : WorkerSteps w a v) :
    Known v :=
  ⟨h.steady.step hstep, h.onRecord.step hstep hfork⟩

/-- The look for a fork in a process that is on record. -/
theorem OnRecord.detectFork_eq (h : OnRecord w) (e : CallEnv) :
    w.globals.detectFork (w.env e) = { w.globals with ownerPid := w.pid } := by
  unfold Globals.detectFork
  split
  · next howner =>
    have howner : w.globals.ownerPid = w.pid := howner
    rw [← howner]
  · next howner =>
    split
    · rfl
    · next hactive =>
      rw [Bool.not_eq_true', Bool.not_eq_false] at hactive
      exact absurd (h hactive) howner

/-- Two tokens that are a pair stay one over the same number of resets. -/
theorem Globals.Paired.later {s s' r r' : OpState} {t t' : OpToken} (h : Paired timed s s' t t') {resets : UInt32}
    (hr : r.generation = s.generation + resets) (hr' : r'.generation = s'.generation + resets) :
    Paired timed r r' t t' :=
  ⟨h.toAlike.later hr hr', h.startNs_eq⟩

/-- Calls that go on while both generations move on by as much. -/
theorem Twin.calls_later (h : Twin timed tied n n' w w') {s s' : OpState} {resets : UInt32}
    (hs : s.generation = w.globals.ops.generation + resets)
    (hs' : s'.generation = w'.globals.ops.generation + resets) (i : Nat) :
    Option.Rel (Option.Rel (Globals.Paired timed s s')) w.calls[n + i]? w'.calls[n' + i]? := by
  have hcall := h.calls i
  generalize w.calls[n + i]? = c at hcall
  generalize w'.calls[n' + i]? = c' at hcall
  cases hcall with
  | none => exact .none
  | some htoken =>
    cases htoken with
    | none => exact .some .none
    | some hpaired => exact .some (.some (hpaired.later hs hs'))

/-- Steps that leave the calls alone. -/
theorem Twin.quiet (h : Twin timed tied n n' w w') (hknown : Known v) (hknown' : Known v')
    (halike : v.globals.Alike timed tied v'.globals) (hcalls : v.calls = w.calls) (hcalls' : v'.calls = w'.calls)
    {resets : UInt32} (hs : v.globals.ops.generation = w.globals.ops.generation + resets)
    (hs' : v'.globals.ops.generation = w'.globals.ops.generation + resets) : Twin timed tied n n' v v' where
  alike := halike
  known := hknown
  known' := hknown'
  length_eq := by
    rw [hcalls, hcalls']
    exact h.length_eq
  calls i := by
    rw [hcalls, hcalls']
    exact h.calls_later hs hs' i

/-- The same operation begins in both workers. -/
theorem Twin.opBegin (h : Twin timed tied n n' w w') {type : OpType} {now now' : UInt64} (hnow : timed → now' = now)
    (hknown : Known v) (hknown' : Known v') (hstep : WorkerSteps w (.opBegin type now) v)
    (hstep' : WorkerSteps w' (.opBegin type now') v') : Twin timed tied n n' v v' := by
  cases hstep
  cases hstep'
  obtain ⟨halike, hpaired⟩ := h.alike.noteOpBegin type hnow
  have hzero : ∀ g : UInt32, g = g + 0 := fun g => (UInt32.add_zero g).symm
  have hgeneration := (noteOpBegin_keeps w.globals type now).2.2.1.trans (hzero _)
  have hgeneration' := (noteOpBegin_keeps w'.globals type now').2.2.1.trans (hzero _)
  obtain ⟨k, hk, hk'⟩ := h.length_eq
  refine ⟨halike, hknown, hknown', ⟨k + 1, ?_, ?_⟩, fun i => ?_⟩
  · show (w.calls ++ [_]).length = n + (k + 1)
    rw [List.length_append, hk]
    rfl
  · show (w'.calls ++ [_]).length = n' + (k + 1)
    rw [List.length_append, hk']
    rfl
  · have hcall := h.calls_later hgeneration hgeneration' i
    show Option.Rel _ (w.calls ++ [_])[n + i]? (w'.calls ++ [_])[n' + i]?
    -- A call before, the call itself, and a place with no call yet.
    rcases Nat.lt_trichotomy i k with hlt | rfl | hgt
    · rw [List.getElem?_append_left (by omega), List.getElem?_append_left (by omega)]
      exact hcall
    · rw [← hk, ← hk', List.getElem?_concat_length, List.getElem?_concat_length]
      exact .some (.some hpaired)
    · rw [List.getElem?_eq_none (by rw [List.length_append, hk, List.length_singleton]; omega),
        List.getElem?_eq_none (by rw [List.length_append, hk', List.length_singleton]; omega)]
      exact .none

/-- The end of an operation keeps the generation. -/
theorem noteOpEnd_generation (g : Globals) (t : OpToken) (now : UInt64) :
    (g.noteOpEnd t now).ops.generation = g.ops.generation := by
  rw [(noteOpEnd_eq g t now).2.2]
  split
  · exact OpState.opsEnd_generation _ _ _
  · rfl

/-- The calls that are running, after one of them has ended. -/
theorem getElem?_ended {calls : List (Option OpToken)} {call : Nat} (hlt : call < calls.length) (other : Nat) :
    (calls.set call none)[other]? = if other = call then some none else calls[other]? := by
  rw [List.getElem?_set]
  by_cases heq : call = other
  · rw [if_pos heq, if_pos heq.symm, if_pos (heq ▸ hlt)]
  · rw [if_neg heq, if_neg (Ne.symm heq)]

/-- The same operation ends in both workers. -/
theorem Twin.opEnd (h : Twin timed tied n n' w w') {i : Nat} {now now' : UInt64} (hnow : timed → now' = now)
    (hknown : Known v) (hknown' : Known v') (hstep : WorkerSteps w (.opEnd (n + i) now) v)
    (hstep' : WorkerSteps w' (.opEnd (n' + i) now') v') : Twin timed tied n n' v v' := by
  have hcall := h.calls i
  simp only [WorkerSteps, Worker.step] at hstep hstep'
  split at hstep
  · next t htoken =>
    split at hstep'
    · next t' htoken' =>
      -- A call that has a token here has its pair there.
      rw [htoken, htoken'] at hcall
      obtain ⟨⟨hpaired⟩⟩ := hcall
      cases hstep
      cases hstep'
      have hgeneration : ∀ (g : Globals) (t : OpToken) (now : UInt64),
          (g.noteOpEnd t now).ops.generation = g.ops.generation + 0 := fun g t now => by
        rw [noteOpEnd_generation, UInt32.add_zero]
      obtain ⟨k, hk, hk'⟩ := h.length_eq
      have hlt := (List.getElem?_eq_some_iff.mp htoken).1
      have hlt' := (List.getElem?_eq_some_iff.mp htoken').1
      refine ⟨h.alike.noteOpEnd hpaired hnow, hknown, hknown', ⟨k, ?_, ?_⟩, fun j => ?_⟩
      · exact List.length_set.trans hk
      · exact List.length_set.trans hk'
      · have hlater := h.calls_later (hgeneration w.globals t now) (hgeneration w'.globals t' now') j
        show Option.Rel _ (w.calls.set (n + i) none)[n + j]? (w'.calls.set (n' + i) none)[n' + j]?
        rw [getElem?_ended hlt, getElem?_ended hlt']
        by_cases heq : j = i
        · rw [if_pos (by rw [heq]), if_pos (by rw [heq])]
          exact .some .none
        · rw [if_neg (by omega), if_neg (by omega)]
          exact hlater
    · cases hstep'
  · cases hstep

/-- A call of an earlier unit ends on the left. -/
theorem Twin.olderLeft (h : Twin timed tied n n' w w') {call : Nat} {now : UInt64} (hlt : call < n)
    (hstale : Stale w call) (hknown : Known v) (hstep : WorkerSteps w (.opEnd call now) v) :
    Twin timed tied n n' v w' := by
  simp only [WorkerSteps, Worker.step] at hstep
  split at hstep
  · next t htoken =>
    cases hstep
    have hcall := (List.getElem?_eq_some_iff.mp htoken).1
    obtain ⟨k, hk, hk'⟩ := h.length_eq
    have hglobals := Globals.noteOpEnd_stale (hstale t htoken) now
    refine ⟨?_, hknown, h.known', ⟨k, List.length_set.trans hk, hk'⟩, fun i => ?_⟩
    · show Globals.Alike timed tied (w.globals.noteOpEnd t now) w'.globals
      rw [hglobals]
      exact ⟨h.alike.settings, h.alike.unit, h.alike.ops, h.alike.prof, h.alike.period, h.alike.gc⟩
    · show Option.Rel (Option.Rel (Globals.Paired timed (w.globals.noteOpEnd t now).ops w'.globals.ops))
        (w.calls.set call none)[n + i]? w'.calls[n' + i]?
      rw [getElem?_ended hcall, if_neg (by omega), hglobals]
      exact h.calls i
  · cases hstep

/-- The same on the right. -/
theorem Twin.olderRight (h : Twin timed tied n n' w w') {call : Nat} {now : UInt64} (hlt : call < n')
    (hstale : Stale w' call) (hknown : Known v') (hstep : WorkerSteps w' (.opEnd call now) v') :
    Twin timed tied n n' w v' := by
  simp only [WorkerSteps, Worker.step] at hstep
  split at hstep
  · next t htoken =>
    cases hstep
    have hcall := (List.getElem?_eq_some_iff.mp htoken).1
    obtain ⟨k, hk, hk'⟩ := h.length_eq
    have hglobals := Globals.noteOpEnd_stale (hstale t htoken) now
    refine ⟨?_, h.known, hknown, ⟨k, hk, List.length_set.trans hk'⟩, fun i => ?_⟩
    · show Globals.Alike timed tied w.globals (w'.globals.noteOpEnd t now)
      rw [hglobals]
      exact ⟨h.alike.settings, h.alike.unit, h.alike.ops, h.alike.prof, h.alike.period, h.alike.gc⟩
    · show Option.Rel (Option.Rel (Globals.Paired timed w.globals.ops (w'.globals.noteOpEnd t now).ops))
        w.calls[n + i]? (w'.calls.set call none)[n' + i]?
      rw [getElem?_ended hcall, if_neg (by omega), hglobals]
      exact h.calls i
  · cases hstep

/-! ## Steps that leave the unit as it is -/

/-- Something is done to the profiler of both. -/
theorem Twin.setProf (h : Twin timed tied n n' w w') {prof prof' : Profiler.State} (hprof : prof.Alike tied prof')
    (hperiod : prof.periodNs = w.globals.prof.periodNs) (hperiod' : prof'.periodNs = w'.globals.prof.periodNs)
    (hknown : Known (w.withGlobals { w.globals with prof := prof }))
    (hknown' : Known (w'.withGlobals { w'.globals with prof := prof' })) :
    Twin timed tied n n' (w.withGlobals { w.globals with prof := prof })
      (w'.withGlobals { w'.globals with prof := prof' }) := by
  have halike : Globals.Alike timed tied { w.globals with prof := prof } { w'.globals with prof := prof' } :=
    ⟨h.alike.settings, h.alike.unit, h.alike.ops, hprof, fun hon => by
      show prof'.periodNs = prof.periodNs
      rw [hperiod, hperiod', h.alike.period hon], h.alike.gc⟩
  exact h.quiet hknown hknown' halike rfl rfl (UInt32.add_zero _).symm (UInt32.add_zero _).symm

/-- The same tick in both workers. -/
theorem Twin.tick (h : Twin timed tied n n' w w') {ticks : Nat} (hknown : Known v) (hknown' : Known v')
    (hstep : WorkerSteps w (.tick ticks) v) (hstep' : WorkerSteps w' (.tick ticks) v') :
    Twin timed tied n n' v v' := by
  cases hstep
  cases hstep'
  exact h.setProf (h.alike.prof.tick ticks) rfl rfl hknown hknown'

/-- The same interrupt in both workers. -/
theorem Twin.interrupt (h : Twin timed tied n n' w w') {stack : Stack} {between : List Nat} {now now' : Instant}
    (hnow : w.globals.prof.running = true → w.globals.prof.deadlineNs ≠ 0 → now' = now)
    (hknown : Known v) (hknown' : Known v') (hstep : WorkerSteps w (.interrupt stack between now) v)
    (hstep' : WorkerSteps w' (.interrupt stack between now') v') : Twin timed tied n n' v v' := by
  have hboth := h.alike.prof.interrupt h.known.steady.sound h.known'.steady.sound stack between hnow
  simp only [WorkerSteps, Worker.step] at hstep hstep'
  split at hstep
  · next prof hprof =>
    split at hstep'
    · next prof' hprof' =>
      rw [hprof, hprof'] at hboth
      obtain ⟨hprofs⟩ := hboth
      cases hstep
      cases hstep'
      exact h.setProf hprofs (h.known.steady.sound.interrupt hprof).periodNs_eq
        (h.known'.steady.sound.interrupt hprof').periodNs_eq hknown hknown'
    · cases hstep'
  · cases hstep

/-- Both look for a fork, and find none. -/
theorem Twin.look (h : Twin timed tied n n' w w') (e e' : CallEnv)
    (hknown : Known (w.withGlobals (w.globals.detectFork (w.env e))))
    (hknown' : Known (w'.withGlobals (w'.globals.detectFork (w'.env e')))) :
    Twin timed tied n n' (w.withGlobals (w.globals.detectFork (w.env e)))
      (w'.withGlobals (w'.globals.detectFork (w'.env e'))) := by
  rw [h.known.onRecord.detectFork_eq] at hknown ⊢
  rw [h.known'.onRecord.detectFork_eq] at hknown' ⊢
  have halike : Globals.Alike timed tied { w.globals with ownerPid := w.pid } { w'.globals with ownerPid := w'.pid } :=
    ⟨h.alike.settings, h.alike.unit, h.alike.ops, h.alike.prof, h.alike.period, h.alike.gc⟩
  exact h.quiet hknown hknown' halike rfl rfl (UInt32.add_zero _).symm (UInt32.add_zero _).symm

/-- The same setting in both workers. -/
theorem Twin.iniSet (h : Twin timed tied n n' w w') {periodUs maxDepth : Int} (hknown : Known v) (hknown' : Known v')
    (hstep : WorkerSteps w (.iniSet periodUs maxDepth) v) (hstep' : WorkerSteps w' (.iniSet periodUs maxDepth) v') :
    Twin timed tied n n' v v' := by
  cases hstep
  cases hstep'
  have hsettings := congrArg (fun s : Settings => { s with periodUs := periodUs, maxDepth := maxDepth }) h.alike.settings
  have halike : Globals.Alike timed tied { w.globals with periodUs := periodUs, maxDepth := maxDepth }
      { w'.globals with periodUs := periodUs, maxDepth := maxDepth } :=
    ⟨hsettings, h.alike.unit, h.alike.ops, h.alike.prof, h.alike.period, h.alike.gc⟩
  exact h.quiet hknown hknown' halike rfl rfl (UInt32.add_zero _).symm (UInt32.add_zero _).symm

end

end CboxTelemetry.Extension
