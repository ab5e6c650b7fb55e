import CboxTelemetry.Extension.Twin

/-!
# The same call of both

Two extensions that cannot be told apart, with the same clock and the same timer, cannot be told apart after the
same call either, and what the call returns is the same but for the handle, the counters of the process and a
period that no profile has (`Alike.beginUnit`, `Alike.finishUnit`). A handle of one stands for that of the other.
-/

namespace CboxTelemetry.Extension

open Profiler (Instant Stack TimerIo)

/-- The environments of one call in two processes. -/
structure CallEnv.Same (env env' : CallEnv) : Prop where
  alike : CallEnv.Alike True env env'
  startNow_eq : env'.startNow = env.startNow
  timer_eq : env'.timer = env.timer

theorem Worker.env_same (w w' : Worker) (e : CallEnv) : CallEnv.Same (w.env e) (w'.env e) :=
  ⟨⟨fun _ => rfl, fun _ => ⟨rfl, rfl⟩⟩, rfl, rfl⟩

namespace Globals
variable {g g' : Globals} {env env' : CallEnv}

/-! ## Opening and adopting -/

/-- Stopping, on both sides. -/
theorem Alike.stopped (h : Alike True True g g') : Alike True True g.stopped g'.stopped := by
  refine ⟨h.settings, h.unit, h.ops, h.prof.stop, fun hon => ?_, h.gc⟩
  show g'.prof.stop.periodNs = g.prof.stop.periodNs
  rw [Profiler.State.stop_periodNs, Profiler.State.stop_periodNs]
  exact h.period hon

theorem Alike.timer_eq (h : Alike True True g g') : g'.prof.timer = g.prof.timer := h.prof.timer trivial

/-- What is alike and stands still is at rest. -/
theorem Alike.atRest (h : Alike True True g g') (hs : Steady g) (hs' : Steady g') (hstopped : g.prof.running = false) :
    AtRest g g' :=
  ⟨h.prof.sameRoom, hs.sound, hs'.sound, hstopped, h.prof.samePending⟩

/-- The context is read alike. -/
theorem Alike.readContext_eq (h : Alike True True g g') (context : Option Context) :
    g'.readContext context = g.readContext context := by
  unfold readContext
  rw [show g'.periodUs = g.periodUs from congrArg Settings.periodUs h.settings,
    show g'.maxDepth = g.maxDepth from congrArg Settings.maxDepth h.settings]

/-- A unit is opened in both. -/
theorem Alike.unitOpen (h : Alike True True g g') (hs : Steady g) (hs' : Steady g') (hstopped : g.prof.running = false)
    (request : UnitRequest) (automatic : Bool) (henv : CallEnv.Same env env') :
    Alike True True (g.unitOpen request automatic env) (g'.unitOpen request automatic env') := by
  refine (h.atRest hs hs' hstopped).alike_unitOpen h.settings request automatic henv.alike
    (fun _ => henv.startNow_eq) (fun _ => ⟨h.timer_eq, henv.timer_eq⟩) fun _ => ?_
  unfold arms
  rw [h.timer_eq, henv.timer_eq]

/-- The unit is changed in both. -/
theorem Alike.setUnit (h : Alike True True g g') {u u' : UnitState} (hunit : u.Alike True u')
    (hprofiling : u.profiling = g.unit.profiling) (hhandle : u.handle = g.unit.handle) :
    Alike True True { g with unit := u } { g' with unit := u' } := by
  refine ⟨h.settings, hunit, h.ops, h.prof, fun hon => h.period (hprofiling ▸ hon), fun htimed hopen => ?_⟩
  exact h.gc htimed (hhandle ▸ hopen)

/-- The trace is applied alike. -/
theorem Alike.applyTrace (h : Alike True True g g') (context : Option Context) :
    Alike True True { g with unit := g.unit.applyTrace context } { g' with unit := g'.unit.applyTrace context } :=
  h.setUnit (h.unit.applyTrace context) (g.unit.applyTrace_same context).profiling_eq
    (g.unit.applyTrace_same context).handle_eq

/-- An adopted unit is what the caller says it is, ... -/
def described (g : Globals) (context : Option Context) : Globals := { g with unit := { g.unit with
  adopted := true
  sampled := (g.readContext context).sampled
  type := (contextType (context.getD [])).getD g.unit.type } }

/-- ... has a profile or has none, ... -/
def reprofiled (g : Globals) (request : UnitRequest) (env : CallEnv) : Globals :=
  if !request.sampled || !request.wantProfile then
    { g with prof := g.prof.stop.reset, unit := { g.unit with profiling := false } }
  else if !g.unit.profiling && g.profilerEnabled then g.startProfiler request 0 env
  else g

/-- ... and has no limit. -/
def unlimited (g : Globals) (context : Option Context) : Globals := { g with
  prof := g.prof.clearDeadline
  unit := { g.unit with automatic := true }.applyTrace context }

theorem adopt_eq (g : Globals) (context : Option Context) (env : CallEnv) :
    g.adopt context env = ((g.described context).reprofiled (g.readContext context) env).unlimited context := rfl

/-- The unit is described alike. -/
theorem Alike.described (h : Alike True True g g') (context : Option Context) :
    Alike True True (g.described context) (g'.described context) := by
  have hunit : UnitState.Alike True (g.described context).unit (g'.described context).unit := by
    unfold Globals.described
    rw [h.readContext_eq, h.unit.type_eq]
    exact ⟨h.unit.closed_iff, rfl, rfl, h.unit.profiling_eq, h.unit.automatic_eq, rfl, h.unit.startNs_eq⟩
  exact ⟨h.settings, hunit, h.ops, h.prof, h.period, h.gc⟩

/-- And profiled alike. -/
theorem Alike.reprofiled (h : Alike True True g g') (hsound : g.prof.Sound) (hsound' : g'.prof.Sound)
    (hidle : g.unit.profiling = false → g.prof.running = false) (request : UnitRequest)
    (henv : CallEnv.Same env env') : Alike True True (g.reprofiled request env) (g'.reprofiled request env') := by
  have hunit : ∀ profiling : Bool, UnitState.Alike True { g.unit with profiling := profiling }
      { g'.unit with profiling := profiling } := fun _ =>
    ⟨h.unit.closed_iff, h.unit.type_eq, h.unit.sampled_eq, rfl, h.unit.automatic_eq, h.unit.adopted_eq,
      h.unit.startNs_eq⟩
  have hwants : (!g'.unit.profiling && g'.profilerEnabled) = (!g.unit.profiling && g.profilerEnabled) := by
    rw [h.unit.profiling_eq, show g'.profilerEnabled = g.profilerEnabled from congrArg Settings.profilerEnabled h.settings]
  unfold Globals.reprofiled
  rw [hwants]
  -- Stopped where no profile is wanted, started where one is and none runs, and otherwise kept.
  split
  · have hstopped : AtRest g.stopped g'.stopped :=
      ⟨h.stopped.prof.sameRoom, hsound.stop, hsound'.stop, Profiler.State.stop_running _, h.stopped.prof.samePending⟩
    exact ⟨h.settings, hunit false, h.ops, hstopped.alike_reset fun _ => h.stopped.timer_eq, nofun, h.gc⟩
  · split
    · next hnone =>
      simp only [Bool.and_eq_true, Bool.not_eq_true'] at hnone
      have hrest : AtRest g g' :=
        ⟨h.prof.sameRoom, hsound, hsound', hidle hnone.1, h.prof.samePending⟩
      refine hrest.alike_startProfiler h.settings hunit h.ops h.gc ⟨hnone.1, h.unit.profiling_eq.trans hnone.1⟩ _
        (fun hno => absurd rfl hno) (fun _ => ⟨h.timer_eq, henv.timer_eq⟩) fun _ => ?_
      unfold arms
      rw [h.timer_eq, henv.timer_eq]
    · exact h

/-- The limit goes alike. -/
theorem Alike.unlimited (h : Alike True True g g') (context : Option Context) :
    Alike True True (g.unlimited context) (g'.unlimited context) := by
  have hunit : UnitState.Alike True { g.unit with automatic := true } { g'.unit with automatic := true } :=
    ⟨h.unit.closed_iff, h.unit.type_eq, h.unit.sampled_eq, h.unit.profiling_eq, rfl, h.unit.adopted_eq,
      h.unit.startNs_eq⟩
  have hprof : Alike True True { g with prof := g.prof.clearDeadline } { g' with prof := g'.prof.clearDeadline } :=
    ⟨h.settings, h.unit, h.ops, h.prof.clearDeadline, h.period, h.gc⟩
  have hsame := UnitState.applyTrace_same { g.unit with automatic := true } context
  exact hprof.setUnit (hunit.applyTrace context) hsame.profiling_eq hsame.handle_eq

/-- The engine's unit is adopted in both. -/
theorem Alike.adopt (h : Alike True True g g') (hs : Steady g) (hs' : Steady g') (context : Option Context)
    (henv : CallEnv.Same env env') : Alike True True (g.adopt context env) (g'.adopt context env') := by
  rw [adopt_eq, adopt_eq, h.readContext_eq]
  refine ((h.described context).reprofiled hs.sound hs'.sound (fun hnone => ?_) _ henv).unlimited context
  -- A profiler that runs is that of a unit with a profile.
  rw [← Bool.not_eq_true]
  intro hrunning
  have hon : g.unit.profiling = true := (hs.running_unit hrunning).2.2
  have hnone : g.unit.profiling = false := hnone
  rw [hon] at hnone
  cases hnone

/-- Both adopt, or neither does. -/
theorem Alike.adoptable_eq (h : Alike True True g g') : g'.adoptable = g.adoptable := by
  unfold Globals.adoptable
  rw [h.unit.automatic_eq, h.unit.adopted_eq]
  congr 2
  rw [Bool.eq_iff_iff, bne_iff_ne, bne_iff_ne]
  exact not_congr h.unit.closed_iff

/-- `begin` adopts in both, or opens a unit in both. -/
theorem Alike.beginUnit (h : Alike True True g g') (hs : Steady g) (hs' : Steady g') (context : Option Context)
    (henv : CallEnv.Same env env') : Alike True True (g.beginUnit context env) (g'.beginUnit context env') := by
  unfold Globals.beginUnit
  rw [h.adoptable_eq, h.readContext_eq]
  split
  · exact h.adopt hs hs' context henv
  · have hopen : (if g'.unit.handle ≠ 0 then { g' with prof := g'.prof.stop } else g') =
        if g.unit.handle ≠ 0 then { g' with prof := g'.prof.stop } else g' := by
      simp only [ne_eq, h.unit.closed_iff]
    simp only [hopen]
    split
    · exact (h.stopped.unitOpen hs.stop hs'.stop (Profiler.State.stop_running _) _ false henv).applyTrace context
    · next hclosed =>
      have hstopped := (hs.closed (not_not.mp hclosed)).stopped
      exact (h.unitOpen hs hs' hstopped _ false henv).applyTrace context

/-! ## The end of a unit -/

/-- A unit is closed on both sides. -/
theorem Alike.closeUnit (h : Alike True True g g') (hs : Steady g) (hs' : Steady g') (hstopped : g.prof.running = false) :
    Alike True True g.closeUnit g'.closeUnit :=
  ⟨h.settings, UnitState.alike_cleared True, OpState.alike_opsReset _ _,
    (h.atRest hs hs' hstopped).alike_reset fun _ => h.timer_eq, nofun, fun _ hopen => absurd rfl hopen⟩

/-- `PHP_RSHUTDOWN`, on both sides. -/
theorem Alike.rshutdown (h : Alike True True g g') (hs : Steady g) (hs' : Steady g') :
    Alike True True g.rshutdown g'.rshutdown := by
  unfold Globals.rshutdown
  simp only [ne_eq, h.unit.closed_iff]
  split
  · exact h.stopped.closeUnit hs.stop hs'.stop (Profiler.State.stop_running _)
  · exact h

/-- The handle that stands for `handle` in the other process. -/
def renamed (g g' : Globals) (handle : Int) : Int :=
  if handle = 0 then 0 else if (g.unit.handle.toNat : Int) = handle then g'.unit.handle.toNat else -1

/-- Of a unit that is open, the other's handle names the other's unit. -/
theorem Alike.renamed_iff (h : Alike True True g g') (hopen : g.unit.handle ≠ 0) (handle : Int) :
    (g.renamed g' handle ≠ 0 ∧ (g'.unit.handle.toNat : Int) ≠ g.renamed g' handle) ↔
      (handle ≠ 0 ∧ (g.unit.handle.toNat : Int) ≠ handle) := by
  have hopen' : (g'.unit.handle.toNat : Int) ≠ 0 := by
    intro hzero
    refine mt h.unit.closed_iff.mp hopen (UInt32.toNat_inj.mp ?_)
    exact Int.ofNat_eq_zero.mp hzero
  unfold renamed
  by_cases hzero : handle = 0
  · simp [hzero]
  · by_cases hown : (g.unit.handle.toNat : Int) = handle
    · simp [hzero, hown]
    · rw [if_neg hzero, if_neg hown]
      refine iff_of_true ⟨nofun, ?_⟩ ⟨hzero, hown⟩
      exact Int.natCast_nonneg _ |>.trans_lt' (by decide) |>.ne'

/-- Results that differ in the counters of the process and in the period at most. -/
def SameResult : Option FinishResult → Option FinishResult → Prop :=
  Option.Rel fun r r' => r'.withoutTotals.setPeriod 0 = r.withoutTotals.setPeriod 0

/-- `finish`, on both sides, each under its own name for the unit. -/
theorem Alike.finishUnit (h : Alike True True g g') (hs : Steady g) (hs' : Steady g') (handle : Int) (p s : Bool)
    (henv : CallEnv.Same env env') :
    SameResult (g.finishUnit handle p s env).1 (g'.finishUnit (g.renamed g' handle) p s env').1 ∧
      Alike True True (g.finishUnit handle p s env).2 (g'.finishUnit (g.renamed g' handle) p s env').2 := by
  have hclosed : (!g'.active || decide (g'.unit.handle = 0)) = (!g.active || decide (g.unit.handle = 0)) := by
    rw [show g'.active = g.active from congrArg Settings.active h.settings, decide_eq_decide.mpr h.unit.closed_iff]
  unfold Globals.finishUnit
  rw [hclosed]
  split
  · exact ⟨.none, h⟩
  · next hgo =>
    -- The handles are named for each other, so both refuse or both finish.
    simp only [Bool.or_eq_true, decide_eq_true_eq, not_or] at hgo
    simp only [h.renamed_iff hgo.2]
    split
    · exact ⟨.none, h⟩
    · have hresult := h.stopped.result_timed hs.stop.sound trivial hgo.2 henv.alike p s
      obtain ⟨hsettings, hunit, hops, hprof, hperiod, hgc⟩ :=
        h.stopped.closeUnit hs.stop hs'.stop (Profiler.State.stop_running _)
      refine ⟨.some ?_, hsettings, hunit, hops, hprof, hperiod, hgc⟩
      have hperiodless := congrArg (fun r : FinishResult => r.setPeriod 0) hresult
      exact hperiodless

/-! ## Resets -/

/-- What a call adds to the generation. -/
theorem beginUnit_generation (g : Globals) (context : Option Context) (env : CallEnv) :
    (g.beginUnit context env).ops.generation = g.ops.generation + if g.adoptable then 0 else 1 := by
  have hopened : ∀ g : Globals, (g.unitOpen (g.readContext context) false env).ops.generation = g.ops.generation + 1 :=
    fun g => congrArg OpState.generation (unitOpened_unitOpen g (g.readContext context) false env).ops_eq
  unfold Globals.beginUnit
  split
  · rw [adopt_eq, UInt32.add_zero]
    show ((g.described context).reprofiled (g.readContext context) env).ops.generation = _
    unfold Globals.reprofiled
    split
    · rfl
    · split <;> rfl
  · simp only
    split
    · exact hopened { g with prof := g.prof.stop }
    · exact hopened g

/-- `PHP_RSHUTDOWN` resets the operations where a unit is open. -/
theorem rshutdown_generation (g : Globals) :
    g.rshutdown.ops.generation = g.ops.generation + if g.unit.handle ≠ 0 then 1 else 0 := by
  unfold Globals.rshutdown
  split
  · rfl
  · exact (UInt32.add_zero _).symm

/-- `finish` resets them where it finishes one. -/
theorem finishUnit_generation (g : Globals) (handle : Int) (p s : Bool) (env : CallEnv) :
    (g.finishUnit handle p s env).2.ops.generation =
      g.ops.generation + if (g.finishUnit handle p s env).1.isSome then 1 else 0 := by
  unfold Globals.finishUnit
  split
  · exact (UInt32.add_zero _).symm
  · split
    · exact (UInt32.add_zero _).symm
    · rfl

/-- The start of a request, after the look for a fork. -/
def startRequest (g : Globals) (sapi : Option Bytes) (env : CallEnv) : Globals :=
  if g.active && g.enabled && g.autoStart && g.unit.handle == 0 then
    g.unitOpen ⟨unitTypeForSapi sapi, true, true, g.periodUs, g.maxDepth⟩ true env
  else g

/-- `PHP_RINIT`, in its three parts. -/
theorem rinit_eq (g : Globals) (sapi : Option Bytes) (env : CallEnv) : g.rinit sapi env =
    { g.detectFork env with recorder := requestRecorder (g.detectFork env) env }.startRequest sapi env := by
  unfold Globals.rinit requestRecorder startRequest
  simp only
  split <;> rfl

/-- The request starts alike, with the same number of resets. -/
theorem Alike.startRequest (h : Alike True True g g') (hs : Steady g) (hs' : Steady g') (sapi : Option Bytes)
    (henv : CallEnv.Same env env') :
    Alike True True (g.startRequest sapi env) (g'.startRequest sapi env') ∧ ∃ resets : UInt32,
      (g.startRequest sapi env).ops.generation = g.ops.generation + resets ∧
      (g'.startRequest sapi env').ops.generation = g'.ops.generation + resets := by
  have hcond : (g'.active && g'.enabled && g'.autoStart && g'.unit.handle == 0) =
      (g.active && g.enabled && g.autoStart && g.unit.handle == 0) := by
    have hhandle : (g'.unit.handle == 0) = (g.unit.handle == 0) := by
      rw [Bool.eq_iff_iff, beq_iff_eq, beq_iff_eq]
      exact h.unit.closed_iff
    rw [hhandle, show g'.active = g.active from congrArg Settings.active h.settings,
      show g'.enabled = g.enabled from congrArg Settings.enabled h.settings,
      show g'.autoStart = g.autoStart from congrArg Settings.autoStart h.settings]
  unfold Globals.startRequest
  rw [hcond, show g'.periodUs = g.periodUs from congrArg Settings.periodUs h.settings,
    show g'.maxDepth = g.maxDepth from congrArg Settings.maxDepth h.settings]
  split
  · next hopens =>
    simp only [Bool.and_eq_true, beq_iff_eq] at hopens
    refine ⟨h.unitOpen hs hs' (hs.closed hopens.2).stopped _ true henv, 1, ?_, ?_⟩
    · exact congrArg OpState.generation (unitOpened_unitOpen g _ true env).ops_eq
    · exact congrArg OpState.generation (unitOpened_unitOpen g' _ true env').ops_eq
  · exact ⟨h, 0, (UInt32.add_zero _).symm, (UInt32.add_zero _).symm⟩

end Globals

/-! ## Twins -/

section
variable {n n' : Nat} {w w' v v' : Worker}

/-- The extensions of twins, when both have looked for a fork. -/
theorem Twin.looked (h : Twin True True n n' w w') (e : CallEnv) :
    (w.globals.detectFork (w.env e)).Alike True True (w'.globals.detectFork (w'.env e)) ∧
      (w.globals.detectFork (w.env e)).ops = w.globals.ops ∧
      (w'.globals.detectFork (w'.env e)).ops = w'.globals.ops ∧
      Steady (w.globals.detectFork (w.env e)) ∧ Steady (w'.globals.detectFork (w'.env e)) := by
  refine ⟨?_, ?_, ?_, h.known.steady.detectFork _, h.known'.steady.detectFork _⟩
  · rw [h.known.onRecord.detectFork_eq, h.known'.onRecord.detectFork_eq]
    exact ⟨h.alike.settings, h.alike.unit, h.alike.ops, h.alike.prof, h.alike.period, h.alike.gc⟩
  · rw [h.known.onRecord.detectFork_eq]
  · rw [h.known'.onRecord.detectFork_eq]

/-- `begin` in both workers. -/
theorem Twin.begin (h : Twin True True n n' w w') {context : Option Context} {e : CallEnv} (hknown : Known v)
    (hknown' : Known v') (hstep : WorkerSteps w (.begin context e) v) (hstep' : WorkerSteps w' (.begin context e) v') :
    Twin True True n n' v v' := by
  obtain ⟨halike, hops, hops', hs, hs'⟩ := h.looked e
  have hrefuses : (!w'.globals.active || !w'.globals.enabled) = (!w.globals.active || !w.globals.enabled) := by
    rw [show w'.globals.active = w.globals.active from congrArg Settings.active h.alike.settings,
      show w'.globals.enabled = w.globals.enabled from congrArg Settings.enabled h.alike.settings]
  cases hstep
  cases hstep'
  unfold Globals.begin at hknown hknown' ⊢
  rw [hrefuses] at hknown' ⊢
  split at hknown
  · next hno =>
    rw [if_pos hno] at hknown' ⊢
    rw [if_pos hno]
    exact h.quiet hknown hknown' h.alike rfl rfl (UInt32.add_zero _).symm (UInt32.add_zero _).symm
  · next hgo =>
    rw [if_neg hgo] at hknown' ⊢
    rw [if_neg hgo]
    have hresets := Globals.beginUnit_generation (w.globals.detectFork (w.env e)) context (w.env e)
    have hresets' := Globals.beginUnit_generation (w'.globals.detectFork (w'.env e)) context (w'.env e)
    rw [hops] at hresets
    rw [hops', halike.adoptable_eq] at hresets'
    exact h.quiet hknown hknown' (halike.beginUnit hs hs' context (w.env_same w' e)) rfl rfl hresets hresets'

/-- `PHP_RSHUTDOWN` in both workers. -/
theorem Twin.rshutdown (h : Twin True True n n' w w') (hknown : Known v) (hknown' : Known v')
    (hstep : WorkerSteps w .rshutdown v) (hstep' : WorkerSteps w' .rshutdown v') : Twin True True n n' v v' := by
  cases hstep
  cases hstep'
  have hresets := Globals.rshutdown_generation w.globals
  have hresets' := Globals.rshutdown_generation w'.globals
  simp only [ne_eq, h.alike.unit.closed_iff] at hresets'
  exact h.quiet hknown hknown' (h.alike.rshutdown h.known.steady h.known'.steady) rfl rfl hresets hresets'

/-- `PHP_RINIT` in both workers. -/
theorem Twin.rinit (h : Twin True True n n' w w') {sapi : Option Bytes} {e : CallEnv} (hknown : Known v)
    (hknown' : Known v') (hstep : WorkerSteps w (.rinit sapi e) v) (hstep' : WorkerSteps w' (.rinit sapi e) v') :
    Twin True True n n' v v' := by
  obtain ⟨halike, hops, hops', hs, hs'⟩ := h.looked e
  cases hstep
  cases hstep'
  rw [Globals.rinit_eq] at hknown hknown' ⊢
  rw [Globals.rinit_eq]
  generalize w.globals.detectFork (w.env e) = g at halike hops hs hknown
  generalize w'.globals.detectFork (w'.env e) = g' at halike hops' hs' hknown'
  have hsink : Globals.Alike True True { g with recorder := requestRecorder g (w.env e) }
      { g' with recorder := requestRecorder g' (w'.env e) } :=
    ⟨halike.settings, halike.unit, halike.ops, halike.prof, halike.period, halike.gc⟩
  obtain ⟨hstarted, resets, hresets, hresets'⟩ := hsink.startRequest (hs.of_eq rfl rfl rfl rfl rfl)
    (hs'.of_eq rfl rfl rfl rfl rfl) sapi (w.env_same w' e)
  have hadds : ∀ {s r : OpState}, s = r → s.generation + resets = r.generation + resets := fun hsame => by
    rw [hsame]
  exact h.quiet hknown hknown' hstarted rfl rfl (hresets.trans (hadds hops)) (hresets'.trans (hadds hops'))

/-- A finish gives both the same result. -/
theorem Twin.finish_same (h : Twin True True n n' w w') (handle : Int) (p s : Bool) (e : CallEnv) :
    Globals.SameResult (w.globals.finish handle p s (w.env e)).1
      (w'.globals.finish (w.globals.renamed w'.globals handle) p s (w'.env e)).1 := by
  obtain ⟨halike, -, -, hs, hs'⟩ := h.looked e
  have hfinish := halike.finishUnit hs hs' handle p s (w.env_same w' e)
  have hnames : (w.globals.detectFork (w.env e)).renamed (w'.globals.detectFork (w'.env e)) handle =
      w.globals.renamed w'.globals handle := by
    rw [h.known.onRecord.detectFork_eq, h.known'.onRecord.detectFork_eq]
    rfl
  rw [hnames] at hfinish
  exact hfinish.1

/-- `finish` in both workers. -/
theorem Twin.finish (h : Twin True True n n' w w') {handle : Int} {p s : Bool} {e : CallEnv} (hknown : Known v)
    (hknown' : Known v') (hstep : WorkerSteps w (.finish handle p s e) v)
    (hstep' : WorkerSteps w' (.finish (w.globals.renamed w'.globals handle) p s e) v') : Twin True True n n' v v' := by
  obtain ⟨halike, hops, hops', hs, hs'⟩ := h.looked e
  have hnames : w.globals.renamed w'.globals handle =
      (w.globals.detectFork (w.env e)).renamed (w'.globals.detectFork (w'.env e)) handle := by
    rw [h.known.onRecord.detectFork_eq, h.known'.onRecord.detectFork_eq]
    rfl
  rw [hnames] at hstep'
  obtain ⟨hresult, hafter⟩ := halike.finishUnit hs hs' handle p s (w.env_same w' e)
  have hresets := (w.globals.detectFork (w.env e)).finishUnit_generation handle p s (w.env e)
  have hresets' := (w'.globals.detectFork (w'.env e)).finishUnit_generation
    ((w.globals.detectFork (w.env e)).renamed (w'.globals.detectFork (w'.env e)) handle) p s (w'.env e)
  have hsome : ∀ {r r' : Option FinishResult}, Globals.SameResult r r' → r'.isSome = r.isSome := by
    intro r r' hr
    cases hr <;> rfl
  rw [hops] at hresets
  rw [hops', hsome hresult] at hresets'
  cases hstep
  cases hstep'
  exact h.quiet hknown hknown' hafter rfl rfl hresets hresets'

end

end CboxTelemetry.Extension
