import CboxTelemetry.Extension.Bleed
import CboxTelemetry.Extension.Identity
import CboxTelemetry.Extension.Past
import CboxTelemetry.Profiler.Deadline

/-!
# Adoption

A `begin` that finds an automatic unit takes it over. What is compared are two runs from the same worker, with the
`begin` and without it. Between the two ends of a unit nothing looks at more of the unit than its handle, and
what the profiler is fed is the same in both runs (`measuring_run`). So the runs go on with the two units and the
two profilers that they start with; and these differ in the label, in a flag, and in the deadline
(`adoption_loses_nothing`).
-/

namespace CboxTelemetry.Extension

open Profiler (Instant Stack Deadline Feed)
open Profiler.State (FeedSteps)

/-! ## While a unit is measured -/

/-- What is neither a request hook nor one of the two ends of a unit. -/
def Measuring (_ : Worker) : Action → Prop
  | .opBegin _ _ | .opEnd _ _ | .tick _ | .interrupt _ _ _ | .status _ | .iniSet _ _ => True
  | _ => False

/-- What an action brings the profiler. -/
def Action.feed : Action → Option Feed
  | .tick ticks => some (.tick ticks)
  | .interrupt stack between now => some (.interrupt stack between now)
  | _ => none

/-- The worker with another unit and another profiler. -/
def Worker.refit (w : Worker) (unit : UnitState) (prof : Profiler.State) : Worker :=
  w.withGlobals { w.globals with unit := unit, prof := prof }

/-- The worker whose profile has no deadline any more. -/
def Worker.unlimited (w : Worker) : Worker := w.refit w.globals.unit w.globals.prof.clearDeadline

/-- What is the same for every unit and profiler in a stretch of a run from `w` to `v`, in which the profiler
is fed `fs`. -/
structure Measured (w : Worker) (as : List Action) (fs : List Feed) (v : Worker) : Prop where
  fed : Run FeedSteps w.globals.prof fs v.globals.prof
  unit_eq : v.globals.unit = w.globals.unit
  owned : v.globals.ownerPid = v.pid
  refitted : ∀ (unit : UnitState) (prof prof' : Profiler.State), unit.handle = w.globals.unit.handle →
    Run FeedSteps prof fs prof' → Run WorkerSteps (w.refit unit prof) as (v.refit unit prof')

section
variable {w v : Worker} {a : Action} {as : List Action}

/-- A step that the profiler has no part in. -/
theorem measured_of_quiet (hprof : v.globals.prof = w.globals.prof) (hunit : v.globals.unit = w.globals.unit)
    (howned : v.globals.ownerPid = v.pid)
    (hstep : ∀ (unit : UnitState) (prof : Profiler.State), unit.handle = w.globals.unit.handle →
      WorkerSteps (w.refit unit prof) a (v.refit unit prof)) : Measured w [a] [] v := by
  refine ⟨?_, hunit, howned, ?_⟩
  · rw [hprof]
    exact .nil _
  · intro unit prof prof' hhandle hfed
    cases hfed
    exact .single (hstep unit prof hhandle)

/-- A process that is on record is no forked child. -/
theorem detectFork_own {g : Globals} {env : CallEnv} (h : g.ownerPid = env.pid) : g.detectFork env = g := by
  rw [Globals.detectFork, if_pos h]

/-- The begin of an operation does not read the profiler. -/
theorem noteOpBegin_refit (g : Globals) {unit : UnitState} (prof : Profiler.State)
    (hhandle : unit.handle = g.unit.handle) (type : OpType) (now : UInt64) :
    ({ g with unit := unit, prof := prof } : Globals).noteOpBegin type now
      = ((g.noteOpBegin type now).1, { (g.noteOpBegin type now).2 with unit := unit, prof := prof }) := by
  by_cases hclosed : g.unit.handle = 0
  · simp [Globals.noteOpBegin, Globals.pushCrumb, hhandle, hclosed]
  · simp [Globals.noteOpBegin, Globals.pushCrumb, hhandle, hclosed]

/-- Nor does its end. -/
theorem noteOpEnd_refit (g : Globals) {unit : UnitState} (prof : Profiler.State)
    (hhandle : unit.handle = g.unit.handle) (token : OpToken) (now : UInt64) :
    ({ g with unit := unit, prof := prof } : Globals).noteOpEnd token now
      = { g.noteOpEnd token now with unit := unit, prof := prof } := by
  by_cases hclosed : g.unit.handle = 0
  · simp [Globals.noteOpEnd, Globals.pushCrumb, hhandle, hclosed]
  · simp [Globals.noteOpEnd, Globals.pushCrumb, hhandle, hclosed]

/-- **One step** feeds the profiler, or does not look at it; and looks at nothing but the handle of the unit. -/
theorem measuring_step (howned : w.globals.ownerPid = w.pid) (hin : Measuring w a) (hstep : WorkerSteps w a v) :
    Measured w [a] a.feed.toList v := by
  cases a with
  | opBegin type now =>
    cases hstep
    have hprof : (w.globals.noteOpBegin type now).2.prof = w.globals.prof := by rw [Globals.noteOpBegin_frame]
    have hunit : (w.globals.noteOpBegin type now).2.unit = w.globals.unit := by rw [Globals.noteOpBegin_frame]
    -- The same hook on other globals with this unit open.
    refine measured_of_quiet hprof hunit ?_ ?_
    · exact (keeps_noteOpBegin w.globals type now).ownerPid_eq.trans howned
    · intro unit prof hhandle
      have hrefit := noteOpBegin_refit w.globals prof hhandle type now
      show (w.refit unit prof).step (.opBegin type now) = _
      simp only [Worker.step, Worker.refit, Worker.withGlobals, hrefit]
  | opEnd call now =>
    simp only [WorkerSteps, Worker.step] at hstep
    split at hstep
    · rename_i token hcall
      cases hstep
      have hprof : (w.globals.noteOpEnd token now).prof = w.globals.prof := by rw [Globals.noteOpEnd_frame]
      have hunit : (w.globals.noteOpEnd token now).unit = w.globals.unit := by rw [Globals.noteOpEnd_frame]
      refine measured_of_quiet hprof hunit ?_ ?_
      · exact (keeps_noteOpEnd w.globals token now).ownerPid_eq.trans howned
      · intro unit prof hhandle
        have hrefit := noteOpEnd_refit w.globals prof hhandle token now
        show (w.refit unit prof).step (.opEnd call now) = _
        simp only [Worker.step, Worker.refit, Worker.withGlobals, hcall, hrefit]
    · cases hstep
  | tick ticks =>
    cases hstep
    refine ⟨.single rfl, rfl, howned, ?_⟩
    intro unit prof prof' _ hfed
    cases hfed with
    | cons hfeed hnil =>
      cases hfeed
      cases hnil
      exact .single rfl
  | interrupt stack between now =>
    simp only [WorkerSteps, Worker.step] at hstep
    split at hstep
    · rename_i prof₁ hinterrupt
      cases hstep
      refine ⟨.single hinterrupt, rfl, howned, ?_⟩
      intro unit prof prof' _ hfed
      cases hfed with
      -- The profiler that takes the feed is the one interrupted.
      | cons hfeed hnil =>
        cases hnil
        have hinterrupt' : prof.interrupt stack between now = some prof' := hfeed
        refine .single ?_
        show (w.refit unit prof).step (.interrupt stack between now) = _
        simp only [Worker.step, Worker.refit, Worker.withGlobals, hinterrupt']
    · cases hstep
  | status e =>
    cases hstep
    have hself : (w.globals.status (w.env e)).2 = w.globals := detectFork_own howned
    rw [hself]
    refine measured_of_quiet rfl rfl howned ?_
    intro unit prof _
    have hrefit : ({ w.globals with unit := unit, prof := prof } : Globals).detectFork (w.env e)
        = { w.globals with unit := unit, prof := prof } := detectFork_own howned
    exact congrArg (fun g => some (w.withGlobals g)) hrefit
  | iniSet periodUs maxDepth =>
    cases hstep
    exact measured_of_quiet rfl rfl howned fun _ _ _ => rfl
  | rinit _ _ | rshutdown | begin _ _ | finish _ _ _ _ | fork _ => exact absurd hin id

/-- **A stretch of a run.** -/
theorem measuring_run (howned : w.globals.ownerPid = w.pid)
    (h : Run (Guarded Measuring WorkerSteps) w as v) : Measured w as (as.filterMap Action.feed) v := by
  induction h with
  | nil w =>
    refine ⟨.nil _, rfl, howned, ?_⟩
    intro unit prof prof' _ hfed
    cases hfed
    exact .nil _
  | @cons w w₁ v a as hstep _ ih =>
    have hone := measuring_step howned hstep.1 hstep.2
    have hrest := ih hone.owned
    have hfeeds : (a :: as).filterMap Action.feed = a.feed.toList ++ as.filterMap Action.feed := by
      cases hfeed : a.feed with
      | none => rw [List.filterMap_cons_none hfeed, Option.toList_none, List.nil_append]
      | some f => rw [List.filterMap_cons_some hfeed, Option.toList_some, List.singleton_append]
    rw [hfeeds]
    refine ⟨hone.fed.append hrest.fed, hrest.unit_eq.trans hone.unit_eq, hrest.owned, ?_⟩
    intro unit prof prof' hhandle hfed
    -- The second part is fed by the profiler that the first part left.
    obtain ⟨prof₁, hfirst, hsecond⟩ := hfed.of_append
    have hhandle₁ : unit.handle = w₁.globals.unit.handle := by rw [hone.unit_eq, hhandle]
    exact (hone.refitted unit prof prof₁ hhandle hfirst).append
      (hrest.refitted unit prof₁ prof' hhandle₁ hsecond)

end

/-! ## Results -/

namespace FinishResult

/-- All but the label of the unit and its flag. -/
def unlabelled (r : FinishResult) : FinishResult := { r with unit := [], sampled := false }

/-- The duration, the operations, and the counters that are not the profiler's. -/
def apartFromProfile (r : FinishResult) :
    UInt64 × Bool × List (Bytes × OpAgg) × UInt64 × UInt64 × UInt32 × Nat :=
  (r.durationNs, r.automatic, r.operations, r.counters.gcRuns, r.counters.gcCollected, r.counters.opsOverflow,
    r.counters.breadcrumbsWritten)

end FinishResult

/-- A `finish` returns the same in both workers, as far as `f` can tell. -/
def SameFinish {α : Type} (f : FinishResult → α) (w w' : Worker) : Prop :=
  ∀ (handle : Int) (p s : Bool) (e : CallEnv),
    (w'.globals.finish handle p s (w'.env e)).1.map f = (w.globals.finish handle p s (w.env e)).1.map f

section
variable {w : Worker} {unit unit' : UnitState} {prof prof' : Profiler.State}

/-- When there is a result. -/
theorem finishUnit_result (g : Globals) (handle : Int) (p s : Bool) (env : CallEnv) :
    (g.finishUnit handle p s env).1 =
      if g.active = true ∧ g.unit.handle ≠ 0 ∧ (handle = 0 ∨ (g.unit.handle.toNat : Int) = handle) then
        some (({ g with prof := g.prof.stop } : Globals).result p s env)
      else none := by
  unfold Globals.finishUnit
  split
  -- Refused where the module never started up, or has no unit open, or another one.
  · rename_i hclosed
    rw [if_neg]
    simp only [Bool.or_eq_true, Bool.not_eq_true', decide_eq_true_eq] at hclosed
    rintro ⟨hactive, hopen, -⟩
    rcases hclosed with hinactive | hzero
    · rw [hactive] at hinactive
      cases hinactive
    · exact hopen hzero
  · rename_i hopen
    simp only [Bool.or_eq_true, Bool.not_eq_true', decide_eq_true_eq, not_or, Bool.not_eq_false] at hopen
    split
    · rename_i hother
      rw [if_neg]
      rintro ⟨-, -, hzero | hnamed⟩
      · exact hother.1 hzero
      · exact hother.2 hnamed
    · rename_i hnamed
      rw [if_pos ⟨hopen.1, hopen.2, by tauto⟩]

/-- The results of two units in one worker. -/
theorem sameFinish_refit {α : Type} {f : FinishResult → α} (howned : w.globals.ownerPid = w.pid)
    (hhandle : unit'.handle = unit.handle)
    (hresult : ∀ (p s : Bool) (env : CallEnv),
      f (({ w.globals with unit := unit', prof := prof'.stop } : Globals).result p s env)
        = f (({ w.globals with unit := unit, prof := prof.stop } : Globals).result p s env)) :
    SameFinish f (w.refit unit prof) (w.refit unit' prof') := by
  intro handle p s e
  have hlook : ∀ (unit : UnitState) (prof : Profiler.State),
      (w.refit unit prof).globals.detectFork ((w.refit unit prof).env e) = (w.refit unit prof).globals :=
    fun _ _ => detectFork_own howned
  unfold Globals.finish
  rw [hlook, hlook, finishUnit_result, finishUnit_result]
  have hsame : (w.refit unit' prof').globals.unit.handle = (w.refit unit prof).globals.unit.handle := hhandle
  have hactive : (w.refit unit' prof').globals.active = (w.refit unit prof).globals.active := rfl
  rw [hsame, hactive]
  split
  · exact congrArg some (hresult p s _)
  · rfl

theorem stop_withDeadline (s : Profiler.State) (d : Deadline) :
    (s.withDeadline d).stop = s.stop.withDeadline d := by
  have hsame : (s.withDeadline d).running = s.running := rfl
  unfold Profiler.State.stop
  rw [hsame]
  cases s.running with
  | true => rfl
  | false => rfl

/-- The deadline is in no result, and neither is what else an adoption changes in the unit. -/
theorem sameFinish_withDeadline (howned : w.globals.ownerPid = w.pid) (hhandle : unit'.handle = unit.handle)
    (hstart : unit'.startNs = unit.startNs) (hautomatic : unit'.automatic = unit.automatic)
    (hprofiling : unit'.profiling = unit.profiling) (d : Deadline) :
    SameFinish FinishResult.unlabelled (w.refit unit prof) (w.refit unit' (prof.withDeadline d)) := by
  refine sameFinish_refit howned hhandle ?_
  intro p s env
  rw [stop_withDeadline]
  unfold Globals.result FinishResult.unlabelled
  simp only [hstart, hautomatic, hprofiling]
  rfl

/-- The profiler has no part in the rest of the result. -/
theorem sameFinish_apart (howned : w.globals.ownerPid = w.pid) (hhandle : unit'.handle = unit.handle)
    (hstart : unit'.startNs = unit.startNs) (hautomatic : unit'.automatic = unit.automatic) :
    SameFinish FinishResult.apartFromProfile (w.refit unit prof) (w.refit unit' prof') := by
  refine sameFinish_refit howned hhandle ?_
  intro p s env
  unfold Globals.result FinishResult.apartFromProfile
  simp only [hstart, hautomatic]
  rfl

end

/-! ## The adoption -/

/-- Neither `sampled` nor `profile` is false in the context. -/
def wantsProfile (context : Option Context) : Bool :=
  Globals.contextFlag (context.getD []) "sampled" && Globals.contextFlag (context.getD []) "profile"

/-- What an adoption does to the unit and the profiler. -/
structure Adopts (g : Globals) (prof : Profiler.State) (profiling : Bool) (unit : UnitState) (g' : Globals) :
    Prop where
  eq : g' = { g with unit := unit, prof := prof }
  handle_eq : unit.handle = g.unit.handle
  startNs_eq : unit.startNs = g.unit.startNs
  automatic_eq : unit.automatic = true
  profiling_eq : unit.profiling = profiling

section
variable {g : Globals} {context : Option Context}

/-- A profile that is kept loses its deadline. -/
theorem adopts_kept (hprofiling : g.unit.profiling = true) (hwants : wantsProfile context = true)
    (env : CallEnv) : ∃ unit, Adopts g g.prof.clearDeadline true unit (g.adopt context env) := by
  simp only [wantsProfile, Bool.and_eq_true] at hwants
  obtain ⟨hsampled, hprofile⟩ := hwants
  have hadopt : ∃ unit : UnitState, unit.handle = g.unit.handle ∧ unit.startNs = g.unit.startNs ∧
      unit.automatic = true ∧ unit.profiling = true ∧
      g.adopt context env = { g with prof := g.prof.clearDeadline, unit := unit.applyTrace context } := by
    unfold Globals.adopt
    simp only [Globals.readContext, hsampled, hprofile, hprofiling, Bool.not_true, Bool.or_self,
      Bool.false_eq_true, if_false, Bool.false_and]
    exact ⟨{ g.unit with
      type := (Globals.contextType (context.getD [])).getD g.unit.type
      sampled := true
      profiling := true
      automatic := true
      adopted := true }, rfl, rfl, rfl, rfl, rfl⟩
  obtain ⟨unit, hhandle, hstart, hautomatic, hprof, heq⟩ := hadopt
  obtain ⟨hhandle', -, -, hprofiling', hautomatic', -, hstart'⟩ := unit.applyTrace_same context
  exact ⟨_, heq, hhandle'.trans hhandle, hstart'.trans hstart, hautomatic'.trans hautomatic,
    hprofiling'.trans hprof⟩

/-- A profile that is not wanted is thrown away. -/
theorem adopts_dropped (hwants : wantsProfile context = false) (env : CallEnv) :
    ∃ unit, Adopts g g.prof.stop.reset.clearDeadline false unit (g.adopt context env) := by
  have hadopt : ∃ unit : UnitState, unit.handle = g.unit.handle ∧ unit.startNs = g.unit.startNs ∧
      unit.automatic = true ∧ unit.profiling = false ∧
      g.adopt context env = { g with prof := g.prof.stop.reset.clearDeadline, unit := unit.applyTrace context } := by
    have hnot : (!Globals.contextFlag (context.getD []) "sampled" ||
        !Globals.contextFlag (context.getD []) "profile") = true := by
      rw [← Bool.not_and, ← wantsProfile, hwants, Bool.not_false]
    unfold Globals.adopt
    simp only [Globals.readContext, hnot, if_true]
    exact ⟨{ g.unit with
      type := (Globals.contextType (context.getD [])).getD g.unit.type
      sampled := Globals.contextFlag (context.getD []) "sampled"
      profiling := false
      automatic := true
      adopted := true }, rfl, rfl, rfl, rfl, rfl⟩
  obtain ⟨unit, hhandle, hstart, hautomatic, hprof, heq⟩ := hadopt
  obtain ⟨hhandle', -, -, hprofiling', hautomatic', -, hstart'⟩ := unit.applyTrace_same context
  exact ⟨_, heq, hhandle'.trans hhandle, hstart'.trans hstart, hautomatic'.trans hautomatic,
    hprofiling'.trans hprof⟩

end

/-- An open unit is one of an extension that works. -/
theorem active_of_open {ini : Ini} {io : StartupIo} {pid : Int} {as : List Action} {w : Worker}
    (hrun : Run (Guarded ForkedAnew WorkerSteps) (startedWorker ini io pid) as w)
    (hopen : w.globals.unit.handle ≠ 0) : w.globals.active = true ∧ w.globals.enabled = true := by
  have hclosed : (Globals.minit ini io pid).unit.handle = 0 :=
    congrArg UnitState.handle (booted_minit ini io pid).unit_eq
  have hinactive : w.globals.active = false → w.globals.unit.handle = 0 :=
    @Run.invariant _ _ _ _ _ _ (fun w => w.globals.active = false → w.globals.unit.handle = 0)
      (fun _ _ _ hs hstep => inactive_step hs hstep) (fun _ => hclosed) hrun.of_guarded
  have hactive : w.globals.active = true := by
    cases hoff : w.globals.active with
    | true => rfl
    | false => exact absurd (hinactive hoff) hopen
  exact ⟨hactive, (timerOwned_of_run hrun).1.enabled hactive⟩

/-- A `begin` that finds such a unit adopts it. -/
theorem begin_adopts {w : Worker} (hworks : w.globals.active = true ∧ w.globals.enabled = true)
    (howned : w.globals.ownerPid = w.pid) (hadoptable : w.globals.adoptable = true) (context : Option Context)
    (e : CallEnv) : w.globals.begin context (w.env e)
      = ((w.globals.adopt context (w.env e)).unit.handle, w.globals.adopt context (w.env e)) := by
  have hself : w.globals.detectFork (w.env e) = w.globals := detectFork_own howned
  unfold Globals.begin Globals.beginUnit
  simp only [hworks.1, hworks.2, Bool.not_true, Bool.or_self, Bool.false_eq_true, if_false, hself, hadoptable,
    if_true]

/-- The run with the `begin` in front, which leads to what the run without it leads to, with the other unit and
the other profiler. -/
theorem begin_run {w v : Worker} {context : Option Context} {e : CallEnv} {after : List Action} {fs : List Feed}
    {unit : UnitState} {profiling : Bool} {prof prof' : Profiler.State}
    (hbegin : w.globals.begin context (w.env e)
      = ((w.globals.adopt context (w.env e)).unit.handle, w.globals.adopt context (w.env e)))
    (hmeasured : Measured w after fs v)
    (hadopts : Adopts w.globals prof profiling unit (w.globals.adopt context (w.env e)))
    (hfed : Run FeedSteps prof fs prof') :
    (w.globals.begin context (w.env e)).1 = w.globals.unit.handle ∧
      Run WorkerSteps w (.begin context e :: after) (v.refit unit prof') := by
  have hstep : WorkerSteps w (.begin context e) (w.refit unit prof) := by
    show some (w.withGlobals (w.globals.begin context (w.env e)).2) = _
    rw [hbegin, hadopts.eq]
    rfl
  refine ⟨?_, .cons hstep (hmeasured.refitted unit prof prof' hadopts.handle_eq hfed)⟩
  rw [hbegin, hadopts.eq]
  exact hadopts.handle_eq

/-- A unit that is not profiled has no profile. -/
theorem finish_unprofiled {w : Worker} {unit : UnitState} {prof : Profiler.State} {handle : Int} {p s : Bool}
    {e : CallEnv} {r : FinishResult} (howned : w.globals.ownerPid = w.pid) (hprofiling : unit.profiling = false)
    (h : ((w.refit unit prof).globals.finish handle p s ((w.refit unit prof).env e)).1 = some r) :
    r.profiling = false ∧ r.profile = none := by
  have hself : (w.refit unit prof).globals.detectFork ((w.refit unit prof).env e) = (w.refit unit prof).globals :=
    detectFork_own howned
  rw [Globals.finish, hself, finishUnit_result] at h
  split at h
  · cases h
    refine ⟨hprofiling, ?_⟩
    show (if (p && unit.profiling && _) = true then _ else _) = none
    rw [hprofiling, Bool.and_false, Bool.false_and]
    rfl
  · cases h

/-- **Adoption loses nothing.** In one process, whatever the worker has done before, a `begin` that is put in
front of what is measured afterwards returns the handle of the automatic unit. When the context wants a profile,
every `finish` returns what it returns without the `begin`, but for the label and the flag: without the `begin`
and without a deadline, and with the deadline too if that does not stop the profiler. When it does not want one,
the handle, the start, the operations and what is booked to them are what they are without the `begin`, and only
the profile is gone. -/
theorem adoption_loses_nothing {ini : Ini} {io : StartupIo} {pid : Int} {as after : List Action} {w v : Worker}
    (hrun : Run (Guarded ForkedAnew WorkerSteps) (startedWorker ini io pid) as w)
    (howned : w.globals.ownerPid = w.pid) (hadoptable : w.globals.adoptable = true)
    (hprofiling : w.globals.unit.profiling = true) (context : Option Context) (e : CallEnv)
    (hafter : Run (Guarded Measuring WorkerSteps) w after v) :
    (w.globals.begin context (w.env e)).1 = w.globals.unit.handle ∧
      ∃ v', Run WorkerSteps w (.begin context e :: after) v' ∧
        (wantsProfile context = true →
          (∃ u, Run WorkerSteps w.unlimited after u ∧ SameFinish FinishResult.unlabelled u v') ∧
          ((w.globals.prof.running = true → v.globals.prof.capped = false) →
            SameFinish FinishResult.unlabelled v v')) ∧
        (wantsProfile context = false →
          v'.globals.unit.handle = v.globals.unit.handle ∧ v'.globals.unit.startNs = v.globals.unit.startNs ∧
          v'.globals.ops = v.globals.ops ∧ v'.calls = v.calls ∧ SameFinish FinishResult.apartFromProfile v v' ∧
          ∀ handle p s e r, (v'.globals.finish handle p s (v'.env e)).1 = some r →
            r.profiling = false ∧ r.profile = none) := by
  have hunit : w.globals.unit.handle ≠ 0 ∧ w.globals.unit.automatic = true := by
    simp only [Globals.adoptable, Bool.and_eq_true, bne_iff_ne] at hadoptable
    exact hadoptable.1
  have hbegin := begin_adopts (active_of_open hrun hunit.1) howned hadoptable context e
  have hsound := (timerOwned_of_run hrun).2.sound
  have hmeasured := measuring_run howned hafter
  have hsame := hmeasured.unit_eq
  cases hwants : wantsProfile context with
  | true =>
    -- Adopted with its profile: the profiler has lost its deadline and nothing else.
    obtain ⟨unit, hadopts⟩ := adopts_kept hprofiling hwants (w.env e)
    have hcleared : w.globals.prof.clearDeadline.Sound := hsound.same w.globals.prof.same_clearDeadline
    obtain ⟨prof', hfed⟩ := hcleared.exists_run (after.filterMap Action.feed)
    obtain ⟨hhandle, hwith⟩ := begin_run hbegin hmeasured hadopts hfed
    have hlabelled : ∀ prof (d : Deadline), SameFinish FinishResult.unlabelled (v.refit w.globals.unit prof)
        (v.refit unit (prof.withDeadline d)) := fun prof d =>
      sameFinish_withDeadline hmeasured.owned hadopts.handle_eq hadopts.startNs_eq
        (hadopts.automatic_eq.trans hunit.2.symm) (hadopts.profiling_eq.trans hprofiling.symm) d
    let cleared : Deadline := ⟨0, w.globals.prof.deadlineCheckedAt, w.globals.prof.deadlineTicksAt⟩
    refine ⟨hhandle, v.refit unit prof', hwith, fun _ => ⟨?_, fun hcap => ?_⟩, fun h =>
      absurd h.symm Bool.false_ne_true⟩
    · refine ⟨v.refit w.globals.unit prof', hmeasured.refitted _ _ _ rfl hfed, ?_⟩
      exact hlabelled prof' ⟨prof'.deadlineNs, prof'.deadlineCheckedAt, prof'.deadlineTicksAt⟩
    · -- The profiler that has lost its deadline ends as the one that keeps it, and there is only one run of it.
      have hfed' := Profiler.State.run_withDeadline (d := cleared) hsound rfl hmeasured.fed hcap
      have hends := hfed.unique (fun h h' => Option.some.inj (h.symm.trans h')) hfed'
      have hkept := hlabelled v.globals.prof cleared
      rw [← hsame, ← hends] at hkept
      exact hkept
  | false =>
    -- Adopted without: the profiler has been stopped and emptied, and what it is fed is not reported.
    obtain ⟨unit, hadopts⟩ := adopts_dropped hwants (w.env e)
    have hreset : w.globals.prof.stop.reset.clearDeadline.Sound :=
      hsound.stop.reset.same w.globals.prof.stop.reset.same_clearDeadline
    obtain ⟨prof', hfed⟩ := hreset.exists_run (after.filterMap Action.feed)
    obtain ⟨hhandle, hwith⟩ := begin_run hbegin hmeasured hadopts hfed
    rw [hsame]
    refine ⟨hhandle, v.refit unit prof', hwith, fun h => absurd h Bool.false_ne_true, fun _ =>
      ⟨hadopts.handle_eq, hadopts.startNs_eq, rfl, rfl, ?_, ?_⟩⟩
    · have hapart : SameFinish FinishResult.apartFromProfile (v.refit w.globals.unit v.globals.prof)
          (v.refit unit prof') :=
        sameFinish_apart hmeasured.owned hadopts.handle_eq hadopts.startNs_eq
          (hadopts.automatic_eq.trans hunit.2.symm)
      rwa [← hsame] at hapart
    · intro handle p s e r hfinish
      exact finish_unprofiled hmeasured.owned hadopts.profiling_eq hfinish

/-- A request with a sample in a call of curl. -/
def curlRequest : List Action := [.opBegin .curlExec 6, .tick 1, .interrupt [] [] 7, .opEnd 0 8]

theorem run_after_nil {ok : Worker → Action → Prop} (w : Worker) :
    Run (Guarded ok WorkerSteps) w [] (w.after []) := .nil w

/-- A run, one step at a time. -/
theorem run_after_cons {ok : Worker → Action → Prop} {w : Worker} {a : Action} {as : List Action} (hok : ok w a)
    (hsome : (w.step a).isSome = true)
    (hrest : Run (Guarded ok WorkerSteps) (w.after [a]) as ((w.after [a]).after as)) :
    Run (Guarded ok WorkerSteps) w (a :: as) (w.after (a :: as)) := by
  obtain ⟨v, hv⟩ := Option.isSome_iff_exists.mp hsome
  have hone : w.after [a] = v := by rw [Worker.after, hv, Option.getD_some, Worker.after]
  have hall : w.after (a :: as) = v.after as := by rw [Worker.after, hv, Option.getD_some]
  rw [hall]
  rw [hone] at hrest
  exact .cons ⟨hok, hv⟩ hrest

/-- The unit of the first request, adopted before it calls curl. -/
theorem nothing_lost_in_request :
    (servingWorker.globals.begin none (servingWorker.env (callAt 5))).1 = servingWorker.globals.unit.handle ∧
      ∃ v', Run WorkerSteps servingWorker (.begin none (callAt 5) :: curlRequest) v' ∧
        SameFinish FinishResult.unlabelled (servingWorker.after curlRequest) v' := by
  have hopened : Guarded ForkedAnew WorkerSteps (startedWorker autoIni plainStartup 100) (.rinit none (callAt 5))
      servingWorker := ⟨trivial, rfl⟩
  have hfacts : servingWorker.globals.ownerPid = servingWorker.pid ∧ servingWorker.globals.adoptable = true ∧
      servingWorker.globals.unit.profiling = true ∧
      (((servingWorker.after [.opBegin .curlExec 6]).after [.tick 1]).step (.interrupt [] [] 7)).isSome = true ∧
      ((((servingWorker.after [.opBegin .curlExec 6]).after [.tick 1]).after [.interrupt [] [] 7]).step
        (.opEnd 0 8)).isSome = true ∧
      (servingWorker.after curlRequest).globals.prof.capped = false := by decide +kernel
  obtain ⟨hown, hadoptable, hprofiling, hsampled, hended, huncapped⟩ := hfacts
  have hrequest : Run (Guarded Measuring WorkerSteps) servingWorker curlRequest (servingWorker.after curlRequest) :=
    run_after_cons trivial rfl (run_after_cons trivial rfl (run_after_cons trivial hsampled
      (run_after_cons trivial hended (run_after_nil _))))
  obtain ⟨hhandle, v', hrun, hkept, -⟩ :=
    adoption_loses_nothing (.single hopened) hown hadoptable hprofiling none (callAt 5) hrequest
  exact ⟨hhandle, v', hrun, (hkept rfl).2 fun _ => huncapped⟩
end CboxTelemetry.Extension
