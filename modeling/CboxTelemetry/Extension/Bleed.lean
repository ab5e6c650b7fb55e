import CboxTelemetry.Extension.Past
import CboxTelemetry.Lib.Product

/-!
# Nothing of an earlier unit in a result

Two workers of one process have had different units. The same `begin` opens a unit in both, the same happens in
it, and it is finished. The results are the same, if the profiler is started, and its timer can be armed, in both
or in neither; but a reset does not clear the period of the last start, and a unit that starts no profiler
reports it (`sameReport_iff`).
-/

namespace CboxTelemetry.Extension

open Profiler (Instant Stack)

/-! ## Events in a unit -/

/-- One event, as it comes in either worker, whatever the clock says. A call of an earlier unit can end in one of
them. -/
inductive SameEvent (n n' : Nat) (p : Worker × Worker) : Move Action Action → Prop
  | opBegin (type : OpType) (now now' : UInt64) : SameEvent n n' p (.both (.opBegin type now) (.opBegin type now'))
  | opEnd (i : Nat) (now now' : UInt64) : SameEvent n n' p (.both (.opEnd (n + i) now) (.opEnd (n' + i) now'))
  | tick (ticks : Nat) : SameEvent n n' p (.both (.tick ticks) (.tick ticks))
  | interrupt (stack : Stack) (between : List Nat) (now now' : Instant) :
      SameEvent n n' p (.both (.interrupt stack between now) (.interrupt stack between now'))
  | status (e e' : CallEnv) : SameEvent n n' p (.both (.status e) (.status e'))
  | iniSet (periodUs maxDepth : Int) :
      SameEvent n n' p (.both (.iniSet periodUs maxDepth) (.iniSet periodUs maxDepth))
  | rinit (sapi : Option Bytes) (e e' : CallEnv) : SameEvent n n' p (.both (.rinit sapi e) (.rinit sapi e'))
  | refused (handle handle' : Int) (ip is : Bool) (e e' : CallEnv) :
      (p.1.globals.finish handle ip is (p.1.env e)).1 = none →
      (p.2.globals.finish handle' ip is (p.2.env e')).1 = none →
      SameEvent n n' p (.both (.finish handle ip is e) (.finish handle' ip is e'))
  | olderLeft (call : Nat) (now : UInt64) : call < n → Stale p.1 call →
      SameEvent n n' p (.left (.opEnd call now))
  | olderRight (call : Nat) (now : UInt64) : call < n' → Stale p.2 call →
      SameEvent n n' p (.right (.opEnd call now))

/-- What is no call of `begin`, or end of a unit. -/
def Inside (w : Worker) : Action → Prop
  | .opBegin _ _ | .opEnd _ _ | .tick _ | .interrupt _ _ _ | .status _ | .iniSet _ _ | .rinit _ _ => True
  | .finish handle p s e => (w.globals.finish handle p s (w.env e)).1 = none
  | _ => False

section
variable {n n' : Nat} {w w' v v' : Worker} {a : Action} {m : Move Action Action}

/-- Each side of an event is an event inside the unit. -/
theorem SameEvent.inside {p : Worker × Worker} (h : SameEvent n n' p m) :
    (∀ a, m.onLeft = some a → Inside p.1 a) ∧ ∀ a, m.onRight = some a → Inside p.2 a := by
  cases h with
  | refused handle handle' ip is e e' hnone hnone' =>
    constructor
    · rintro _ ⟨⟩
      exact hnone
    · rintro _ ⟨⟩
      exact hnone'
  | _ => constructor <;> rintro _ ⟨⟩ <;> trivial

/-- No event inside a unit forks. -/
theorem Inside.withoutFork {s : Worker × Handles} (h : Inside w a) : WithoutFork s a := by
  cases a with
  | fork child => exact absurd h id
  | _ => trivial

/-- A request that starts while a unit is open. -/
theorem rinit_open {g : Globals} {env : CallEnv} (sapi : Option Bytes) (hopen : (g.detectFork env).unit.handle ≠ 0) :
    g.rinit sapi env = { g.detectFork env with recorder := requestRecorder (g.detectFork env) env } := by
  have hstarted := started_rinit g sapi env
  generalize g.rinit sapi env = g' at hstarted
  cases hstarted with
  | quiet => rfl
  | opened _ hclosed => exact absurd hclosed hopen

/-- **An event in a unit** leaves the unit as it is, and the period. -/
theorem inside_step (hknown : Known w) (hopen : w.globals.unit.handle ≠ 0) (hin : Inside w a)
    (hstep : WorkerSteps w a v) :
    v.globals.unit = w.globals.unit ∧ v.globals.prof.periodNs = w.globals.prof.periodNs := by
  -- The record is the process's own, so a look changes nothing but the record.
  have hlook : ∀ e : CallEnv, w.globals.detectFork (w.env e) = { w.globals with ownerPid := w.pid } :=
    hknown.onRecord.detectFork_eq
  cases a with
  | rinit sapi e =>
    cases hstep
    show (w.globals.rinit sapi (w.env e)).unit = _ ∧ (w.globals.rinit sapi (w.env e)).prof.periodNs = _
    have hopen' : (w.globals.detectFork (w.env e)).unit.handle ≠ 0 := by
      rw [hlook]
      exact hopen
    rw [rinit_open sapi hopen', hlook]
    exact ⟨rfl, rfl⟩
  | finish handle p s e =>
    cases hstep
    show (w.globals.finish handle p s (w.env e)).2.unit = _ ∧ (w.globals.finish handle p s (w.env e)).2.prof.periodNs = _
    rw [finish_none hin, hlook]
    exact ⟨rfl, rfl⟩
  | status e =>
    cases hstep
    show (w.globals.detectFork (w.env e)).unit = _ ∧ (w.globals.detectFork (w.env e)).prof.periodNs = _
    rw [hlook]
    exact ⟨rfl, rfl⟩
  | iniSet periodUs maxDepth =>
    cases hstep
    exact ⟨rfl, rfl⟩
  | opBegin type now =>
    cases hstep
    show (w.globals.noteOpBegin type now).2.unit = _ ∧ (w.globals.noteOpBegin type now).2.prof.periodNs = _
    rw [Globals.noteOpBegin_frame]
    exact ⟨rfl, rfl⟩
  | opEnd call now =>
    simp only [WorkerSteps, Worker.step] at hstep
    split at hstep
    · next t _ =>
      cases hstep
      show (w.globals.noteOpEnd t now).unit = _ ∧ (w.globals.noteOpEnd t now).prof.periodNs = _
      rw [Globals.noteOpEnd_frame]
      exact ⟨rfl, rfl⟩
    · cases hstep
  | tick ticks =>
    cases hstep
    exact ⟨rfl, rfl⟩
  | interrupt stack between now =>
    simp only [WorkerSteps, Worker.step] at hstep
    split at hstep
    · next prof hinterrupt =>
      cases hstep
      exact ⟨rfl, (hknown.steady.sound.interrupt hinterrupt).periodNs_eq⟩
    · cases hstep
  | rshutdown | begin _ _ | fork _ => exact absurd hin id

/-- A worker in the unit that `u` was left with. -/
structure StaysOpen (u v : Worker) : Prop where
  known : Known v
  unit_eq : v.globals.unit = u.globals.unit
  periodNs_eq : v.globals.prof.periodNs = u.globals.prof.periodNs
  active_eq : v.globals.active = u.globals.active

/-- The unit stays open through each of its events. -/
theorem StaysOpen.step {u : Worker} (h : StaysOpen u w) (hopen : u.globals.unit.handle ≠ 0) (hin : Inside w a)
    (hstep : WorkerSteps w a v) : StaysOpen u v := by
  have hopen' : w.globals.unit.handle ≠ 0 := by
    rw [h.unit_eq]
    exact hopen
  obtain ⟨hunit, hperiod⟩ := inside_step h.known hopen' hin hstep
  exact ⟨h.known.step (s := (w, .empty)) hin.withoutFork hstep, hunit.trans h.unit_eq,
    hperiod.trans h.periodNs_eq, (keepsRecording_step hstep).active_eq.trans h.active_eq⟩

/-! ## The same events -/

/-- A request starts in both. -/
theorem Twin.rinitOpen {timed tied : Prop} (h : Twin timed tied n n' w w') (hopen : w.globals.unit.handle ≠ 0)
    {sapi : Option Bytes} {e e' : CallEnv} (hknown : Known v) (hknown' : Known v')
    (hstep : WorkerSteps w (.rinit sapi e) v) (hstep' : WorkerSteps w' (.rinit sapi e') v') :
    Twin timed tied n n' v v' := by
  have hopen' : w'.globals.unit.handle ≠ 0 := mt h.alike.unit.closed_iff.mp hopen
  -- With a unit open, `PHP_RINIT` renews the recorder and leaves the rest.
  have hquiet : ∀ {u : Worker} {e : CallEnv}, Known u → u.globals.unit.handle ≠ 0 → ∃ r : Recorder,
      u.globals.rinit sapi (u.env e) = { u.globals with ownerPid := u.pid, recorder := r } := by
    intro u e hu hopen
    have hlook := hu.onRecord.detectFork_eq e
    refine ⟨requestRecorder (u.globals.detectFork (u.env e)) (u.env e), ?_⟩
    rw [rinit_open sapi (by rw [hlook]; exact hopen), hlook]
  cases hstep
  cases hstep'
  obtain ⟨r, hr⟩ := @hquiet w e h.known hopen
  obtain ⟨r', hr'⟩ := @hquiet w' e' h.known' hopen'
  rw [hr] at hknown ⊢
  rw [hr'] at hknown' ⊢
  have halike : Globals.Alike timed tied { w.globals with ownerPid := w.pid, recorder := r }
      { w'.globals with ownerPid := w'.pid, recorder := r' } :=
    ⟨h.alike.settings, h.alike.unit, h.alike.ops, h.alike.prof, h.alike.period, h.alike.gc⟩
  exact h.quiet hknown hknown' halike rfl rfl (UInt32.add_zero _).symm (UInt32.add_zero _).symm

/-- Finishes that are refused in both. -/
theorem Twin.refused {timed tied : Prop} (h : Twin timed tied n n' w w') {handle handle' : Int} {p s : Bool}
    {e e' : CallEnv} (hnone : (w.globals.finish handle p s (w.env e)).1 = none)
    (hnone' : (w'.globals.finish handle' p s (w'.env e')).1 = none) (hknown : Known v) (hknown' : Known v')
    (hstep : WorkerSteps w (.finish handle p s e) v) (hstep' : WorkerSteps w' (.finish handle' p s e') v') :
    Twin timed tied n n' v v' := by
  cases hstep
  cases hstep'
  rw [finish_none hnone] at hknown ⊢
  rw [finish_none hnone'] at hknown' ⊢
  exact h.look e e' hknown hknown'

/-- Two workers, each in its unit. -/
structure BothOpen (u u' : Worker) (p : Worker × Worker) : Prop where
  left : StaysOpen u p.1
  right : StaysOpen u' p.2

/-- Both units stay open. -/
theorem BothOpen.step {u u' : Worker} {p q : Worker × Worker} (h : BothOpen u u' p)
    (hopen : u.globals.unit.handle ≠ 0) (hopen' : u'.globals.unit.handle ≠ 0)
    (hmove : Guarded (SameEvent n n') (ProductSteps WorkerSteps WorkerSteps) p m q) : BothOpen u u' q := by
  obtain ⟨hsame, hsteps⟩ := hmove
  obtain ⟨hleft, hright⟩ := hsame.inside
  cases hsteps with
  | both hl hr => exact ⟨h.left.step hopen (hleft _ rfl) hl, h.right.step hopen' (hright _ rfl) hr⟩
  | left hl => exact ⟨h.left.step hopen (hleft _ rfl) hl, h.right⟩
  | right hr => exact ⟨h.left, h.right.step hopen' (hright _ rfl) hr⟩

/-- **The same event** leaves them alike. No unit that `begin` has opened has a deadline, so the clock does
not matter to an interrupt. -/
theorem Twin.sameEvent (h : Twin False False n n' w w') (hopen : w.globals.unit.handle ≠ 0)
    (hautomatic : w.globals.unit.automatic = false) (hknown : Known v) (hknown' : Known v')
    (hmove : Guarded (SameEvent n n') (ProductSteps WorkerSteps WorkerSteps) (w, w') m (v, v')) :
    Twin False False n n' v v' := by
  -- A unit of the application has no deadline, so the clock decides nothing in it.
  have hnone : w.globals.prof.running = true → w.globals.prof.deadlineNs = 0 := by
    intro hrunning
    by_contra hdeadline
    have hno := ((h.known.steady.deadline_iff hrunning).mp hdeadline).1
    rw [hautomatic] at hno
    cases hno
  obtain ⟨hsame, hsteps⟩ := hmove
  cases hsteps with
  | both hl hr =>
    cases hsame with
    | opBegin type now now' => exact h.opBegin nofun hknown hknown' hl hr
    | opEnd i now now' => exact h.opEnd nofun hknown hknown' hl hr
    | tick ticks => exact h.tick hknown hknown' hl hr
    | interrupt stack between now now' =>
      exact h.interrupt (fun hrunning hdeadline => absurd (hnone hrunning) hdeadline) hknown hknown' hl hr
    | status e e' =>
      cases hl
      cases hr
      exact h.look e e' hknown hknown'
    | iniSet periodUs maxDepth => exact h.iniSet hknown hknown' hl hr
    | rinit sapi e e' => exact h.rinitOpen hopen hknown hknown' hl hr
    | refused handle handle' p s e e' hno hno' => exact h.refused hno hno' hknown hknown' hl hr
  | left hl =>
    cases hsame with
    | olderLeft call now hlt hstale => exact h.olderLeft hlt hstale hknown hl
  | right hr =>
    cases hsame with
    | olderRight call now hlt hstale => exact h.olderRight hlt hstale hknown' hr

/-- The units after the same events. -/
theorem bothOpen_of_run {u u' : Worker} {p : Worker × Worker} {ms : List (Move Action Action)} (hu : Known u)
    (hu' : Known u') (hopen : u.globals.unit.handle ≠ 0) (hopen' : u'.globals.unit.handle ≠ 0)
    (hrun : Run (Guarded (SameEvent n n') (ProductSteps WorkerSteps WorkerSteps)) (u, u') ms p) : BothOpen u u' p :=
  Run.invariant (fun _ _ _ h hs => h.step hopen hopen' hs) ⟨⟨hu, rfl, rfl, rfl⟩, ⟨hu', rfl, rfl, rfl⟩⟩ hrun

/-- The two workers stay twins over the events. -/
theorem twin_of_run {u u' : Worker} {p : Worker × Worker} {ms : List (Move Action Action)}
    (h : Twin False False n n' u u') (hopen : u.globals.unit.handle ≠ 0) (hautomatic : u.globals.unit.automatic = false)
    (hrun : Run (Guarded (SameEvent n n') (ProductSteps WorkerSteps WorkerSteps)) (u, u') ms p) :
    Twin False False n n' p.1 p.2 := by
  have hopen' := mt h.alike.unit.closed_iff.mp hopen
  have hstep : ∀ p m q, BothOpen u u' p ∧ Twin False False n n' p.1 p.2 →
      Guarded (SameEvent n n') (ProductSteps WorkerSteps WorkerSteps) p m q →
      BothOpen u u' q ∧ Twin False False n n' q.1 q.2 := by
    rintro ⟨w, w'⟩ m ⟨v, v'⟩ ⟨hboth, htwin⟩ hmove
    have hafter := hboth.step hopen hopen' hmove
    have hunit : w.globals.unit = u.globals.unit := hboth.left.unit_eq
    refine ⟨hafter, htwin.sameEvent ?_ ?_ hafter.left.known hafter.right.known hmove⟩
    · rw [hunit]
      exact hopen
    · rw [hunit]
      exact hautomatic
  have hstart : BothOpen u u' (u, u') := ⟨⟨h.known, rfl, rfl, rfl⟩, ⟨h.known', rfl, rfl, rfl⟩⟩
  exact (@Run.invariant _ _ _ _ _ _ (fun p : Worker × Worker => BothOpen u u' p ∧ Twin False False n n' p.1 p.2)
    hstep ⟨hstart, h⟩ hrun).2

end

/-! ## The same `begin` -/

/-- A ready profiler starts when the timer arms, and has the period then. -/
theorem start_of_ready {s : Profiler.State} (hready : s.ready = true) {periodNs : Nat} (hperiod : periodNs ≠ 0)
    (maxDepth maxDurationNs : Nat) (now : Instant) (io : Profiler.TimerIo) :
    (s.start periodNs maxDepth maxDurationNs now io).1 = (s.timer.arm io periodNs).1 ∧
      (s.start periodNs maxDepth maxDurationNs now io).2.periodNs =
        if (s.timer.arm io periodNs).1 then periodNs else 0 := by
  have hnonzero : (periodNs == 0) = false := beq_eq_false_iff_ne.mpr hperiod
  unfold Profiler.State.start
  simp only [hready, hnonzero, Bool.not_true, Bool.or_self, Bool.false_eq_true, if_false,
    Profiler.State.reset_timer]
  generalize s.timer.arm io periodNs = r
  obtain ⟨ok, timer⟩ := r
  cases ok <;> exact ⟨rfl, rfl⟩

/-- What becomes of the flag and of the period when a unit is opened. -/
theorem unitOpen_period (g : Globals) (request : UnitRequest) (automatic : Bool) (env : CallEnv) :
    (g.unitOpen request automatic env).unit.profiling =
        (decide (g.startsProfiler request) && g.arms request env.timer) ∧
      (g.unitOpen request automatic env).prof.periodNs =
        if g.startsProfiler request then if g.arms request env.timer then request.periodNs else 0
        else g.prof.periodNs := by
  have hstarts : g.startsProfiler request ↔
      (request.wantProfile && request.sampled && g.profilerEnabled) = true ∧ g.prof.ready = true := by
    unfold Globals.startsProfiler
    simp only [Bool.and_eq_true, and_assoc]
  rw [Globals.unitOpen_eq]
  split
  · next hwanted =>
    -- A profiler that is not ready starts nothing, and keeps the period it has.
    cases hready : g.prof.ready with
    | false =>
      have hno : ¬ g.startsProfiler request := fun h => by
        rw [(hstarts.mp h).2] at hready
        cases hready
      have hrefused : ∀ (maxDepth maxDurationNs : Nat) (now : Instant) (io : Profiler.TimerIo),
          g.prof.start request.periodNs maxDepth maxDurationNs now io = (false, g.prof) := fun _ _ _ _ => by
        unfold Profiler.State.start
        simp only [hready, Bool.not_false, Bool.true_or, if_true]
      unfold Globals.startProfiler
      simp only
      rw [show (g.openUnit request automatic env).prof = g.prof from rfl]
      unfold UnitRequest.periodNs at hrefused
      rw [hrefused, if_neg hno, decide_eq_false hno]
      exact ⟨rfl, rfl⟩
    | true =>
      have hyes := hstarts.mpr ⟨hwanted, hready⟩
      obtain ⟨hok, hperiod⟩ := start_of_ready hready request.periodNs_ne_zero
        (clamp request.maxDepth 1 depthMax).toNat (g.limitNs automatic) env.startNow env.timer
      rw [if_pos hyes, decide_eq_true hyes, Bool.true_and]
      unfold Globals.startProfiler
      simp only
      rw [show (g.openUnit request automatic env).prof = g.prof from rfl]
      refine ⟨?_, hperiod⟩
      unfold UnitRequest.periodNs at hok
      rw [hok]
      unfold Globals.arms UnitRequest.periodNs
      split
      · next harmed => exact harmed.symm
      · next harmed => exact (Bool.not_eq_true _ ▸ harmed).symm
  · next hunwanted =>
    have hno : ¬ g.startsProfiler request := fun h => hunwanted (hstarts.mp h).1
    rw [if_neg hno, decide_eq_false hno]
    exact ⟨rfl, Profiler.State.reset_periodNs _⟩

/-- The state with which a call starts, when it has looked for a fork. -/
def Worker.looked (w : Worker) (e : CallEnv) : Globals := w.globals.detectFork (w.env e)

/-- A `begin` that opens a unit. -/
structure Opens (context : Option Context) (e : CallEnv) (w v : Worker) : Prop where
  step : WorkerSteps w (.begin context e) v
  accepted : (w.globals.begin context (w.env e)).1 ≠ 0
  fresh : (w.looked e).adoptable = false

section
variable {w w' u u' v v' : Worker} {e e' : CallEnv} {context : Option Context}

/-- A look keeps the settings and the period. -/
theorem looked_keeps (w : Worker) (e : CallEnv) : (w.looked e).settings = w.globals.settings ∧
    (w.looked e).prof.periodNs = w.globals.prof.periodNs := by
  unfold Worker.looked Globals.detectFork
  split
  · exact ⟨rfl, rfl⟩
  · split
    · exact ⟨rfl, rfl⟩
    · exact ⟨rfl, Profiler.State.reset_periodNs _⟩

/-- Stopping does not change whether a profiler is started. -/
theorem stopped_starts (g : Globals) (request : UnitRequest) :
    g.stopped.startsProfiler request ↔ g.startsProfiler request := by
  unfold Globals.startsProfiler
  rw [show g.stopped.prof.ready = g.prof.ready from (Profiler.State.same_stop g.prof).ready]
  exact Iff.rfl

/-- Nor whether its timer arms. -/
theorem stopped_arms (g : Globals) (request : UnitRequest) (io : Profiler.TimerIo) :
    g.stopped.arms request io = g.arms request io := by
  unfold Globals.arms
  show (g.prof.stop.timer.arm io request.periodNs).1 = _
  obtain hkept | hdisarmed := stop_timer g.prof
  · rw [hkept]
  · rw [hdisarmed, Profiler.Timer.arm_disarm]

/-- What a `begin` leaves that opens a unit. -/
theorem Opens.eq (h : Opens context e w v) (hsteady : Steady (w.looked e)) :
    w.globals.active = true ∧ v = w.withGlobals
      { (w.looked e).stopped.unitOpen (w.globals.readContext context) false (w.env e) with
        unit := ((w.looked e).stopped.unitOpen (w.globals.readContext context) false (w.env e)).unit.applyTrace
          context } := by
  obtain ⟨hstep, haccepted, hfresh⟩ := h
  have hread : (w.looked e).readContext context = w.globals.readContext context := by
    have hsettings := (looked_keeps w e).1
    unfold Globals.readContext
    rw [show (w.looked e).periodUs = w.globals.periodUs from congrArg Settings.periodUs hsettings,
      show (w.looked e).maxDepth = w.globals.maxDepth from congrArg Settings.maxDepth hsettings]
  -- A profiler that stands still is stopped as well.
  have hstopped : (if (w.looked e).unit.handle ≠ 0 then (w.looked e).stopped else w.looked e) =
      (w.looked e).stopped := by
    split
    · rfl
    · next hclosed =>
      have hidle := (hsteady.closed (not_not.mp hclosed)).stopped
      unfold Globals.stopped
      rw [Profiler.State.stop_of_stopped hidle]
  have hopened : (w.looked e).beginUnit context (w.env e) =
      { (w.looked e).stopped.unitOpen (w.globals.readContext context) false (w.env e) with
        unit := ((w.looked e).stopped.unitOpen (w.globals.readContext context) false (w.env e)).unit.applyTrace
          context } := by
    have hfresh : ¬ (w.looked e).adoptable = true := by
      rw [hfresh]
      exact nofun
    rw [← hstopped, ← hread]
    unfold Globals.beginUnit
    rw [if_neg hfresh]
    rfl
  cases hstep
  unfold Globals.begin at haccepted ⊢
  split at haccepted
  · exact absurd rfl haccepted
  · next hgo =>
    rw [if_neg hgo]
    simp only [Bool.or_eq_true, Bool.not_eq_true', not_or, Bool.not_eq_false] at hgo
    exact ⟨hgo.1, congrArg w.withGlobals hopened⟩

/-- The unit that has been opened. -/
structure Fresh (u : Worker) : Prop where
  known : Known u
  isOpen : u.globals.unit.handle ≠ 0
  automatic_eq : u.globals.unit.automatic = false
  active : u.globals.active = true

/-- The unit that was opened is the application's own, in a process on record. -/
theorem Opens.fresh_unit (h : Opens context e w u) (hsteady : Steady w.globals) : Fresh u := by
  have hlooked : Steady (w.looked e) := hsteady.detectFork _
  obtain ⟨hactive, heq⟩ := h.eq hlooked
  have hkeeps := keepsRecording_step h.step
  have howner : OnRecord u := by
    intro _
    rw [heq]
    show ((w.looked e).stopped.unitOpen _ false (w.env e)).ownerPid = w.pid
    rw [(keeps_unitOpen _ _ _ _).ownerPid_eq]
    exact detectFork_ownerPid w.globals (w.env e)
  obtain ⟨-, -, hautomatic⟩ := unitOpen_flags (w.looked e).stopped (w.globals.readContext context) false (w.env e)
  obtain ⟨-, hhandle, -⟩ := unitOpened_unitOpen (w.looked e).stopped (w.globals.readContext context) false (w.env e)
  have hsame := UnitState.applyTrace_same
    ((w.looked e).stopped.unitOpen (w.globals.readContext context) false (w.env e)).unit context
  refine ⟨⟨hsteady.step h.step, howner⟩, ?_, ?_, hkeeps.active_eq.trans hactive⟩
  · rw [heq]
    show (UnitState.applyTrace _ context).handle ≠ 0
    rw [hsame.handle_eq, hhandle]
    exact advanceHandle_ne _
  · rw [heq]
    show (UnitState.applyTrace _ context).automatic = false
    rw [hsame.automatic_eq, hautomatic]

/-- Its flag, and the period. -/
theorem Opens.period (h : Opens context e w u) (hsteady : Steady w.globals) :
    u.globals.unit.profiling = (decide ((w.looked e).startsProfiler (w.globals.readContext context)) &&
        (w.looked e).arms (w.globals.readContext context) e.timer) ∧
      u.globals.prof.periodNs =
        if (w.looked e).startsProfiler (w.globals.readContext context) then
          if (w.looked e).arms (w.globals.readContext context) e.timer then
            (w.globals.readContext context).periodNs
          else 0
        else w.globals.prof.periodNs := by
  obtain ⟨-, heq⟩ := h.eq (hsteady.detectFork _)
  obtain ⟨hprofiling, hperiod⟩ :=
    unitOpen_period (w.looked e).stopped (w.globals.readContext context) false (w.env e)
  have hsame := UnitState.applyTrace_same
    ((w.looked e).stopped.unitOpen (w.globals.readContext context) false (w.env e)).unit context
  have hkept : (w.looked e).stopped.prof.periodNs = w.globals.prof.periodNs :=
    (Profiler.State.stop_periodNs _).trans (looked_keeps w e).2
  rw [stopped_arms, hkept] at hperiod
  rw [stopped_arms] at hprofiling
  simp only [stopped_starts] at hprofiling hperiod
  rw [heq]
  exact ⟨hsame.profiling_eq.trans hprofiling, hperiod⟩

/-- Nothing tells the units apart, if the timer can be armed in both or in neither. -/
theorem Opens.twin {start : Globals} (hpast : Past True start w) (hpast' : Past True start w') (hsettled : start.prof.Settled)
    (hperiod : w'.globals.periodUs = w.globals.periodUs) (hdepth : w'.globals.maxDepth = w.globals.maxDepth)
    (h : Opens context e w u) (h' : Opens context e' w' u')
    (harm : (w.looked e).startsProfiler (w.globals.readContext context) →
      (w'.looked e').arms (w.globals.readContext context) e'.timer =
        (w.looked e).arms (w.globals.readContext context) e.timer) :
    Twin False False w.calls.length w'.calls.length u u' := by
  have hlooked : Steady (w.looked e) := hpast.steady.detectFork _
  have hlooked' : Steady (w'.looked e') := hpast'.steady.detectFork _
  have hstays : Stays True start (w.looked e).stopped := (hpast.stays.trans (stays_detectFork _ _)).trans (stays_stop _)
  have hstays' : Stays True start (w'.looked e').stopped :=
    (hpast'.stays.trans (stays_detectFork _ _)).trans (stays_stop _)
  -- Both profilers have been stopped, and have the room they were set up with.
  have hrest := hstays.atRest hstays' hlooked.stop hlooked'.stop hsettled (Profiler.State.stop_running _)
    (Profiler.State.stop_running _)
  have hsettings : (w'.looked e').stopped.settings = (w.looked e).stopped.settings := by
    show (w'.looked e').settings = (w.looked e).settings
    rw [(looked_keeps w e).1, (looked_keeps w' e').1]
    exact hpast.stays.settings_eq hpast'.stays hperiod hdepth
  have hread : w'.globals.readContext context = w.globals.readContext context := by
    unfold Globals.readContext
    rw [hperiod, hdepth]
  have halike := @Globals.AtRest.alike_unitOpen False False (w.looked e).stopped (w'.looked e').stopped (w.env e)
    (w'.env e') hrest hsettings (w.globals.readContext context) false ⟨nofun, nofun⟩ nofun nofun fun hstarts => by
      rw [stopped_arms, stopped_arms]
      exact harm ((stopped_starts _ _).mp hstarts)
  have hknown := (h.fresh_unit hpast.steady).known
  have hknown' := (h'.fresh_unit hpast'.steady).known
  obtain ⟨-, rfl⟩ := h.eq hlooked
  obtain ⟨-, rfl⟩ := h'.eq hlooked'
  rw [hread] at hknown' ⊢
  refine ⟨⟨halike.settings, halike.unit.applyTrace context, halike.ops, halike.prof, fun hon => ?_, nofun⟩,
    hknown, hknown', ⟨0, rfl, rfl⟩, fun i => ?_⟩
  · have hon : (UnitState.applyTrace _ context).profiling = true := hon
    rw [(UnitState.applyTrace_same _ context).profiling_eq] at hon
    exact halike.period hon
  · show Option.Rel _ w.calls[w.calls.length + i]? w'.calls[w'.calls.length + i]?
    rw [List.getElem?_eq_none (Nat.le_add_right _ _), List.getElem?_eq_none (Nat.le_add_right _ _)]
    exact .none

/-! ## The result -/

/-- Both finishes have a result, and the same one but for the clock, the collector and the counters of the
process. -/
def SameReport (r r' : Option FinishResult) : Prop :=
  ∃ x x', r = some x ∧ r' = some x' ∧ x'.withoutTotals.unclocked = x.withoutTotals.unclocked

/-- The end of a unit that is named, or not named at all. -/
theorem StaysOpen.finish (h : StaysOpen u v) (hfresh : Fresh u) {handle : Int}
    (hhandle : handle = 0 ∨ handle = u.globals.unit.handle.toNat) (p s : Bool) (f : CallEnv) :
    (v.globals.finish handle p s (v.env f)).1 =
      some ({ v.globals with ownerPid := v.pid }.stopped.result p s (v.env f)) := by
  have hopen : ¬ (!v.globals.active || decide (v.globals.unit.handle = 0)) = true := by
    rw [h.unit_eq, h.active_eq, hfresh.active, decide_eq_false hfresh.isOpen]
    exact nofun
  have hnamed : ¬ (handle ≠ 0 ∧ (v.globals.unit.handle.toNat : Int) ≠ handle) := by
    rw [h.unit_eq]
    rintro ⟨hnonzero, hother⟩
    exact hother (hhandle.resolve_left hnonzero).symm
  unfold Globals.finish
  rw [h.known.onRecord.detectFork_eq]
  unfold Globals.finishUnit
  rw [if_neg hopen, if_neg hnamed]
  rfl

/-- Two workers that cannot be told apart give the same report if they have the same period. -/
theorem Twin.report_iff {n n' : Nat} (h : Twin False False n n' v v') (p s : Bool) (f f' : CallEnv) :
    SameReport (some ({ v.globals with ownerPid := v.pid }.stopped.result p s (v.env f)))
        (some ({ v'.globals with ownerPid := v'.pid }.stopped.result p s (v'.env f'))) ↔
      v'.globals.prof.periodNs = v.globals.prof.periodNs := by
  have halike : Globals.Alike False False { v.globals with ownerPid := v.pid }.stopped
      { v'.globals with ownerPid := v'.pid }.stopped := by
    refine ⟨h.alike.settings, h.alike.unit, h.alike.ops, h.alike.prof.stop, fun hon => ?_, h.alike.gc⟩
    show v'.globals.prof.stop.periodNs = v.globals.prof.stop.periodNs
    rw [Profiler.State.stop_periodNs, Profiler.State.stop_periodNs]
    exact h.alike.period hon
  -- The period is all that the two results can differ in.
  have hresult := halike.result_unclocked h.known.steady.stop.sound p s (v.env f) (v'.env f')
  have hkept : ∀ w : Worker, ({ w.globals with ownerPid := w.pid } : Globals).stopped.prof.periodNs =
      w.globals.prof.periodNs := fun w => Profiler.State.stop_periodNs _
  rw [hkept] at hresult
  generalize hx : ({ v.globals with ownerPid := v.pid } : Globals).stopped.result p s (v.env f) = x at hresult
  generalize ({ v'.globals with ownerPid := v'.pid } : Globals).stopped.result p s (v'.env f') = x' at hresult
  have hperiod : x.withoutTotals.unclocked.counters.periodNs = v.globals.prof.periodNs := by
    rw [← hx]
    exact hkept v
  constructor
  · rintro ⟨_, _, ⟨⟩, ⟨⟩, hsame⟩
    rw [hsame] at hresult
    rw [← hperiod, hresult]
    rfl
  · intro hsame
    refine ⟨x, x', rfl, rfl, ?_⟩
    rw [hresult, hsame, ← hperiod]
    rfl

/-- Whether a profiler is started is the same after every past. -/
theorem starts_iff {start : Globals} (hpast : Past True start w) (hpast' : Past True start w') (e e' : CallEnv)
    (request : UnitRequest) : (w'.looked e').startsProfiler request ↔ (w.looked e).startsProfiler request := by
  have hstays : Stays True start (w.looked e) := hpast.stays.trans (stays_detectFork _ _)
  have hstays' : Stays True start (w'.looked e') := hpast'.stays.trans (stays_detectFork _ _)
  unfold Globals.startsProfiler
  rw [show (w'.looked e').profilerEnabled = (w.looked e).profilerEnabled from
      congrArg Settings.profilerEnabled (hstays'.fixed_eq.trans hstays.fixed_eq.symm),
    (hstays.room.symm.trans hstays'.room).ready_eq]

/-- **The same report, whatever came before.** Two histories, a `begin` that opens a unit after each, the same
events, and a finish. The results are the same if and only if the timer can be armed in both or in neither, where
the unit starts a profiler; and where it starts none, if and only if the last start has left the same period. -/
theorem sameReport_iff {ini : Ini} {io : StartupIo} {pid : Int} {as as' : List Action}
    (hrun : Run (Guarded OwnTicks WorkerSteps) (startedWorker ini io pid) as w)
    (hrun' : Run (Guarded OwnTicks WorkerSteps) (startedWorker ini io pid) as' w')
    (hperiod : w'.globals.periodUs = w.globals.periodUs) (hdepth : w'.globals.maxDepth = w.globals.maxDepth)
    (hopens : Opens context e w u) (hopens' : Opens context e' w' u') {ms : List (Move Action Action)}
    (hevents : Run (Guarded (SameEvent w.calls.length w'.calls.length) (ProductSteps WorkerSteps WorkerSteps))
      (u, u') ms (v, v')) {handle handle' : Int} (hhandle : handle = 0 ∨ handle = u.globals.unit.handle.toNat)
    (hhandle' : handle' = 0 ∨ handle' = u'.globals.unit.handle.toNat) (p s : Bool) (f f' : CallEnv) :
    SameReport (v.globals.finish handle p s (v.env f)).1 (v'.globals.finish handle' p s (v'.env f')).1 ↔
      if (w.looked e).startsProfiler (w.globals.readContext context) then
        (w'.looked e').arms (w.globals.readContext context) e'.timer =
          (w.looked e).arms (w.globals.readContext context) e.timer
      else w'.globals.prof.periodNs = w.globals.prof.periodNs := by
  have hpast := past_of_run hrun
  have hpast' := past_of_run hrun'
  have hfresh := hopens.fresh_unit hpast.steady
  have hfresh' := hopens'.fresh_unit hpast'.steady
  obtain ⟨hstays, hstays'⟩ := bothOpen_of_run hfresh.known hfresh'.known hfresh.isOpen hfresh'.isOpen hevents
  rw [hstays.finish hfresh hhandle, hstays'.finish hfresh' hhandle']
  obtain ⟨hprofiling, hleft⟩ := hopens.period hpast.steady
  obtain ⟨hprofiling', hright⟩ := hopens'.period hpast'.steady
  have hread : w'.globals.readContext context = w.globals.readContext context := by
    unfold Globals.readContext
    rw [hperiod, hdepth]
  rw [hread] at hprofiling' hright
  simp only [starts_iff hpast hpast' e e'] at hprofiling' hright
  have htwin := fun harm => twin_of_run
    (hopens.twin hpast hpast' (settled_minit ini io pid) hperiod hdepth hopens' harm) hfresh.isOpen
    hfresh.automatic_eq hevents
  split
  -- A profiler was wanted: the timers decide, and both reports have its period or none.
  · next hstarts =>
    simp only [hstarts, if_true, decide_true, Bool.true_and] at hprofiling hprofiling' hleft hright
    constructor
    · -- The flag of the unit says whether the timer was armed.
      rintro ⟨_, _, ⟨⟩, ⟨⟩, hsame⟩
      have hflag : v'.globals.unit.profiling = v.globals.unit.profiling := congrArg FinishResult.profiling hsame
      rw [hstays.unit_eq, hstays'.unit_eq, hprofiling, hprofiling'] at hflag
      exact hflag
    · intro harm
      refine (Twin.report_iff (htwin fun _ => harm) p s f f').mpr ?_
      rw [hstays.periodNs_eq, hstays'.periodNs_eq, hleft, hright, harm]
  -- None was wanted: each report has the period that the units before it left.
  · next hstarts =>
    rw [if_neg hstarts] at hleft hright
    rw [Twin.report_iff (htwin fun hyes => absurd hyes hstarts) p s f f', hstays.periodNs_eq,
      hstays'.periodNs_eq, hleft, hright]

end

/-- Settings with which only `begin` opens a unit. -/
def manualIni : Ini := { autoIni with autoStart := false }

/-- A request in which nothing has happened. -/
def freshRequest : List Action := [.rinit none (callAt 1)]

/-- A request in which there has been a unit with a profile. -/
def usedRequest : List Action :=
  freshRequest ++ [.begin none (callAt 2), .finish 0 true true (callAt 3)]

/-- The context of a unit without a profile. -/
def unprofiled : Option Context := some [(ascii "profile", .bool false)]

/-- The worker after actions that cannot fail. -/
def Worker.after (w : Worker) : List Action → Worker
  | [] => w
  | a :: as => ((w.step a).getD w).after as

/-- The run whose steps are all accepted. -/
theorem run_total {ok : Worker → Action → Prop} {as : List Action}
    (hall : ∀ a ∈ as, ∀ w, ok w a ∧ (w.step a).isSome = true) (w : Worker) :
    Run (Guarded ok WorkerSteps) w as (w.after as) := by
  induction as generalizing w with
  | nil => exact .nil w
  | cons a as ih =>
    obtain ⟨hok, hsome⟩ := hall a List.mem_cons_self w
    obtain ⟨v, hv⟩ := Option.isSome_iff_exists.mp hsome
    have hafter : w.after (a :: as) = v.after as := by rw [Worker.after, hv, Option.getD_some]
    rw [hafter]
    exact .cons ⟨hok, hv⟩ (ih (fun b hb => hall b (List.mem_cons_of_mem a hb)) v)

/-- The worker that has profiled nothing runs so. -/
theorem run_freshRequest : Run (Guarded OwnTicks WorkerSteps) (startedWorker manualIni plainStartup 100) freshRequest
    ((startedWorker manualIni plainStartup 100).after freshRequest) := by
  refine run_total (fun a ha w => ?_) _
  obtain rfl := List.mem_singleton.mp ha
  exact ⟨trivial, rfl⟩

/-- And the one that has. -/
theorem run_usedRequest : Run (Guarded OwnTicks WorkerSteps) (startedWorker manualIni plainStartup 100) usedRequest
    ((startedWorker manualIni plainStartup 100).after usedRequest) := by
  refine run_total (fun a ha w => ?_) _
  simp only [usedRequest, freshRequest, List.cons_append, List.nil_append, List.mem_cons, List.not_mem_nil,
    or_false] at ha
  obtain rfl | rfl | rfl := ha <;> exact ⟨trivial, rfl⟩

/-- The worker in which `begin` has opened a unit. -/
def Worker.begun (w : Worker) (context : Option Context) (e : CallEnv) : Worker :=
  w.withGlobals (w.globals.begin context (w.env e)).2

/-- The unit before had a profile with a period of 1000 microseconds, and the unit without one reports it. -/
theorem period_bleeds :
    let used := (startedWorker manualIni plainStartup 100).after usedRequest
    let new := (startedWorker manualIni plainStartup 100).after freshRequest
    let e := callAt ⟨4, by decide⟩
    Run (Guarded OwnTicks WorkerSteps) (startedWorker manualIni plainStartup 100) usedRequest used ∧
      Run (Guarded OwnTicks WorkerSteps) (startedWorker manualIni plainStartup 100) freshRequest new ∧
      Opens unprofiled e used (used.begun unprofiled e) ∧ Opens unprofiled e new (new.begun unprofiled e) ∧
      ¬ SameReport ((used.begun unprofiled e).globals.finish 0 true true (used.env e)).1
        ((new.begun unprofiled e).globals.finish 0 true true (new.env e)).1 := by
  intro used new e
  -- The old worker reports the period of the unit before, the new one reports none.
  obtain ⟨hused, haccepted, hfresh, hnew, haccepted', hfresh'⟩ :
      ((used.begun unprofiled e).globals.finish 0 true true (used.env e)).1.map
          (fun r => r.counters.periodNs) = some 1000000 ∧
        (used.globals.begin unprofiled (used.env e)).1 ≠ 0 ∧ (used.looked e).adoptable = false ∧
        ((new.begun unprofiled e).globals.finish 0 true true (new.env e)).1.map
          (fun r => r.counters.periodNs) = some 0 ∧
        (new.globals.begin unprofiled (new.env e)).1 ≠ 0 ∧ (new.looked e).adoptable = false := by
    decide +kernel
  refine ⟨run_usedRequest, run_freshRequest, ⟨rfl, haccepted, hfresh⟩, ⟨rfl, haccepted', hfresh'⟩, ?_⟩
  rintro ⟨x, x', hx, hx', hsame⟩
  rw [hx] at hused
  rw [hx'] at hnew
  have hperiod : x'.withoutTotals.unclocked.counters.periodNs = x.withoutTotals.unclocked.counters.periodNs := by
    rw [hsame]
  have hleft : x.withoutTotals.unclocked.counters.periodNs = 1000000 := Option.some.inj hused
  have hright : x'.withoutTotals.unclocked.counters.periodNs = 0 := Option.some.inj hnew
  rw [hleft, hright] at hperiod
  cases hperiod

/-- A unit with a profile, and an operation in it, after the same two pasts. -/
theorem sameReport_iff_profiled :
    let used := (startedWorker manualIni plainStartup 100).after usedRequest
    let new := (startedWorker manualIni plainStartup 100).after freshRequest
    let e := callAt ⟨4, by decide⟩
    ∃ v v', Run (Guarded (SameEvent used.calls.length new.calls.length) (ProductSteps WorkerSteps WorkerSteps))
        (used.begun none e, new.begun none e) [.both (.opBegin .curlExec 7) (.opBegin .curlExec 9)] (v, v') ∧
      SameReport (v.globals.finish 0 true true (v.env e)).1 (v'.globals.finish 0 true true (v'.env e)).1 := by
  intro used new e
  have hmove : ∃ v v', Guarded (SameEvent used.calls.length new.calls.length) (ProductSteps WorkerSteps WorkerSteps)
      (used.begun none e, new.begun none e) (.both (.opBegin .curlExec 7) (.opBegin .curlExec 9)) (v, v') :=
    ⟨_, _, .opBegin .curlExec 7 9, .both rfl rfl⟩
  obtain ⟨v, v', hmove⟩ := hmove
  have hevents := Run.single hmove
  obtain ⟨haccepted, hfresh, haccepted', hfresh', hperiod, hdepth, hstarts, harm⟩ :
      (used.globals.begin none (used.env e)).1 ≠ 0 ∧ (used.looked e).adoptable = false ∧
        (new.globals.begin none (new.env e)).1 ≠ 0 ∧ (new.looked e).adoptable = false ∧
        new.globals.periodUs = used.globals.periodUs ∧ new.globals.maxDepth = used.globals.maxDepth ∧
        (used.looked e).startsProfiler (used.globals.readContext none) ∧
        (new.looked e).arms (used.globals.readContext none) e.timer =
          (used.looked e).arms (used.globals.readContext none) e.timer := by
    decide +kernel
  refine ⟨v, v', hevents, (sameReport_iff run_usedRequest run_freshRequest hperiod hdepth ⟨rfl, haccepted, hfresh⟩
    ⟨rfl, haccepted', hfresh'⟩ hevents (.inl rfl) (.inl rfl) true true e e).mpr ?_⟩
  rw [if_pos hstarts]
  exact harm

end CboxTelemetry.Extension
