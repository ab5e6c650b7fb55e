import CboxTelemetry.Extension.Bleed
import CboxTelemetry.Extension.TwinCalls

/-!
# A forked child

The child of a process with a past is compared with the child of a process that has only been started. As soon as
either looks for a fork they cannot be told apart (`Unnoticed.twin`), so whatever a unit of the child reports has
happened in the child, after its first call (`isolated_of_run`). What is left of the parent are its calls that are
still running: their ends are of no unit, unless as many units have been opened in between as there are
generations.
-/

namespace CboxTelemetry.Extension

open Profiler (Instant Stack TimerIo)
open Profiler.State (SameRoom)

/-! ## Before the first call -/

/-- The process is all that module startup knows of where it runs. -/
theorem minit_pid (ini : Ini) (io : StartupIo) (pid pid' : Int) :
    (Globals.minit ini io pid').fixed = (Globals.minit ini io pid).fixed ∧
      (Globals.minit ini io pid').prof = (Globals.minit ini io pid).prof ∧
      (Globals.minit ini io pid').active = (Globals.minit ini io pid).active := by
  unfold Globals.minit
  simp only
  split
  · exact ⟨rfl, rfl, rfl⟩
  · split
    · exact ⟨rfl, rfl, rfl⟩
    · exact ⟨rfl, rfl, rfl⟩

section
variable {w w' : Worker} {a : Action}

/-- The look for a fork, in an extension that is not active. -/
theorem detectFork_inactive {g : Globals} (hno : g.active = false) (env : CallEnv) :
    g.detectFork env = { g with ownerPid := env.pid } := by
  unfold Globals.detectFork
  split
  · next howner => rw [← howner]
  · rw [hno]
    rfl

/-- A worker that never started up finishes nothing. -/
theorem finish_inactive {g : Globals} (hno : g.active = false) (handle : Int) (p s : Bool) (env : CallEnv) :
    (g.finish handle p s env).1 = none := by
  unfold Globals.finish Globals.finishUnit
  rw [detectFork_inactive hno]
  simp only [hno, Bool.not_false, Bool.true_or, if_true]

/-- An extension that is not active opens no unit. -/
theorem closed_step (h : w.globals.active = false → w.globals.unit.handle = 0) (hstep : WorkerSteps w a w') :
    w'.globals.active = false → w'.globals.unit.handle = 0 := by
  -- It stays without a unit: `begin` refuses, `PHP_RINIT` opens nothing, and the rest leave the unit alone.
  intro hno
  rw [(keepsRecording_step hstep).active_eq] at hno
  have hclosed := h hno
  have hlooked : ∀ e : CallEnv, (w.globals.detectFork (w.env e)).unit.handle = 0 := fun e => by
    rw [detectFork_inactive hno]
    exact hclosed
  cases a with
  | rinit sapi e =>
    cases hstep
    show (w.globals.rinit sapi (w.env e)).unit.handle = 0
    have hinactive : (w.globals.detectFork (w.env e)).active = false := by
      rw [detectFork_inactive hno]
      exact hno
    rw [Globals.rinit_eq]
    unfold Globals.startRequest
    simp only [hinactive, Bool.false_and, Bool.false_eq_true, if_false]
    exact hlooked e
  | rshutdown =>
    cases hstep
    show w.globals.rshutdown.unit.handle = 0
    unfold Globals.rshutdown
    rw [if_neg (not_not.mpr hclosed)]
    exact hclosed
  | begin context e =>
    cases hstep
    show (w.globals.begin context (w.env e)).2.unit.handle = 0
    unfold Globals.begin
    rw [hno]
    exact hclosed
  | finish handle p s e =>
    cases hstep
    show (w.globals.finish handle p s (w.env e)).2.unit.handle = 0
    rw [finish_none (finish_inactive hno handle p s (w.env e))]
    exact hlooked e
  | status e =>
    cases hstep
    exact hlooked e
  | opBegin type now =>
    cases hstep
    show (w.globals.noteOpBegin type now).2.unit.handle = 0
    rw [(noteOpBegin_keeps w.globals type now).1]
    exact hclosed
  | opEnd call now =>
    simp only [WorkerSteps, Worker.step] at hstep
    split at hstep
    · next t _ =>
      cases hstep
      show (w.globals.noteOpEnd t now).unit.handle = 0
      rw [(noteOpEnd_eq w.globals t now).1]
      exact hclosed
    · cases hstep
  | interrupt stack between now =>
    simp only [WorkerSteps, Worker.step] at hstep
    split at hstep <;> cases hstep
    exact hclosed
  | iniSet _ _ | tick _ | fork _ =>
    cases hstep
    exact hclosed

/-! ## A child that has not looked yet -/

/-- What does not look for a fork. -/
def BeforeLook (_ : Worker) : Action → Prop
  | .opBegin _ _ | .opEnd _ _ | .tick _ | .interrupt _ _ _ | .iniSet _ _ | .rshutdown => True
  | _ => False

/-- A process that is not the one on record, with a past. -/
structure Unnoticed (start : Globals) (w : Worker) : Prop where
  past : Past False start w
  closed : w.globals.active = false → w.globals.unit.handle = 0
  other : w.pid ≠ w.globals.ownerPid

/-- A process stays off the record as long as it does not look. -/
theorem Unnoticed.step {start : Globals} (h : Unnoticed start w) (hstep : Guarded BeforeLook WorkerSteps w a w') :
    Unnoticed start w' := by
  obtain ⟨hbefore, hstep⟩ := hstep
  have hanew : ForkedAnew w a := by
    cases a with
    | fork child => exact absurd hbefore id
    | _ => trivial
  -- Every call that would record the process looks first, and so is none of these.
  have hrecord : w'.pid = w.pid ∧ w'.globals.ownerPid = w.globals.ownerPid := by
    cases a with
    | rshutdown =>
      cases hstep
      exact ⟨rfl, (keeps_rshutdown w.globals).ownerPid_eq⟩
    | opBegin type now =>
      cases hstep
      exact ⟨rfl, (keeps_noteOpBegin w.globals type now).ownerPid_eq⟩
    | opEnd call now =>
      simp only [WorkerSteps, Worker.step] at hstep
      split at hstep
      · next t _ =>
        cases hstep
        exact ⟨rfl, (keeps_noteOpEnd w.globals t now).ownerPid_eq⟩
      · cases hstep
    | interrupt stack between now =>
      simp only [WorkerSteps, Worker.step] at hstep
      split at hstep <;> cases hstep
      exact ⟨rfl, rfl⟩
    | iniSet _ _ | tick _ =>
      cases hstep
      exact ⟨rfl, rfl⟩
    | rinit _ _ | begin _ _ | finish _ _ _ _ | status _ | fork _ => exact absurd hbefore id
  refine ⟨h.past.step hanew False.elim hstep, closed_step h.closed hstep, ?_⟩
  rw [hrecord.1, hrecord.2]
  exact h.other

/-- A worker that never started up has no unit open after any run. -/
theorem closed_of_run {ini : Ini} {io : StartupIo} {pid : Int} {as : List Action}
    (hrun : Run WorkerSteps (startedWorker ini io pid) as w) :
    w.globals.active = false → w.globals.unit.handle = 0 := by
  have hstart : (startedWorker ini io pid).globals.unit.handle = 0 :=
    congrArg UnitState.handle (booted_minit ini io pid).unit_eq
  exact @Run.invariant _ _ _ _ _ _ (fun w : Worker => w.globals.active = false → w.globals.unit.handle = 0)
    (fun _ _ _ h hs => closed_step h hs) (fun _ => hstart) hrun

/-- A child, after whatever comes before its first call. -/
theorem unnoticed_of_fork {ini : Ini} {io : StartupIo} {pid child : Int} {as bs : List Action} {c d : Worker}
    (hrun : Run (Guarded ForkedAnew WorkerSteps) (startedWorker ini io pid) as w)
    (hchild : child ≠ w.globals.ownerPid) (hfork : WorkerSteps w (.fork child) c)
    (hbefore : Run (Guarded BeforeLook WorkerSteps) c bs d) : Unnoticed (Globals.minit ini io pid) d := by
  have hclosed := closed_step (closed_of_run hrun.of_guarded) hfork
  have hpast := (past_of_forks hrun).step (a := .fork child) hchild nofun hfork
  have hother : c.pid ≠ c.globals.ownerPid := by
    cases hfork
    exact hchild
  exact Run.invariant (fun _ _ _ h hs => h.step hs) ⟨hpast, hclosed, hother⟩ hbefore

/-- The child's kernel has no timer, whatever its flags say. -/
theorem Unnoticed.kernel_none {start : Globals} (h : Unnoticed start w) : w.globals.prof.timer.kernel = .none := by
  cases hactive : w.globals.active with
  | true => exact h.past.timer.forked hactive h.other
  | false => exact (h.past.timer.inactive hactive).2

/-- The profiler is stopped: by an interrupt behind the deadline, or at the end of the request. -/
def Action.isStop : Action → Bool
  | .interrupt _ _ _ | .rshutdown => true
  | _ => false

/-- **Before the look**, a step leaves the inherited timer alone or disarms it. -/
theorem Unnoticed.timer_step {start : Globals} (h : Unnoticed start w)
    (hstep : Guarded BeforeLook WorkerSteps w a w') :
    w'.globals.prof.timer = w.globals.prof.timer ∨
      a.isStop = true ∧ w'.globals.prof.timer = w.globals.prof.timer.disarm := by
  obtain ⟨hbefore, hstep⟩ := hstep
  cases a with
  | rshutdown =>
    cases hstep
    -- `PHP_RSHUTDOWN` does not look for a fork, and stops the profiler of a unit that is open.
    show w.globals.rshutdown.prof.timer = _ ∨ _ ∧ w.globals.rshutdown.prof.timer = _
    unfold Globals.rshutdown
    split
    · show w.globals.prof.stop.reset.timer = _ ∨ _ ∧ w.globals.prof.stop.reset.timer = _
      rw [Profiler.State.reset_timer]
      exact (stop_timer w.globals.prof).imp id fun hdisarmed => ⟨rfl, hdisarmed⟩
    · exact .inl rfl
  | interrupt stack between now =>
    simp only [WorkerSteps, Worker.step] at hstep
    split at hstep
    · next prof hinterrupt =>
      cases hstep
      exact (h.past.steady.sound.interrupt hinterrupt).timer.imp id fun hdisarmed => ⟨rfl, hdisarmed⟩
    · cases hstep
  | opBegin type now =>
    cases hstep
    left
    show (w.globals.noteOpBegin type now).2.prof.timer = w.globals.prof.timer
    rw [Globals.noteOpBegin_frame]
  | opEnd call now =>
    simp only [WorkerSteps, Worker.step] at hstep
    split at hstep
    · next token _ =>
      cases hstep
      left
      show (w.globals.noteOpEnd token now).prof.timer = w.globals.prof.timer
      rw [Globals.noteOpEnd_frame]
    · cases hstep
  | iniSet _ _ | tick _ =>
    cases hstep
    exact .inl rfl
  | rinit _ _ | begin _ _ | finish _ _ _ _ | status _ | fork _ => exact absurd hbefore id

end

/-! ## The first look -/

/-- The worker when a call has looked for a fork. -/
def Worker.look (w : Worker) (e : CallEnv) : Worker := w.withGlobals (w.looked e)

section
variable {start start' : Globals} {d d' : Worker}

/-- The look finds another process in the record, and repairs. -/
theorem Unnoticed.looked_eq (h : Unnoticed start d) (hactive : d.globals.active = true) (e : CallEnv) :
    d.looked e = d.globals.repair (d.env e) := by
  have hother : ¬ d.globals.ownerPid = (d.env e).pid := Ne.symm h.other
  unfold Worker.looked Globals.detectFork
  rw [if_neg hother, hactive]
  rfl

/-- The child that has looked is on record. -/
theorem Unnoticed.known (h : Unnoticed start d) (e : CallEnv) : Known (d.look e) :=
  ⟨h.past.steady.detectFork _, fun _ => detectFork_ownerPid d.globals (d.env e)⟩

/-- The first look leaves no unit. -/
theorem Unnoticed.looked_closed (h : Unnoticed start d) (e : CallEnv) : (d.looked e).unit.handle = 0 := by
  cases hactive : d.globals.active with
  | true =>
    rw [h.looked_eq hactive]
    rfl
  | false =>
    unfold Worker.looked
    rw [detectFork_inactive hactive]
    exact h.closed hactive

/-- What the parent's timer was is gone. -/
theorem Unnoticed.looked_timer (h : Unnoticed start d) (e : CallEnv) :
    (d.looked e).prof.timer = ⟨false, start.prof.timer.installed, false, .none⟩ := by
  have hflags : ∀ t : Profiler.Timer, t.created = false → t.installed = start.prof.timer.installed →
      t.isArmed = false → t.kernel = .none → t = ⟨false, start.prof.timer.installed, false, .none⟩ := by
    rintro ⟨created, installed, isArmed, kernel⟩ rfl rfl rfl rfl
    rfl
  have hinstalled : (d.looked e).prof.timer.installed = start.prof.timer.installed :=
    (h.past.stays.trans (@stays_detectFork False d.globals (d.env e))).installed_eq
  -- An active worker is repaired at the look. One that never started up has a timer that was never created.
  cases hactive : d.globals.active with
  | true =>
    have hkernel := h.kernel_none
    rw [h.looked_eq hactive] at hinstalled ⊢
    refine hflags _ rfl hinstalled rfl ?_
    show d.globals.prof.afterFork.timer.kernel = .none
    have hkept : d.globals.prof.afterFork.timer = d.globals.prof.timer := Profiler.State.reset_timer _
    rw [hkept, hkernel]
  | false =>
    obtain ⟨hsound, hkernel⟩ := h.past.timer.inactive hactive
    unfold Worker.looked at hinstalled ⊢
    rw [detectFork_inactive hactive] at hinstalled ⊢
    refine hflags _ ?_ hinstalled ?_ hkernel
    · rw [← Bool.not_eq_true, hsound.created_iff, hkernel]
      exact not_not.mpr rfl
    · rw [← Bool.not_eq_true, hsound.armed_iff, hkernel]
      exact nofun

/-- Two profilers after the look. -/
theorem alike_afterFork {s s' : Profiler.State} (hroom : SameRoom s s') (hs : s.Sound) (hs' : s'.Sound)
    (timer : Profiler.Timer) : Profiler.State.Alike True { s.afterFork with timer := timer }
      { s'.afterFork with timer := timer } := by
  have hidle : ∀ s : Profiler.State, Profiler.State.Same s
      { s with running := false, pendingTicks := 0, pendingDeliveries := 0 } := fun _ =>
    ⟨rfl, rfl, rfl, rfl, rfl, rfl, rfl, rfl⟩
  have hroom' := ((SameRoom.of_same (hidle s) fun _ => rfl).symm.trans hroom).trans
    (SameRoom.of_same (hidle s') fun _ => rfl)
  obtain ⟨hcore, hframes, htree, hnothing, hlive, -⟩ := @SameRoom.alike_reset _ _ False hroom' (hs.same (hidle s))
    (hs'.same (hidle s')) ⟨rfl, rfl, rfl⟩ nofun nofun
  exact ⟨hcore, hframes, htree, hnothing, hlive, fun _ => rfl⟩

/-- **Two children that have looked cannot be told apart**, whatever pasts their parents had. -/
theorem Unnoticed.twin (h : Unnoticed start d) (h' : Unnoticed start' d') (hfixed : start'.fixed = start.fixed)
    (hprof : start'.prof = start.prof) (hactive : d.globals.active = true)
    (hperiod : d'.globals.periodUs = d.globals.periodUs) (hdepth : d'.globals.maxDepth = d.globals.maxDepth)
    (e : CallEnv) : Twin True True d.calls.length d'.calls.length (d.look e) (d'.look e) := by
  have hstays' : Stays False start d'.globals := (Stays.of_prof hfixed hprof).trans h'.past.stays
  have hsettings := h.past.stays.settings_eq hstays' hperiod hdepth
  have hactive' : d'.globals.active = true := (congrArg Settings.active hsettings).trans hactive
  have htimer := h.looked_timer e
  have htimer' := h'.looked_timer e
  have hknown := h.known e
  have hknown' := h'.known e
  have hroom := alike_afterFork (h.past.stays.room.symm.trans hstays'.room) h.past.steady.sound h'.past.steady.sound
    ⟨false, start.prof.timer.installed, false, .none⟩
  unfold Worker.look at hknown hknown' ⊢
  rw [h.looked_eq hactive] at htimer hknown ⊢
  rw [h'.looked_eq hactive', hprof] at htimer'
  rw [h'.looked_eq hactive'] at hknown' ⊢
  have hrepaired : ∀ {g : Globals} {env : CallEnv} {timer : Profiler.Timer}, (g.repair env).prof.timer = timer →
      (g.repair env).prof = { g.prof.afterFork with timer := timer } := by
    rintro g env _ rfl
    rfl
  -- The repair clears the unit and the operations, and leaves both profilers at rest with the same room.
  have halike : Globals.Alike True True (d.globals.repair (d.env e)) (d'.globals.repair (d'.env e)) := by
    refine ⟨hsettings, UnitState.alike_cleared True, OpState.alike_opsReset _ _, ?_, nofun,
      fun _ hopen => absurd rfl hopen⟩
    rw [hrepaired htimer, hrepaired htimer']
    exact hroom
  refine ⟨halike, hknown, hknown', ⟨0, rfl, rfl⟩, fun i => ?_⟩
  show Option.Rel _ d.calls[d.calls.length + i]? d'.calls[d'.calls.length + i]?
  rw [List.getElem?_eq_none (Nat.le_add_right _ _), List.getElem?_eq_none (Nat.le_add_right _ _)]
  exact .none

end

/-! ## The child's run -/

/-- A step of the child. A call that began before the first `n` of its own ends with a token of another
generation. -/
def InChild (n : Nat) (w : Worker) : Action → Prop
  | .fork _ => False
  | .opEnd call _ => call < n → Stale w call
  | _ => True

/-- A step that does not say which call, or which unit. -/
def Action.isPlain : Action → Bool
  | .opEnd _ _ | .finish _ _ _ _ | .fork _ => false
  | _ => true

/-- What the other child does: the same, with its own names for calls and units. It has none of the calls that
began before the child's own. -/
inductive Answers (n n' : Nat) (p : Worker × Worker) : Move Action Action → Prop
  | plain (a : Action) : a.isPlain = true → Answers n n' p (.both a a)
  | opEnd (i : Nat) (now : UInt64) : Answers n n' p (.both (.opEnd (n + i) now) (.opEnd (n' + i) now))
  | older (call : Nat) (now : UInt64) : call < n → Answers n n' p (.left (.opEnd call now))
  | finish (handle : Int) (ip is : Bool) (e : CallEnv) : Answers n n' p
      (.both (.finish handle ip is e) (.finish (p.1.globals.renamed p.2.globals handle) ip is e))

section
variable {n n' : Nat} {w w' v : Worker} {a : Action}

/-- The child does not fork. -/
theorem InChild.withoutFork {s : Worker × Handles} (h : InChild n w a) : WithoutFork s a := by
  cases a with
  | fork child => exact absurd h id
  | _ => trivial

/-- None of the plain steps forks. -/
theorem withoutFork_of_plain {s : Worker × Handles} (hplain : a.isPlain = true) : WithoutFork s a := by
  cases a with
  | fork child => cases hplain
  | _ => trivial

/-- Both take a step that says neither. -/
theorem Twin.plain (h : Twin True True n n' w w') (hplain : a.isPlain = true) (hstep : WorkerSteps w a v) :
    ∃ v', WorkerSteps w' a v' ∧ Twin True True n n' v v' := by
  have hknown : Known v := h.known.step (s := (w, .empty)) (withoutFork_of_plain hplain) hstep
  -- The other child can take the same step. Only the interrupt has something to show for that.
  have hright : ∃ v', WorkerSteps w' a v' := by
    cases a with
    | opEnd _ _ | finish _ _ _ _ | fork _ => cases hplain
    | interrupt stack between now =>
      obtain ⟨prof, hprof⟩ := h.known'.steady.sound.exists_interrupt stack between now
      refine ⟨w'.withGlobals { w'.globals with prof := prof }, ?_⟩
      simp only [WorkerSteps, Worker.step, hprof]
    | _ => exact ⟨_, rfl⟩
  obtain ⟨v', hstep'⟩ := hright
  have hknown' : Known v' := h.known'.step (s := (w, .empty)) (withoutFork_of_plain hplain) hstep'
  refine ⟨v', hstep', ?_⟩
  cases a with
  | rinit sapi e => exact h.rinit hknown hknown' hstep hstep'
  | rshutdown => exact h.rshutdown hknown hknown' hstep hstep'
  | begin context e => exact h.begin hknown hknown' hstep hstep'
  | status e =>
    cases hstep
    cases hstep'
    exact h.look e e hknown hknown'
  | iniSet periodUs maxDepth => exact h.iniSet hknown hknown' hstep hstep'
  | opBegin type now => exact h.opBegin (fun _ => rfl) hknown hknown' hstep hstep'
  | tick ticks => exact h.tick hknown hknown' hstep hstep'
  | interrupt stack between now => exact h.interrupt (fun _ _ => rfl) hknown hknown' hstep hstep'
  | opEnd _ _ | finish _ _ _ _ | fork _ => cases hplain

/-- **The other child has an answer to every step.** -/
theorem Twin.answer (h : Twin True True n n' w w') (hstep : Guarded (InChild n) WorkerSteps w a v) :
    ∃ m v', m.onLeft = some a ∧
      Guarded (Answers n n') (ProductSteps WorkerSteps WorkerSteps) (w, w') m (v, v') ∧
      Twin True True n n' v v' := by
  obtain ⟨hin, hstep⟩ := hstep
  have hknown : Known v := h.known.step (s := (w, .empty)) hin.withoutFork hstep
  cases hplain : a.isPlain with
  | true =>
    obtain ⟨v', hstep', htwin⟩ := h.plain hplain hstep
    exact ⟨.both a a, v', rfl, ⟨.plain a hplain, .both hstep hstep'⟩, htwin⟩
  | false =>
    cases a with
    -- An older call is ended in this child alone. It counts in no unit of the child.
    | opEnd call now =>
      rcases Nat.lt_or_ge call n with hlt | hge
      · exact ⟨.left (.opEnd call now), w', rfl, ⟨.older call now hlt, .left hstep⟩,
          h.olderLeft hlt (hin hlt) hknown hstep⟩
      · obtain ⟨i, rfl⟩ := Nat.exists_eq_add_of_le hge
        -- The call is running in the other child as well.
        have hrunning : ∃ t', w'.calls[n' + i]? = some (some t') := by
          have hcall := h.calls i
          simp only [WorkerSteps, Worker.step] at hstep
          split at hstep
          · next t htoken =>
            rw [htoken] at hcall
            generalize w'.calls[n' + i]? = c at hcall
            cases hcall with
            | some hpaired =>
              cases hpaired with
              | some hpaired => exact ⟨_, rfl⟩
          · cases hstep
        obtain ⟨t', htoken'⟩ := hrunning
        have hstep' : ∃ v', WorkerSteps w' (.opEnd (n' + i) now) v' := by
          simp only [WorkerSteps, Worker.step, htoken']
          exact ⟨_, rfl⟩
        obtain ⟨v', hstep'⟩ := hstep'
        have hknown' : Known v' := h.known'.step (a := .opEnd (n' + i) now) (s := (w, .empty)) trivial hstep'
        exact ⟨.both (.opEnd (n + i) now) (.opEnd (n' + i) now), v', rfl, ⟨.opEnd i now, .both hstep hstep'⟩,
          h.opEnd (fun _ => rfl) hknown hknown' hstep hstep'⟩
    | finish handle ip is e =>
      have hstep' : ∃ v', WorkerSteps w' (.finish (w.globals.renamed w'.globals handle) ip is e) v' := ⟨_, rfl⟩
      obtain ⟨v', hstep'⟩ := hstep'
      have hknown' : Known v' := h.known'.step (a := .finish (w.globals.renamed w'.globals handle) ip is e)
        (s := (w, .empty)) trivial hstep'
      exact ⟨.both (.finish handle ip is e) (.finish (w.globals.renamed w'.globals handle) ip is e), v', rfl,
        ⟨.finish handle ip is e, .both hstep hstep'⟩, h.finish hknown hknown' hstep hstep'⟩
    | fork child => exact absurd hin id
    | _ => cases hplain

end

/-! ## The theorem -/

/-- The call looks for a fork. -/
def Action.lookEnv : Action → Option CallEnv
  | .rinit _ e | .begin _ e | .finish _ _ _ e | .status e => some e
  | _ => none

/-- The child of a process that has only been started. -/
def newborn (ini : Ini) (io : StartupIo) (parent child periodUs maxDepth : Int) : Worker where
  pid := child
  globals := { Globals.minit ini io parent with
    prof := { (Globals.minit ini io parent).prof with timer := (Globals.minit ini io parent).prof.timer.fork }
    periodUs := periodUs
    maxDepth := maxDepth }
  calls := []

/-- What a child that has not looked for the fork does with the inherited timer, what it finds out when it looks, and
what it reports from then on. `timer_settime` on the inherited handle arms nothing and has nothing to disarm, as the
kernel has no timer of the child's. -/
structure Isolated (ini : Ini) (io : StartupIo) (d : Worker) : Prop where
  inherited : d.globals.prof.timer.kernel = .none ∧ ∀ a d', Guarded BeforeLook WorkerSteps d a d' →
    d'.globals.prof.timer.kernel = .none ∧ (d'.globals.prof.timer = d.globals.prof.timer ∨
      a.isStop = true ∧ d'.globals.prof.timer = d.globals.prof.timer.disarm)
  observes : ∀ e, (d.looked e).unit.handle = 0 ∧ (d.looked e).prof.running = false ∧ (d.looked e).prof.samples = 0
  status : ∀ e, (d.globals.status (d.env e)).1.unitHandle = 0 ∧
    (d.globals.status (d.env e)).1.profilerRunning = false ∧ (d.globals.status (d.env e)).1.profilerSamples = 0
  begins : ∀ context e, (d.globals.begin context (d.env e)).1 ≠ 0 →
    (d.globals.begin context (d.env e)).1 = Globals.advanceHandle d.globals.nextHandle ∧
      (d.globals.begin context (d.env e)).2.unit.automatic = false
  refused : ∀ handle p s e, (d.globals.finish handle p s (d.env e)).1 = none
  timer : ∀ e, (d.looked e).prof.timer.created = false ∧ (d.looked e).prof.timer.kernel = .none ∧
    ∀ io periodNs, ((d.looked e).prof.timer.arm io periodNs).1 = true → io.create = true
  silent : d.globals.active = false → ∀ cs z, Run (Guarded (InChild d.calls.length) WorkerSteps) d cs z →
    ∀ handle p s f, (z.globals.finish handle p s (z.env f)).1 = none
  reports : d.globals.active = true → ∀ a e cs z, a.lookEnv = some e →
    Run (Guarded (InChild d.calls.length) WorkerSteps) d (a :: cs) z → z.globals.prof.timer.Sound ∧ ∃ ms z',
      ms.filterMap Move.onLeft = a :: cs ∧ Run (Guarded (Answers d.calls.length 0) (ProductSteps WorkerSteps WorkerSteps))
        (d.look e, (newborn ini io d.globals.ownerPid d.pid d.globals.periodUs d.globals.maxDepth).look e) ms (z, z') ∧
      ∀ handle p s f, Globals.SameResult (z.globals.finish handle p s (z.env f)).1
        (z'.globals.finish (z.globals.renamed z'.globals handle) p s (z'.env f)).1

section
variable {start : Globals} {d d₁ z : Worker} {a : Action} {e : CallEnv}

/-- A second look changes nothing. -/
theorem detectFork_detectFork (g : Globals) (env : CallEnv) : (g.detectFork env).detectFork env = g.detectFork env := by
  have hlooked := detectFork_ownerPid g env
  generalize g.detectFork env = g' at hlooked
  unfold Globals.detectFork
  rw [if_pos hlooked]

/-- A call starts with its look. -/
theorem step_look (hactive : d.globals.active = true) (henabled : d.globals.enabled = true)
    (hlooks : a.lookEnv = some e) (hstep : WorkerSteps d a d₁) : WorkerSteps (d.look e) a d₁ := by
  have htwice : (d.look e).globals.detectFork ((d.look e).env e) = d.globals.detectFork (d.env e) :=
    detectFork_detectFork d.globals (d.env e)
  have hsettings := (looked_keeps d e).1
  have hactive' : (d.look e).globals.active = true := (congrArg Settings.active hsettings).trans hactive
  have henabled' : (d.look e).globals.enabled = true := (congrArg Settings.enabled hsettings).trans henabled
  -- Each of these calls looks itself, and after a look its own changes nothing.
  cases a with
  | rinit sapi e' =>
    cases hlooks
    cases hstep
    simp only [WorkerSteps, Worker.step, Globals.rinit_eq]
    rw [htwice]
    rfl
  | begin context e' =>
    cases hlooks
    cases hstep
    simp only [WorkerSteps, Worker.step, Globals.begin, hactive, henabled, hactive', henabled', Bool.not_true,
      Bool.or_self, Bool.false_eq_true, if_false]
    rw [htwice]
    rfl
  | finish handle p s e' =>
    cases hlooks
    cases hstep
    simp only [WorkerSteps, Worker.step, Globals.finish]
    rw [htwice]
    rfl
  | status e' =>
    cases hlooks
    cases hstep
    simp only [WorkerSteps, Worker.step, Globals.status]
    rw [htwice]
    rfl
  | _ => cases hlooks

/-- The calls that look are steps of a child. -/
theorem inChild_of_looks {n : Nat} {w : Worker} (hlooks : a.lookEnv = some e) : InChild n w a := by
  cases a with
  | opEnd _ _ | fork _ => cases hlooks
  | _ => trivial

/-- A child that does not fork has no timer of its own to find. -/
theorem InChild.forkedAnew {n : Nat} (h : InChild n d a) : ForkedAnew d a := by
  cases a with
  | fork child => exact absurd h id
  | _ => trivial

/-- The timer of a child is its own. -/
theorem timerOwned_of_child {n : Nat} {cs : List Action} (h : TimerOwned d) (hs : Steady d.globals)
    (hrun : Run (Guarded (InChild n) WorkerSteps) d cs z) : TimerOwned z :=
  (@Run.invariant _ _ _ _ _ _ (fun w => TimerOwned w ∧ Steady w.globals)
    (fun _ _ _ h hs => ⟨h.1.step h.2 hs.1.forkedAnew hs.2, h.2.step hs.2⟩) ⟨h, hs⟩ hrun).1

/-- Nothing of the parent's unit is seen. -/
theorem Unnoticed.observes (h : Unnoticed start d) (e : CallEnv) :
    (d.looked e).unit.handle = 0 ∧ (d.looked e).prof.running = false ∧ (d.looked e).prof.samples = 0 := by
  have hclosed := h.looked_closed e
  have hsteady : Steady (d.looked e) := h.past.steady.detectFork _
  obtain ⟨hstopped, hempty, -⟩ := hsteady.closed hclosed
  exact ⟨hclosed, hstopped, hempty.samples_eq⟩

/-- The first call of a child finds no unit to finish. -/
theorem Unnoticed.refused (h : Unnoticed start d) (handle : Int) (p s : Bool) (e : CallEnv) :
    (d.globals.finish handle p s (d.env e)).1 = none := by
  have hclosed : (d.globals.detectFork (d.env e)).unit.handle = 0 := h.looked_closed e
  unfold Globals.finish Globals.finishUnit
  rw [if_pos]
  rw [hclosed, decide_eq_true rfl, Bool.or_true]

/-- The first `begin` opens a unit. -/
theorem Unnoticed.begins (h : Unnoticed start d) {context : Option Context}
    (hbegin : (d.globals.begin context (d.env e)).1 ≠ 0) :
    (d.globals.begin context (d.env e)).1 = Globals.advanceHandle d.globals.nextHandle ∧
      (d.globals.begin context (d.env e)).2.unit.automatic = false := by
  obtain hrefused | ⟨hhandle, hbegins⟩ := begin_cases d.globals context (d.env e)
  · rw [hrefused] at hbegin
    exact absurd rfl hbegin
  · rw [hhandle]
    have hnext := (detectFork_unit d.globals (d.env e)).1
    cases hbegins with
    | adopted unit hadoptable _ _ _ _ _ _ =>
      have hclosed : (d.globals.detectFork (d.env e)).unit.handle = 0 := h.looked_closed e
      simp only [Globals.adoptable, hclosed, bne_self_eq_false, Bool.false_and, Bool.false_eq_true] at hadoptable
    | opened unit hunit _ _ hautomatic heq _ =>
      have hsame := unit.applyTrace_same context
      rw [heq, hsame.handle_eq, hsame.automatic_eq, hunit, hnext]
      exact ⟨rfl, hautomatic⟩

/-- Arming the timer makes one first. -/
theorem Unnoticed.creates (h : Unnoticed start d) (e : CallEnv) {io : TimerIo} {periodNs : Nat}
    (harm : ((d.looked e).prof.timer.arm io periodNs).1 = true) : io.create = true := by
  obtain ⟨-, -, hcreate, -⟩ := Profiler.Timer.arm_iff.mp harm
  rw [h.looked_timer e] at hcreate
  exact hcreate

/-- A child of a worker that never started up reports nothing. -/
theorem Unnoticed.silent (hno : d.globals.active = false) {n : Nat} {cs : List Action}
    (hrun : Run (Guarded (InChild n) WorkerSteps) d cs z) (handle : Int) (p s : Bool) (f : CallEnv) :
    (z.globals.finish handle p s (z.env f)).1 = none := by
  have hinactive : z.globals.active = false :=
    @Run.invariant _ _ _ _ _ _ (fun w : Worker => w.globals.active = false)
      (fun _ _ _ h hs => (keepsRecording_step hs.2).active_eq.trans h) hno hrun
  exact finish_inactive hinactive handle p s (z.env f)

end

/-- The other child has not looked either. -/
theorem unnoticed_newborn {ini : Ini} {io : StartupIo} {parent child : Int} (hchild : child ≠ parent)
    (hactive : (Globals.minit ini io parent).active = true) (periodUs maxDepth : Int) :
    Unnoticed (Globals.minit ini io parent) (newborn ini io parent child periodUs maxDepth) := by
  have howner : (startedWorker ini io parent).globals.ownerPid = parent :=
    onRecord_startedWorker ini io parent hactive
  have hother : child ≠ (startedWorker ini io parent).globals.ownerPid := by
    rw [howner]
    exact hchild
  have hset : ∃ c, WorkerSteps (startedWorker ini io parent) (.fork child) c ∧
      Guarded BeforeLook WorkerSteps c (.iniSet periodUs maxDepth) (newborn ini io parent child periodUs maxDepth) :=
    ⟨_, rfl, trivial, rfl⟩
  obtain ⟨c, hfork, hset⟩ := hset
  exact unnoticed_of_fork (.nil _) hother hfork (.single hset)

/-- **What the child reports** is what the other child reports, that has no parent to speak of. -/
theorem Unnoticed.reports {ini : Ini} {io : StartupIo} {pid : Int} {d z : Worker} {a : Action} {e : CallEnv}
    {cs : List Action} (h : Unnoticed (Globals.minit ini io pid) d) (hactive : d.globals.active = true)
    (hlooks : a.lookEnv = some e) (hrun : Run (Guarded (InChild d.calls.length) WorkerSteps) d (a :: cs) z) :
    ∃ ms z', ms.filterMap Move.onLeft = a :: cs ∧
      Run (Guarded (Answers d.calls.length 0) (ProductSteps WorkerSteps WorkerSteps))
        (d.look e, (newborn ini io d.globals.ownerPid d.pid d.globals.periodUs d.globals.maxDepth).look e) ms (z, z') ∧
      Twin True True d.calls.length 0 z z' := by
  obtain ⟨hfixed, hprof, hsame⟩ := minit_pid ini io pid d.globals.ownerPid
  have hstart : (Globals.minit ini io pid).active = true :=
    (congrArg Settings.active h.past.stays.fixed_eq).symm.trans hactive
  have hnewborn := unnoticed_newborn h.other (hsame.trans hstart) d.globals.periodUs d.globals.maxDepth
  have htwin := h.twin hnewborn hfixed hprof hactive rfl rfl e
  have hlooked : Run (Guarded (InChild d.calls.length) WorkerSteps) (d.look e) (a :: cs) z := by
    cases hrun with
    | cons hfirst hrest =>
      exact .cons ⟨inChild_of_looks hlooks, step_look hactive (h.past.timer.enabled hactive) hlooks hfirst.2⟩ hrest
  exact exists_product (fun _ _ _ _ htwin hstep => htwin.answer hstep) htwin hlooked

/-- **Forks.** Whatever the parent has done, and whatever comes before the first call of the child, this call finds
no unit and no profiler; what is finished with the first call is not the parent's unit; what is finished later is
reported as in a child that has no parent to speak of. The inherited timer is never armed: before the first call it
is at most disarmed, and after it one is made anew. No call of the parent's may end in the child with a token that is
as old as there are generations. -/
theorem isolated_of_run {ini : Ini} {io : StartupIo} {pid child : Int} {as bs : List Action} {w c d : Worker}
    (hrun : Run (Guarded ForkedAnew WorkerSteps) (startedWorker ini io pid) as w)
    (hchild : child ≠ w.globals.ownerPid) (hfork : WorkerSteps w (.fork child) c)
    (hbefore : Run (Guarded BeforeLook WorkerSteps) c bs d) : Isolated ini io d := by
  have h := unnoticed_of_fork hrun hchild hfork hbefore
  refine ⟨⟨h.kernel_none, fun a d' hs => ⟨(h.step hs).kernel_none, h.timer_step hs⟩⟩, h.observes, h.observes,
    fun _ _ => h.begins, h.refused, fun e => ?_, fun hno _ _ => Unnoticed.silent hno,
    fun hactive a e cs z hlooks hrun => ?_⟩
  · refine ⟨?_, ?_, fun _ _ => h.creates e⟩
    · rw [h.looked_timer e]
    · rw [h.looked_timer e]
  · obtain ⟨ms, z', hleft, hmoves, htwin⟩ := h.reports hactive hlooks hrun
    have howned := timerOwned_of_child h.past.timer h.past.steady hrun
    have hactive' : z.globals.active = true :=
      @Run.invariant _ _ _ _ _ _ (fun w : Worker => w.globals.active = true)
        (fun _ _ _ h hs => (keepsRecording_step hs.2).active_eq.trans h) hactive hrun
    refine ⟨howned.own hactive' (htwin.known.onRecord hactive').symm, ms, z', hleft, hmoves, fun handle p s f => ?_⟩
    exact htwin.finish_same handle p s f

/-! ## A parent and its child -/

/-- The parent profiles a unit and is in a call. -/
def busyParent : List Action :=
  [.begin none (callAt 2), .opBegin .curlExec 5, .tick 3]

/-- The worker runs so. -/
theorem run_busyParent : Run (Guarded ForkedAnew WorkerSteps) (startedWorker manualIni plainStartup 100) busyParent
    ((startedWorker manualIni plainStartup 100).after busyParent) := by
  refine run_total (fun a ha w => ?_) _
  simp only [busyParent, List.mem_cons, List.not_mem_nil, or_false] at ha
  obtain rfl | rfl | rfl := ha <;> exact ⟨trivial, rfl⟩

/-- The child of a profiling parent ends the call, and is interrupted, before it makes a call of its own. -/
theorem isolated_of_run_busy : ∃ c d,
    WorkerSteps ((startedWorker manualIni plainStartup 100).after busyParent) (.fork 101) c ∧
      Run (Guarded BeforeLook WorkerSteps) c [.opEnd 0 9, .interrupt [] [2] ⟨9, by decide⟩] d ∧
      Isolated manualIni plainStartup d := by
  have hfork : ∃ c, WorkerSteps ((startedWorker manualIni plainStartup 100).after busyParent) (.fork 101) c ∧
      (101 : Int) ≠ ((startedWorker manualIni plainStartup 100).after busyParent).globals.ownerPid ∧
      c.calls = [some ⟨.curlExec, 5, some 0, 1⟩] := ⟨_, rfl, by decide +kernel⟩
  obtain ⟨c, hfork, hchild, hcalls⟩ := hfork
  -- The call that the parent had begun is ended before the first look.
  have hend : ∃ d, WorkerSteps c (.opEnd 0 9) d := by
    simp only [WorkerSteps, Worker.step, hcalls]
    exact ⟨_, rfl⟩
  obtain ⟨c₁, hend⟩ := hend
  have hsteady : Steady c₁.globals :=
    (((past_of_forks run_busyParent).steady.step hfork).step hend)
  obtain ⟨prof, hprof⟩ := hsteady.sound.exists_interrupt [] [2] ⟨9, by decide⟩
  have hinterrupt : ∃ d, WorkerSteps c₁ (.interrupt [] [2] ⟨9, by decide⟩) d := by
    simp only [WorkerSteps, Worker.step, hprof]
    exact ⟨_, rfl⟩
  obtain ⟨d, hinterrupt⟩ := hinterrupt
  have hbefore : Run (Guarded BeforeLook WorkerSteps) c [.opEnd 0 9, .interrupt [] [2] ⟨9, by decide⟩] d :=
    .cons ⟨trivial, hend⟩ (.single ⟨trivial, hinterrupt⟩)
  exact ⟨c, d, hfork, hbefore, isolated_of_run run_busyParent hchild hfork hbefore⟩

section
variable {w : Worker} {context : Option Context}

/-- A unit that is opened has measured nothing. -/
theorem Opens.ops_eq {e : CallEnv} {v : Worker} (h : Opens context e w v) (hsteady : Steady w.globals) :
    v.globals.ops = (w.looked e).ops.opsReset := by
  obtain ⟨-, heq⟩ := h.eq (hsteady.detectFork _)
  rw [heq]
  exact (unitOpened_unitOpen (w.looked e).stopped (w.globals.readContext context) false (w.env e)).ops_eq

/-- Another `begin`. -/
theorem Fresh.again (h : Fresh w) (henabled : w.globals.enabled = true) (context : Option Context) (e : CallEnv) :
    ∃ v, WorkerSteps w (.begin context e) v ∧ Fresh v ∧ v.globals.enabled = true ∧ v.calls = w.calls ∧
      v.globals.ops = w.globals.ops.opsReset := by
  have hlooked := h.known.onRecord.detectFork_eq e
  have haccepted : (w.globals.begin context (w.env e)).1 ≠ 0 := by
    -- The new unit adopts nothing, since the one open was begun by the application.
    unfold Globals.begin
    rw [h.active, henabled]
    exact (begins_beginUnit (w.globals.detectFork (w.env e)) context (w.env e)).unit.1
  have hadoptable : (w.looked e).adoptable = false := by
    unfold Worker.looked Globals.adoptable
    rw [hlooked]
    show (_ && w.globals.unit.automatic && _) = false
    rw [h.automatic_eq, Bool.and_false, Bool.false_and]
  have hopens : Opens context e w (w.begun context e) := ⟨rfl, haccepted, hadoptable⟩
  obtain ⟨-, heq⟩ := hopens.eq (h.known.steady.detectFork _)
  have hkeeps := keeps_unitOpen (w.looked e).stopped (w.globals.readContext context) false (w.env e)
  refine ⟨w.begun context e, rfl, hopens.fresh_unit h.known.steady, ?_, rfl, ?_⟩
  · rw [heq]
    exact (hkeeps.enabled_eq.trans (congrArg Settings.enabled (looked_keeps w e).1)).trans henabled
  · rw [hopens.ops_eq h.known.steady]
    unfold Worker.looked
    rw [hlooked]

/-- Many of them. -/
theorem Fresh.many (h : Fresh w) (henabled : w.globals.enabled = true)
    (hzero : ∀ type, w.globals.ops.agg type = .zero) (e : CallEnv) (k : Nat) :
    ∃ as v, (∀ a ∈ as, a = .begin none e) ∧ Run WorkerSteps w as v ∧ Fresh v ∧ v.calls = w.calls ∧
      (∀ type, v.globals.ops.agg type = .zero) ∧ v.globals.ops.generation = w.globals.ops.generation + .ofNat k := by
  induction k generalizing w with
  | zero => exact ⟨[], w, nofun, .nil w, h, rfl, hzero, (UInt32.add_zero _).symm⟩
  | succ k ih =>
    obtain ⟨u, hstep, hfresh, henabled', hcalls, hops⟩ := h.again henabled none e
    obtain ⟨as, v, has, hrun, hfresh', hcalls', hzero', hgeneration⟩ :=
      ih hfresh henabled' fun _ => by rw [hops]; rfl
    refine ⟨.begin none e :: as, v, ?_, .cons hstep hrun, hfresh', hcalls'.trans hcalls, hzero', ?_⟩
    · rintro a (_ | ⟨_, ha⟩)
      · rfl
      · exact has a ha
    · rw [hgeneration, hops, OpState.opsReset_generation, UInt32.add_assoc, Nat.add_comm, UInt32.ofNat_add]
      rfl

end

/-- The child opens as many units as there are generations, and then the parent's call ends. -/
theorem inherited_call_reported : ∃ c cs z r,
    WorkerSteps ((startedWorker manualIni plainStartup 100).after busyParent) (.fork 101) c ∧
      Run WorkerSteps c cs z ∧ (∀ type now, Action.opBegin type now ∉ cs) ∧
      (z.globals.finish 0 true true (z.env (callAt ⟨9, by decide⟩))).1 = some r ∧ r.operations ≠ [] := by
  have hfacts : ∃ c, WorkerSteps ((startedWorker manualIni plainStartup 100).after busyParent) (.fork 101) c ∧
      (c.globals.begin none (c.env (callAt ⟨4, by decide⟩))).1 ≠ 0 ∧
      (c.looked (callAt ⟨4, by decide⟩)).adoptable = false ∧
      (c.begun none (callAt ⟨4, by decide⟩)).calls = [some ⟨.curlExec, 5, some 0, 1⟩] ∧
      (c.begun none (callAt ⟨4, by decide⟩)).globals.enabled = true ∧
      (c.begun none (callAt ⟨4, by decide⟩)).globals.ops.generation = 3 := ⟨_, rfl, by decide +kernel⟩
  generalize callAt ⟨4, by decide⟩ = e at hfacts
  obtain ⟨c, hfork, haccepted, hadoptable, hcalls, henabled, hgeneration⟩ := hfacts
  have hsteady : Steady c.globals := (past_of_forks run_busyParent).steady.step hfork
  have hopens : Opens none e c (c.begun none e) := ⟨rfl, haccepted, hadoptable⟩
  have hfresh := hopens.fresh_unit hsteady
  have hzero : ∀ type, (c.begun none e).globals.ops.agg type = .zero := fun _ => by
    rw [hopens.ops_eq hsteady]
    rfl
  obtain ⟨as, u, has, hrun, hfresh', hcalls', hzero', hgeneration'⟩ := hfresh.many henabled hzero e 4294967294
  -- The generation has come round to that of the token.
  have hround : u.globals.ops.generation = 1 := by
    rw [hgeneration', hgeneration]
    decide
  -- So the inherited call is counted as one of the child's own.
  rw [hcalls] at hcalls'
  obtain ⟨z, hend, hunit, hops, hz⟩ : ∃ z, WorkerSteps u (.opEnd 0 9) z ∧ z.globals.unit = u.globals.unit ∧
      z.globals.ops = u.globals.ops.opsEnd ⟨.curlExec, 5, some 0, 1⟩ 9 ∧ z.globals.active = u.globals.active := by
    obtain ⟨hunit, -, hops⟩ := noteOpEnd_eq u.globals ⟨.curlExec, 5, some 0, 1⟩ 9
    rw [if_pos hfresh'.isOpen] at hops
    refine ⟨{ u with globals := u.globals.noteOpEnd ⟨.curlExec, 5, some 0, 1⟩ 9, calls := u.calls.set 0 none }, ?_,
      hunit, hops, (keeps_noteOpEnd u.globals _ 9).active_eq⟩
    simp only [WorkerSteps, Worker.step, hcalls']
    rfl
  have hknown : Known z := hfresh'.known.step (a := .opEnd 0 9) (s := (u, .empty)) trivial hend
  have hopen : Fresh z := ⟨hknown, hunit ▸ hfresh'.isOpen, hunit ▸ hfresh'.automatic_eq, hz.trans hfresh'.active⟩
  have hfinish := StaysOpen.finish ⟨hknown, rfl, rfl, rfl⟩ hopen (.inl rfl) true true (callAt ⟨9, by decide⟩)
  refine ⟨c, .begin none e :: as ++ [.opEnd 0 9], z, _, hfork, ?_, fun type now hmem => ?_, hfinish, ?_⟩
  · exact (Run.cons hopens.step hrun).append (.single hend)
  · rcases List.mem_append.mp hmem with hbegin | hlast
    · rcases List.mem_cons.mp hbegin with hfirst | hother
      · cases hfirst
      · cases has _ hother
    · cases List.mem_singleton.mp hlast
  · have hcount : (z.globals.ops.agg .curlExec).count = 1 := by
      have hthis : (⟨.curlExec, 5, some 0, 1⟩ : OpToken).generation = u.globals.ops.generation := hround.symm
      rw [hops, OpState.opsEnd_agg (by decide) hthis, Function.update_self, hzero']
      rfl
    have hmem : (OpType.curlExec.name, z.globals.ops.agg .curlExec) ∈ Globals.operations z.globals.ops := by
      refine List.mem_map.mpr ⟨.curlExec, List.mem_filter.mpr ⟨by decide, ?_⟩, rfl⟩
      rw [hcount]
      rfl
    exact List.ne_nil_of_mem hmem

end CboxTelemetry.Extension
