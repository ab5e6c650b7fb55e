import CboxTelemetry.Crash.Fields
import CboxTelemetry.Extension.Forks

/-!
# The recorder between calls

The handler runs at most once, so between calls the recorder is as startup and the calls have left it: no
file is open, the record has its header and nothing else, and the name of the sink, if there is one, is that
of the process on record (`Recording`).
-/

namespace CboxTelemetry.Extension

open Crash (Name crashSinkName CrashRecord crashCrumbs crashMagic crashFormatVersion recordSize)
open Breadcrumbs (CrumbRing)
open Recorder (SignalEnv SinkIo Watched)

/-! ## The invariant -/

/-- The record that startup prepares. -/
def preparedRecord : CrashRecord := { blankRecord with
  magic := .ofNat crashMagic
  formatVersion := .ofNat crashFormatVersion
  recordLen := .ofNat recordSize }

/-- The recorder, before the handler has run. -/
structure Recorder.Standing (r : Recorder) (owner : Int) : Prop where
  calm : r.inProgress = false
  fd_eq : r.fd = none
  dir_ne : r.installed = true → r.dir ≠ []
  record_eq : r.installed = true → r.record = preparedRecord
  path : ∀ name, r.path = some name →
    r.installed = true ∧ r.sinkPid = owner ∧ crashSinkName r.ownedDir owner = some name

structure Recording (g : Globals) : Prop extends g.recorder.Standing g.ownerPid where
  installed : g.recorder.installed = true → g.active = true ∧ g.crashEnabled = true

/-- A call that keeps it. No call makes an extension active that is not, or lets the handler run again. -/
structure KeepsRecording (g g' : Globals) : Prop where
  active_eq : g'.active = g.active
  inProgress_eq : g'.recorder.inProgress = g.recorder.inProgress
  recording : Recording g → Recording g'

variable {g g' g₁ g₂ : Globals} {r : Recorder} {owner pid : Int}

theorem KeepsRecording.refl (g : Globals) : KeepsRecording g g := ⟨rfl, rfl, id⟩

theorem KeepsRecording.trans (h₁ : KeepsRecording g g₁) (h₂ : KeepsRecording g₁ g₂) : KeepsRecording g g₂ :=
  ⟨h₂.active_eq.trans h₁.active_eq, h₂.inProgress_eq.trans h₁.inProgress_eq,
    fun h => h₂.recording (h₁.recording h)⟩

/-- Four fields say whether the worker records. -/
theorem Recording.of_eq (h : Recording g) (hrecorder : g'.recorder = g.recorder)
    (howner : g'.ownerPid = g.ownerPid) (hactive : g'.active = g.active)
    (hcrash : g'.crashEnabled = g.crashEnabled) : Recording g' := by
  obtain ⟨hstanding, hinstalled⟩ := h
  refine ⟨?_, ?_⟩
  · rwa [hrecorder, howner]
  · rwa [hrecorder, hactive, hcrash]

theorem Keeps.recording (h : Keeps g g') : KeepsRecording g g' :=
  ⟨h.active_eq, congrArg Recorder.inProgress h.recorder_eq,
    fun hrec => hrec.of_eq h.recorder_eq h.ownerPid_eq h.active_eq h.crashEnabled_eq⟩

/-! ## Opening the sink -/

/-- The sink is opened again for whatever process asks for it. -/
theorem Recorder.Standing.crashOpenSink (h : r.Standing owner) (io : SinkIo) (pid : Int)
    (hinstalled : r.installed = true) : (r.crashOpenSink io pid).Standing pid := by
  have hready : ¬(!r.installed || r.dir = []) = true := by
    rw [hinstalled]
    have hdir := h.dir_ne hinstalled
    simp [hdir]
  unfold Recorder.crashOpenSink
  rw [if_neg hready]
  split
  -- A sink of this process and of this name is kept. Otherwise a new one is opened, where it has a name.
  · next hsame =>
    obtain ⟨hpid, hpath⟩ := hsame
    refine ⟨h.calm, h.fd_eq, h.dir_ne, h.record_eq, fun name hname => ?_⟩
    obtain ⟨-, howner, hsink⟩ := h.path name hname
    rw [howner] at hpid
    subst hpid
    exact ⟨hinstalled, howner, hsink⟩
  · simp only
    split
    · exact ⟨h.calm, rfl, h.dir_ne, h.record_eq, nofun⟩
    · split
      · exact ⟨h.calm, rfl, h.dir_ne, h.record_eq, nofun⟩
      · next hname =>
        split
        · exact ⟨h.calm, rfl, h.dir_ne, h.record_eq, nofun⟩
        · refine ⟨h.calm, rfl, h.dir_ne, h.record_eq, fun name heq => ?_⟩
          cases heq
          exact ⟨hinstalled, rfl, hname⟩

/-- A recorder that is not installed has no sink, for any process. -/
theorem Recorder.Standing.of_not_installed (h : r.Standing owner) (hnot : r.installed = false) (pid : Int) :
    r.Standing pid :=
  ⟨h.calm, h.fd_eq, h.dir_ne, h.record_eq, fun name hname => by
    have hinstalled := (h.path name hname).1
    rw [hnot] at hinstalled
    cases hinstalled⟩

/-- A recorder that is not installed opens no sink. -/
theorem Recorder.crashOpenSink_of_not_installed (hnot : r.installed = false) (io : SinkIo) (pid : Int) :
    r.crashOpenSink io pid = r := by
  unfold Recorder.crashOpenSink
  rw [hnot]
  rfl

/-- Opening the sink leaves the other two as they are. -/
theorem Recorder.crashOpenSink_same (r : Recorder) (io : SinkIo) (pid : Int) :
    (r.crashOpenSink io pid).installed = r.installed ∧ (r.crashOpenSink io pid).inProgress = r.inProgress := by
  unfold Recorder.crashOpenSink
  split
  · exact ⟨rfl, rfl⟩
  · split
    · exact ⟨rfl, rfl⟩
    · simp only
      split
      · exact ⟨rfl, rfl⟩
      · split
        · exact ⟨rfl, rfl⟩
        · split <;> exact ⟨rfl, rfl⟩

/-- A process that takes the recorder over has its own sink, or none. -/
theorem Recorder.Standing.takenOver (h : r.Standing owner) (io : SinkIo) (pid : Int) :
    (r.crashOpenSink io pid).Standing pid := by
  cases hinstalled : r.installed with
  | true => exact h.crashOpenSink io pid hinstalled
  | false =>
    rw [Recorder.crashOpenSink_of_not_installed hinstalled]
    exact h.of_not_installed hinstalled pid

/-- The look for a fork opens the child's own sink. -/
theorem keepsRecording_detectFork (g : Globals) (env : CallEnv) : KeepsRecording g (g.detectFork env) := by
  unfold Globals.detectFork
  split
  · exact .refl g
  · split
    · next hinactive =>
      refine ⟨rfl, rfl, fun h => ⟨?_, h.installed⟩⟩
      refine h.toStanding.of_not_installed ?_ env.pid
      by_contra hinstalled
      rw [(h.installed (Bool.of_not_eq_false hinstalled)).1] at hinactive
      cases hinactive
    · show KeepsRecording g (g.repair env)
      cases hcrash : g.crashEnabled with
      | true =>
        have hrecorder : (g.repair env).recorder = g.recorder.crashOpenSink env.sink env.pid := if_pos hcrash
        obtain ⟨hinstalled, hcalm⟩ := g.recorder.crashOpenSink_same env.sink env.pid
        refine ⟨rfl, ?_, fun h => ⟨?_, ?_⟩⟩
        · rw [hrecorder, hcalm]
        · rw [hrecorder]
          exact h.toStanding.takenOver env.sink env.pid
        · rw [hrecorder, hinstalled]
          exact h.installed
      | false =>
        have hrecorder : (g.repair env).recorder = g.recorder := if_neg (by rw [hcrash]; exact nofun)
        refine ⟨rfl, congrArg Recorder.inProgress hrecorder, fun h => ⟨?_, ?_⟩⟩
        · rw [hrecorder]
          refine h.toStanding.of_not_installed ?_ env.pid
          by_contra hinstalled
          rw [(h.installed (Bool.of_not_eq_false hinstalled)).2] at hcrash
          cases hcrash
        · rw [hrecorder]
          exact h.installed

/-- So does the start of a request. -/
theorem keepsRecording_requestRecorder (g : Globals) (env : CallEnv) (hpid : g.ownerPid = env.pid) :
    KeepsRecording g { g with recorder := requestRecorder g env } := by
  unfold requestRecorder
  split
  · obtain ⟨hinstalled, hcalm⟩ := g.recorder.crashOpenSink_same env.sink env.pid
    refine ⟨rfl, hcalm, fun h => ⟨?_, ?_⟩⟩
    · show (g.recorder.crashOpenSink env.sink env.pid).Standing g.ownerPid
      rw [hpid]
      exact h.toStanding.takenOver env.sink env.pid
    · show (g.recorder.crashOpenSink env.sink env.pid).installed = true → _
      rw [hinstalled]
      exact h.installed
  · exact .refl g

/-- A look puts the process on record. -/
theorem detectFork_ownerPid (g : Globals) (env : CallEnv) : (g.detectFork env).ownerPid = env.pid := by
  unfold Globals.detectFork
  split
  · assumption
  · split <;> rfl

/-! ## Steps and startup -/

/-- **Every step keeps the recorder as it should be.** -/
theorem keepsRecording_step {w w' : Worker} {a : Action} (hstep : WorkerSteps w a w') :
    KeepsRecording w.globals w'.globals := by
  -- Only a look and a request touch the recorder.
  cases a with
  | rinit sapi e =>
    cases hstep
    show KeepsRecording w.globals (w.globals.rinit sapi (w.env e))
    have hstarted := started_rinit w.globals sapi (w.env e)
    have hfork := keepsRecording_detectFork w.globals (w.env e)
    have hsink := keepsRecording_requestRecorder _ _ (detectFork_ownerPid w.globals (w.env e))
    generalize w.globals.rinit sapi (w.env e) = g' at hstarted
    cases hstarted with
    | quiet => exact hfork.trans hsink
    | opened _ _ => exact (hfork.trans hsink).trans (keeps_unitOpen _ _ _ _).recording
  | rshutdown =>
    cases hstep
    exact (keeps_rshutdown _).recording
  | begin context e =>
    cases hstep
    show KeepsRecording w.globals (w.globals.begin context (w.env e)).2
    unfold Globals.begin
    split
    · exact .refl _
    · exact (keepsRecording_detectFork _ _).trans (keeps_beginUnit _ _ _).recording
  | finish handle p s e =>
    cases hstep
    exact (keepsRecording_detectFork _ _).trans (keeps_finishUnit _ _ _ _ _).recording
  | status e =>
    cases hstep
    exact keepsRecording_detectFork _ _
  | iniSet periodUs maxDepth =>
    cases hstep
    exact ⟨rfl, rfl, fun h => h.of_eq rfl rfl rfl rfl⟩
  | opBegin type now =>
    cases hstep
    exact (keeps_noteOpBegin _ _ _).recording
  | opEnd call now =>
    simp only [WorkerSteps, Worker.step] at hstep
    split at hstep
    · cases hstep
      exact (keeps_noteOpEnd _ _ _).recording
    · cases hstep
  | tick ticks =>
    cases hstep
    exact ⟨rfl, rfl, fun h => h.of_eq rfl rfl rfl rfl⟩
  | interrupt stack between now =>
    simp only [WorkerSteps, Worker.step] at hstep
    split at hstep
    · cases hstep
      exact ⟨rfl, rfl, fun h => h.of_eq rfl rfl rfl rfl⟩
    · cases hstep
  | fork child =>
    cases hstep
    exact ⟨rfl, rfl, fun h => h.of_eq rfl rfl rfl rfl⟩

/-- A recorder that has just been installed, or could not be. -/
theorem standing_crashInstall (dir : Option Bytes) (sigaction : Bool) (moduleBase : UInt64) (owner : Int) :
    (Recorder.cleared.crashInstall dir sigaction moduleBase).Standing owner := by
  have hnone : ∀ status, Recorder.Standing { Recorder.cleared with status := status } owner :=
    fun _ => ⟨rfl, rfl, nofun, nofun, nofun⟩
  unfold Recorder.crashInstall
  rw [if_neg (by decide)]
  split
  · exact hnone _
  · split
    · exact hnone _
    · next hdir =>
      simp only
      split
      · exact ⟨rfl, rfl, fun _ => (not_or.mp hdir).1, fun _ => rfl, nofun⟩
      · exact ⟨rfl, rfl, nofun, nofun, nofun⟩

/-- Startup, as far as the recorder and the ring go. -/
theorem recording_minit (ini : Ini) (io : StartupIo) (pid : Int) : Recording (Globals.minit ini io pid) ∧
    ((Globals.minit ini io pid).active = true → (Globals.minit ini io pid).crumbs.Holds []) := by
  have hoff : ∀ g : Globals, g.recorder = .cleared → Recording g := by
    intro g hcleared
    refine ⟨?_, ?_⟩
    · rw [hcleared]
      exact ⟨rfl, rfl, nofun, nofun, nofun⟩
    · rw [hcleared]
      exact nofun
  -- The recorder is installed when the extension becomes active, and at no other time.
  have hon : ∀ g : Globals, g.active = true → g.crashEnabled = ini.crashEnabled →
      g.recorder = (if ini.crashEnabled then
        Recorder.cleared.crashInstall ini.crashDir io.sigaction io.moduleBase else .cleared) → Recording g := by
    intro g hactive hcrash hrecorder
    cases henabled : ini.crashEnabled with
    | false =>
      rw [henabled] at hrecorder
      exact hoff g hrecorder
    | true =>
      rw [henabled] at hrecorder hcrash
      refine ⟨?_, fun _ => ⟨hactive, hcrash⟩⟩
      rw [hrecorder]
      exact standing_crashInstall _ _ _ _
  unfold Globals.minit
  cases ini.enabled with
  | false => exact ⟨hoff _ rfl, nofun⟩
  | true =>
    simp only [Bool.not_true, Bool.false_eq_true, if_false]
    split
    · exact ⟨hoff _ rfl, nofun⟩
    · next hring =>
      have hholds : (CrumbRing.init (clamp ini.crumbCapacity crumbsMin crumbsMax).toNat io.crumbs).2.Holds [] := by
        rw [Bool.not_eq_true', Bool.not_eq_false] at hring
        cases hcalloc : io.crumbs with
        | true =>
          rw [hcalloc] at hring
          exact .init (Prod.ext hring rfl)
        | false =>
          rw [hcalloc] at hring
          unfold CrumbRing.init at hring
          split at hring
          · cases hring
          · cases hring
      split
      · exact ⟨hon _ rfl rfl rfl, fun _ => hholds⟩
      · generalize Profiler.State.init .blank (clamp ini.maxFrames Profiler.framesMin
          Profiler.framesMax).toNat (clamp ini.maxNodes Profiler.nodesMin Profiler.nodesMax).toNat
          (io.slab.map fun byte => (List.range ((clamp ini.maxFrames Profiler.framesMin
            Profiler.framesMax).toNat * Profiler.arenaBytesPerFrame)).map byte) io.frames io.nodes = started
        obtain ⟨ok, prof⟩ := started
        cases ok with
        | false => exact ⟨hon _ rfl rfl rfl, fun _ => hholds⟩
        | true =>
          simp only
          generalize prof.timer.init io.timer = timed
          obtain ⟨ok, timer⟩ := timed
          cases ok with
          | false => exact ⟨hon _ rfl rfl rfl, fun _ => hholds⟩
          | true => exact ⟨hon _ rfl rfl rfl, fun _ => hholds⟩

/-! ## The record of a crash -/

/-- What the recorder watches. -/
def Globals.watched (g : Globals) : Watched := ⟨g.unit, g.ops, g.crumbs⟩

/-- A fatal signal between two calls: the record that is appended, with the file it goes to. -/
def Worker.crash (w : Worker) (env : SignalEnv) : Option (Name × CrashRecord) :=
  (w.globals.recorder.crashHandler env w.pid w.globals.watched).1

/-- The record goes to the sink, if there is one and it opens. -/
theorem Recording.crash_eq {w : Worker} (h : Recording w.globals) (env : SignalEnv) :
    w.crash env = if env.opens = true then
      w.globals.recorder.path.map fun name => (name, w.globals.recorder.fill env w.pid w.globals.watched)
      else none := by
  unfold Worker.crash Recorder.crashHandler
  rw [h.calm, h.fd_eq, if_neg Bool.false_ne_true]
  cases env.opens with
  | false => rfl
  | true =>
    cases hpath : w.globals.recorder.path with
    | none => rfl
    | some name =>
      show some (name, _) = some (name, _)
      unfold Recorder.fill
      rfl

/-- The record that is filled in is one that the drain takes. -/
theorem Recording.fill_current (h : Recording g) (hinstalled : g.recorder.installed = true) (env : SignalEnv)
    (pid : Int) (watched : Watched) (hlength : (watched.crumbs.snapshot crashCrumbs).length ≤ crashCrumbs) :
    (g.recorder.fill env pid watched).Current := by
  have hrecord := h.record_eq hinstalled
  refine ⟨?_, ?_, ?_, ?_⟩
  · show g.recorder.record.magic = _
    rw [hrecord]
    rfl
  · show g.recorder.record.formatVersion = _
    rw [hrecord]
    rfl
  · show g.recorder.record.recordLen = _
    rw [hrecord]
    rfl
  · show (UInt32.ofNat (watched.crumbs.snapshot crashCrumbs).length).toNat ≤ crashCrumbs
    rw [UInt32.toNat_ofNat']
    exact (Nat.mod_le _ _).trans hlength

end CboxTelemetry.Extension
