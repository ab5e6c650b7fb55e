import CboxTelemetry.Extension.Described

/-!
# Whose crash it is

A forked child has the recorder, the unit and the operations of its parent until it looks whether it is one,
and the handler does not look. A record is of the process that writes it if and only if that process is the
one on record (`ownCrash_iff`): from the fork to the first call that looks, it is not.
-/

namespace CboxTelemetry.Extension

open Crash (CrashRecord Name crashSinkName sinkName sinkName_inj)
open Profiler (Instant)
open Recorder (SignalEnv)

/-! ## Processes -/

/-- What happens to a process. `drain_crashes` reads the sinks of others and changes nothing here. -/
inductive ProcessAction
  | work (a : Action)
  | drainCrashes
  | signal (env : SignalEnv)

/-- A process at the end of a line of descent: the number of forks that lead to it. On the side, in which
process of the line the last unit was opened, and in which one each slot was taken. -/
structure Process where
  worker : Worker
  forks : Nat
  opener : Nat
  taker : Nat → Nat

namespace Process

/-- What is noted of a step of the worker. -/
def noteWork (p : Process) (a : Action) (w : Worker) : Process where
  worker := w
  forks :=
    match a with
    | .fork _ => p.forks + 1
    | _ => p.forks
  opener := if w.globals.nextHandle = p.worker.globals.nextHandle then p.opener else p.forks
  taker :=
    match a with
    | .opBegin type now =>
      match (p.worker.globals.noteOpBegin type now).1.slot with
      | some slot => Function.update p.taker slot p.forks
      | none => p.taker
    | _ => p.taker

/-- The recorder after the handler has run. -/
def struck (p : Process) (env : SignalEnv) : Process := { p with
  worker := { p.worker with
    globals := { p.worker.globals with
      recorder := (p.worker.globals.recorder.crashHandler env p.worker.pid p.worker.globals.watched).2 } } }

end Process

inductive ProcessSteps : Process → ProcessAction → Process → Prop
  | work {p : Process} {a : Action} {w : Worker} : WorkerSteps p.worker a w →
      ProcessSteps p (.work a) (p.noteWork a w)
  | drainCrashes {p : Process} : ProcessSteps p .drainCrashes p
  | signal {p : Process} {env : SignalEnv} : ProcessSteps p (.signal env) (p.struck env)

/-- A fork gives the child a pid that is not on record. -/
def BornAnew (p : Process) : ProcessAction → Prop
  | .work a => ForkedAnew p.worker a
  | _ => True

def startedProcess (ini : Ini) (io : StartupIo) (pid : Int) : Process :=
  ⟨startedWorker ini io pid, 0, 0, fun _ => 0⟩

/-- A record that describes the process that writes it: it goes to the sink of this process, and the unit and
the operation, if there are any, have begun in this process. -/
structure OwnCrash (p : Process) (name : Name) (r : CrashRecord) : Prop where
  name_eq : name = sinkName p.worker.pid
  unit_opened : p.worker.globals.unit.handle ≠ 0 → p.opener = p.forks ∧
    r.unitType = p.worker.globals.unit.type.code ∧ r.traceId = p.worker.globals.unit.traceId ∧
    r.spanId = p.worker.globals.unit.spanId
  unit_none : p.worker.globals.unit.handle = 0 → r.unitType = UnitType.none.code ∧ r.hasTrace = 0 ∧
    r.hasSpan = 0 ∧ r.currentOp = OpType.none.code
  operation : r.currentOp = OpType.none.code ∨ ∃ (slot : Nat) (f : OpFrame),
    p.worker.globals.ops.frames[slot]? = some f ∧ f.type ≠ .none ∧ r.currentOp = f.type.code ∧
      r.currentOpStartNs = f.startNs ∧ p.taker slot = p.forks

/-! ## Units and slots of a process -/

/-- The unit and the operations in flight have begun in process `here`. -/
structure Mine (g : Globals) (opener here : Nat) (taker : Nat → Nat) : Prop where
  unit : g.unit.handle ≠ 0 → opener = here
  slots : ∀ (slot : Nat) (f : OpFrame), g.ops.frames[slot]? = some f → f.type ≠ .none → taker slot = here

section
variable {g g' : Globals} {opener here : Nat} {taker : Nat → Nat} {now : UInt64} {k : Nat}

theorem frames_clearedAfter {s : OpState} {slot : Nat} {f : OpFrame}
    (hf : (s.clearedAfter k).frames[slot]? = some f) : f.type = .none := Slots.type_of_cleared rfl hf

/-- An effect on the unit leaves what is open to the process that opened it. -/
theorem Mine.effect (h : Mine g opener here taker) (heffect : UnitEffect g now k g') :
    Mine g' (if g'.nextHandle = g.nextHandle then opener else here) here taker := by
  cases heffect with
  | kept _ hops hhandle _ _ hnext =>
    rw [if_pos hnext]
    refine ⟨?_, ?_⟩
    · rw [hhandle]
      exact h.unit
    · rw [hops]
      exact h.slots
  | closed _ _ _ hops hunit hnext =>
    refine ⟨fun hopen => absurd ?_ hopen, fun slot f hf hused => ?_⟩
    · rw [hunit]
      rfl
    · rw [hops] at hf
      exact absurd (frames_clearedAfter hf) hused
  | opened _ _ _ hops _ _ hnext =>
    rw [if_neg hnext]
    refine ⟨fun _ => rfl, fun slot f hf hused => ?_⟩
    rw [hops] at hf
    exact absurd (frames_clearedAfter hf) hused

/-- Where there is no unit, nothing is anybody else's. -/
theorem Mine.of_closed (hsteady : Steady g) (hclosed : g.unit.handle = 0) : Mine g opener here taker := by
  refine ⟨fun hopen => absurd hclosed hopen, fun slot f hf hused => absurd ?_ hused⟩
  exact (hsteady.closed hclosed).idle.free hf

/-- A look for a fork ends a unit that is not of this process. -/
theorem detectFork_closed {env : CallEnv} (hfork : g.ownerPid ≠ env.pid)
    (hinactive : g.active = false → g.unit.handle = 0) : (g.detectFork env).unit.handle = 0 := by
  unfold Globals.detectFork
  rw [if_neg hfork]
  split
  · next hnot => exact hinactive (by rwa [Bool.not_eq_true'] at hnot)
  · rfl

/-- An operation that ends takes no slot. -/
theorem opsEnd_frames {s : OpState} {t : OpToken} {slot : Nat} {f : OpFrame}
    (hf : (s.opsEnd t now).frames[slot]? = some f) (hused : f.type ≠ .none) : s.frames[slot]? = some f := by
  -- A slot that was released is used no more.
  have hrelease : ∀ taken, (s.release taken).frames[slot]? = some f → s.frames[slot]? = some f := by
    intro taken hf
    cases taken with
    | none => exact hf
    | some taken =>
      by_cases hlt : taken < opStackMax
      · rw [(release_slot s hlt).1] at hf
        split at hf
        · obtain ⟨f', -, rfl⟩ := Option.map_eq_some_iff.mp hf
          exact absurd rfl hused
        · exact hf
      · rw [OpState.release, dif_neg hlt] at hf
        exact hf
  unfold OpState.opsEnd at hf
  split at hf
  · exact hf
  · split at hf
    · exact hf
    · exact hrelease t.slot hf

end

/-! ## Steps -/

/-- The invariant: the recorder stands as it should, or has been used up; and the process on record has nothing
of another one's. -/
structure Possessed (p : Process) : Prop where
  steady : Steady p.worker.globals
  recording : Recording p.worker.globals ∨ p.worker.globals.recorder.inProgress = true
  inactive : p.worker.globals.active = false → p.worker.globals.unit.handle = 0
  unit_none : p.worker.globals.unit.handle = 0 → p.worker.globals.unit = .cleared
  mine : p.worker.pid = p.worker.globals.ownerPid → Mine p.worker.globals p.opener p.forks p.taker

section
variable {w w' : Worker} {a : Action} {p p' : Process}

/-- A step looks for a fork before it does anything else, or leaves the process on record. -/
theorem looks_step (hstep : WorkerSteps w a w') : w'.globals.ownerPid = w.globals.ownerPid ∨
    ∃ (e : CallEnv) (k : Nat), UnitEffect (w.globals.detectFork (w.env e)) a.clockNow k w'.globals := by
  -- A call looks before anything else. A hook, a tick and an interrupt leave the record as it is.
  cases a with
  | rinit sapi e =>
    cases hstep
    obtain ⟨k, -, heffect⟩ := (started_rinit w.globals sapi (w.env e)).effect
    exact .inr ⟨e, k, heffect⟩
  | rshutdown =>
    cases hstep
    exact .inl (keeps_rshutdown w.globals).ownerPid_eq
  | begin context e =>
    cases hstep
    show (w.globals.begin context (w.env e)).2.ownerPid = _ ∨
      ∃ (e' : CallEnv) (k : Nat), UnitEffect (w.globals.detectFork (w.env e')) (clock e.now) k
        (w.globals.begin context (w.env e)).2
    unfold Globals.begin
    split
    · exact .inl rfl
    · obtain ⟨k, -, heffect⟩ := unitEffect_beginUnit (w.globals.detectFork (w.env e)) context (w.env e)
      exact .inr ⟨e, k, heffect⟩
  | finish handle ip is e =>
    cases hstep
    obtain ⟨k, -, heffect⟩ := unitEffect_finishUnit (w.globals.detectFork (w.env e)) handle ip is (w.env e) (clock e.now)
    exact .inr ⟨e, k, heffect⟩
  | status e =>
    cases hstep
    exact .inr ⟨e, 0, .refl _ _⟩
  | iniSet periodUs maxDepth =>
    cases hstep
    exact .inl rfl
  | opBegin type now =>
    cases hstep
    exact .inl (keeps_noteOpBegin w.globals type now).ownerPid_eq
  | opEnd call now =>
    simp only [WorkerSteps, Worker.step] at hstep
    split at hstep
    · next t _ =>
      cases hstep
      exact .inl (keeps_noteOpEnd w.globals t now).ownerPid_eq
    · cases hstep
  | tick ticks =>
    cases hstep
    exact .inl rfl
  | interrupt stack between now =>
    simp only [WorkerSteps, Worker.step] at hstep
    split at hstep
    · cases hstep
      exact .inl rfl
    · cases hstep
  | fork child =>
    cases hstep
    exact .inl rfl

/-- A hook changes neither the process nor the one on record. -/
theorem hook_process (hhook : a.isHook = true) (hstep : WorkerSteps w a w') :
    w'.pid = w.pid ∧ w'.globals.ownerPid = w.globals.ownerPid := by
  cases a with
  | opBegin type now =>
    cases hstep
    exact ⟨rfl, (keeps_noteOpBegin w.globals type now).ownerPid_eq⟩
  | opEnd call now =>
    simp only [WorkerSteps, Worker.step] at hstep
    split at hstep
    · next t _ =>
      cases hstep
      exact ⟨rfl, (keeps_noteOpEnd w.globals t now).ownerPid_eq⟩
    · cases hstep
  | _ => cases hhook

/-- An extension that is not active opens no units. -/
theorem inactive_step (hinactive : w.globals.active = false → w.globals.unit.handle = 0)
    (hstep : WorkerSteps w a w') : w'.globals.active = false → w'.globals.unit.handle = 0 := by
  intro hoff
  -- So no look repairs anything, and `begin` and `PHP_RINIT` open no unit.
  rw [(keepsRecording_step hstep).active_eq] at hoff
  have hclosed := hinactive hoff
  have hdetect : ∀ e : CallEnv, (w.globals.detectFork (w.env e)).active = false ∧
      (w.globals.detectFork (w.env e)).unit.handle = 0 := by
    intro e
    unfold Globals.detectFork
    split
    · exact ⟨hoff, hclosed⟩
    · split
      · exact ⟨hoff, hclosed⟩
      · next hon => exact absurd (by rw [hoff]; rfl) hon
  cases hhook : a.isHook with
  | true => rwa [(hook_unit hhook hstep).1]
  | false =>
    cases a with
    | rinit sapi e =>
      cases hstep
      show (w.globals.rinit sapi (w.env e)).unit.handle = 0
      have hstarted := started_rinit w.globals sapi (w.env e)
      generalize w.globals.rinit sapi (w.env e) = g' at hstarted
      cases hstarted with
      | quiet => exact (hdetect e).2
      | opened hactive _ =>
        rw [(hdetect e).1] at hactive
        cases hactive
    | rshutdown =>
      cases hstep
      show w.globals.rshutdown.unit.handle = 0
      unfold Globals.rshutdown
      rw [if_neg (not_not.mpr hclosed)]
      exact hclosed
    | begin context e =>
      cases hstep
      show (w.globals.begin context (w.env e)).2.unit.handle = 0
      unfold Globals.begin
      rw [hoff]
      exact hclosed
    | finish handle ip is e =>
      cases hstep
      show ((w.globals.detectFork (w.env e)).finishUnit handle ip is (w.env e)).2.unit.handle = 0
      unfold Globals.finishUnit
      rw [(hdetect e).1]
      exact (hdetect e).2
    | status e =>
      cases hstep
      exact (hdetect e).2
    | interrupt stack between now =>
      simp only [WorkerSteps, Worker.step] at hstep
      split at hstep
      · cases hstep
        exact hclosed
      · cases hstep
    | iniSet _ _ | tick _ | fork _ =>
      cases hstep
      exact hclosed
    | opBegin _ _ | opEnd _ _ => cases hhook

/-- A hooked call takes a slot for the process that makes it. -/
theorem Mine.hook (h : Mine w.globals p.opener p.forks p.taker) (hp : p.worker = w) (hhook : a.isHook = true)
    (hstep : WorkerSteps w a w') :
    Mine w'.globals (p.noteWork a w').opener (p.noteWork a w').forks (p.noteWork a w').taker := by
  subst hp
  obtain ⟨hunit, hnext⟩ := hook_unit hhook hstep
  have hopener : (p.noteWork a w').opener = p.opener := if_pos hnext
  rw [hopener]
  cases a with
  | opBegin type now =>
    refine ⟨?_, fun slot f hf hused => ?_⟩
    · rw [hunit]
      exact h.unit
    · have htaken := slotTaken_noteOpBegin p.worker.globals type now
      cases hstep
      have hf : (p.worker.globals.noteOpBegin type now).2.ops.frames[slot]? = some f := hf
      -- The slot that is taken is this process's from here on, and the others are as they were.
      show (match (p.worker.globals.noteOpBegin type now).1.slot with
        | some slot => Function.update p.taker slot p.forks
        | none => p.taker) slot = p.forks
      generalize (p.worker.globals.noteOpBegin type now).1.slot = taken at htaken
      generalize (p.worker.globals.noteOpBegin type now).2.ops = s' at hf htaken
      cases htaken with
      | nowhere _ hframes _ =>
        rw [hframes] at hf
        exact h.slots slot f hf hused
      | top _ _ _ _ hframes =>
        rw [hframes] at hf
        split at hf
        · next heq =>
          subst heq
          exact Function.update_self _ _ _
        · next hne =>
          have hold := h.slots slot f hf hused
          show Function.update p.taker _ _ slot = _
          rwa [Function.update_of_ne hne]
  | opEnd call now =>
    refine ⟨?_, fun slot f hf hused => ?_⟩
    · rw [hunit]
      exact h.unit
    · simp only [WorkerSteps, Worker.step] at hstep
      split at hstep
      · next t _ =>
        cases hstep
        have hf : (p.worker.globals.noteOpEnd t now).ops.frames[slot]? = some f := hf
        rw [(noteOpEnd_eq p.worker.globals t now).2.2] at hf
        refine h.slots slot f ?_ hused
        split at hf
        · exact opsEnd_frames hf hused
        · exact hf
      · cases hstep
  | _ => cases hhook

/-- A step of the process keeps what it possesses. -/
theorem Possessed.work (h : Possessed p) (hanew : ForkedAnew p.worker a) (hstep : WorkerSteps p.worker a w') :
    Possessed (p.noteWork a w') := by
  obtain ⟨-, hprogress, hrecording⟩ := keepsRecording_step hstep
  refine ⟨h.steady.step hstep, ?_, inactive_step h.inactive hstep, closedUnit_step h.unit_none hstep, fun howner => ?_⟩
  · rcases h.recording with hstands | hspent
    · exact .inl (hrecording hstands)
    · exact .inr (hprogress.trans hspent)
  · have howner : w'.pid = w'.globals.ownerPid := howner
    -- A hook looks at no process. Everything else works on the record that a look has left.
    cases hhook : a.isHook with
    | true =>
      obtain ⟨hpid, hkept⟩ := hook_process hhook hstep
      rw [hpid, hkept] at howner
      exact (h.mine howner).hook rfl hhook hstep
    | false =>
      by_cases hfork : ∃ child, a = .fork child
      · obtain ⟨child, rfl⟩ := hfork
        cases hstep
        exact absurd howner hanew
      · have hsame : w'.pid = p.worker.pid ∧ (p.noteWork a w').forks = p.forks ∧ (p.noteWork a w').taker = p.taker := by
          cases a with
          | fork child => exact absurd ⟨child, rfl⟩ hfork
          | opBegin _ _ | opEnd _ _ => cases hhook
          | interrupt stack between now =>
            simp only [WorkerSteps, Worker.step] at hstep
            split at hstep
            · cases hstep
              exact ⟨rfl, rfl, rfl⟩
            · cases hstep
          | _ =>
            cases hstep
            exact ⟨rfl, rfl, rfl⟩
        obtain ⟨hpid, hforks, htaker⟩ := hsame
        rw [hforks, htaker]
        by_cases hthis : p.worker.pid = p.worker.globals.ownerPid
        · obtain ⟨-, k, -, heffect⟩ := unitEffect_step hstep hhook
          exact (h.mine hthis).effect heffect
        · -- The process has just found out that it is a child.
          rcases looks_step hstep with hkept | ⟨e, k, heffect⟩
          · rw [hkept, hpid] at howner
            exact absurd howner hthis
          · have hclosed : (p.worker.globals.detectFork (p.worker.env e)).unit.handle = 0 :=
              detectFork_closed (Ne.symm hthis) h.inactive
            have hmine : Mine (p.worker.globals.detectFork (p.worker.env e)) p.opener p.forks p.taker :=
              .of_closed (h.steady.detectFork _) hclosed
            obtain ⟨-, -, -, hnext⟩ := unitEffect_detectFork p.worker.globals (p.worker.env e) a.clockNow
            have heffected := hmine.effect heffect
            rw [hnext] at heffected
            exact heffected

/-- The handler runs once. -/
theorem struck_inProgress (p : Process) (env : SignalEnv) :
    (p.struck env).worker.globals.recorder.inProgress = true := by
  show (p.worker.globals.recorder.crashHandler env p.worker.pid p.worker.globals.watched).2.inProgress = true
  unfold Recorder.crashHandler
  split
  · assumption
  · simp only
    split <;> rfl

/-- **Every step leaves a process in possession of its own.** -/
theorem Possessed.step {a : ProcessAction} (h : Possessed p) (hanew : BornAnew p a) (hstep : ProcessSteps p a p') :
    Possessed p' := by
  cases hstep with
  | work hwork => exact h.work hanew hwork
  | drainCrashes => exact h
  | @signal env =>
    have hsteady : Steady (p.struck env).worker.globals := h.steady.of_eq rfl rfl rfl rfl rfl
    exact ⟨hsteady, .inr (struck_inProgress p env), h.inactive, h.unit_none,
      fun howner => ⟨(h.mine howner).unit, (h.mine howner).slots⟩⟩

/-- After every run, the process has what the record says. -/
theorem possessed_of_run {ini : Ini} {io : StartupIo} {pid : Int} {as : List ProcessAction} {p : Process}
    (hrun : Run (Guarded BornAnew ProcessSteps) (startedProcess ini io pid) as p) : Possessed p := by
  have hbooted := booted_minit ini io pid
  have hunit : (startedProcess ini io pid).worker.globals.unit = .cleared := hbooted.unit_eq
  have hclosed : (startedProcess ini io pid).worker.globals.unit.handle = 0 := by
    rw [hunit]
    rfl
  have hstart : Possessed (startedProcess ini io pid) :=
    ⟨hbooted.steady, .inl (recording_minit ini io pid).1, fun _ => hclosed, fun _ => hunit,
      fun _ => .of_closed hbooted.steady hclosed⟩
  exact Run.invariant (fun _ _ _ h hs => h.step hs.1 hs.2) hstart hrun

end

/-! ## The record -/

section
variable {p : Process} {env : SignalEnv} {name : Name} {r : CrashRecord}

/-- A record is written by a handler that has not run, to the sink of the process on record. -/
theorem Possessed.crash_eq (h : Possessed p) (hcrash : p.worker.crash env = some (name, r)) :
    name = sinkName p.worker.globals.ownerPid ∧
      r = p.worker.globals.recorder.fill env p.worker.pid p.worker.globals.watched := by
  rcases h.recording with hstands | hspent
  · rw [hstands.crash_eq] at hcrash
    split at hcrash
    · obtain ⟨sink, hpath, heq⟩ := Option.map_eq_some_iff.mp hcrash
      cases heq
      obtain ⟨-, -, hname⟩ := hstands.path name hpath
      unfold crashSinkName at hname
      split at hname
      · exact ⟨(Option.some.inj hname).symm, rfl⟩
      · cases hname
    · cases hcrash
  · unfold Worker.crash Recorder.crashHandler at hcrash
    rw [if_pos hspent] at hcrash
    cases hcrash

/-- The operation of a record is one in flight. -/
theorem current_slot (s : OpState) : s.opsCurrent = .none ∨ ∃ (slot : Nat) (f : OpFrame),
    s.frames[slot]? = some f ∧ f.type ≠ .none ∧ s.opsCurrent = f.type ∧ s.opsCurrentStart = f.startNs := by
  unfold OpState.opsCurrent OpState.opsCurrentStart
  by_cases hnone : s.opsTop = 0
  · rw [if_pos hnone]
    exact .inl rfl
  · obtain ⟨f, hf, hused⟩ := topFrom_used (Nat.pos_of_ne_zero hnone)
    have hf : s.frames[s.opsTop - 1]? = some f := hf
    rw [if_neg hnone, if_neg hnone, hf]
    exact .inr ⟨_, f, hf, hused, rfl, rfl⟩

/-- **A record is of the process that writes it if and only if that process is the one on record.** In every run in
which no child is given the pid on record, a record is the process's own if and only if the process has looked
for a fork since it was born. -/
theorem ownCrash_iff {ini : Ini} {io : StartupIo} {pid : Int} {as : List ProcessAction}
    (hrun : Run (Guarded BornAnew ProcessSteps) (startedProcess ini io pid) as p)
    (hcrash : p.worker.crash env = some (name, r)) :
    OwnCrash p name r ↔ p.worker.pid = p.worker.globals.ownerPid := by
  have h := possessed_of_run hrun
  obtain ⟨hname, hrecord⟩ := h.crash_eq hcrash
  constructor
  · intro hown
    exact sinkName_inj (hown.name_eq.symm.trans hname)
  · intro howner
    obtain ⟨hunit, hslots⟩ := h.mine howner
    subst hrecord
    refine ⟨?_, fun hopen => ⟨hunit hopen, rfl, rfl, rfl⟩, fun hclosed => ?_, ?_⟩
    · rw [hname, howner]
    -- A process without a unit has the cleared one, and no operation.
    · have hcleared := h.unit_none hclosed
      have hnone : p.worker.globals.ops.opsCurrent = .none := by
        have hdepth := (h.steady.closed hclosed).idle.depth_eq
        unfold OpState.opsCurrent OpState.opsTop
        rw [hdepth]
        rfl
      refine ⟨?_, ?_, ?_, congrArg OpType.code hnone⟩
      · show p.worker.globals.unit.type.code = _
        rw [hcleared]
        rfl
      · show (if p.worker.globals.unit.hasTrace then 1 else 0) = (0 : UInt8)
        rw [hcleared]
        rfl
      · show (if p.worker.globals.unit.hasSpan then 1 else 0) = (0 : UInt8)
        rw [hcleared]
        rfl
    · rcases current_slot p.worker.globals.ops with hnone | ⟨slot, f, hf, hused, htype, hstart⟩
      · exact .inl (congrArg OpType.code hnone)
      · exact .inr ⟨slot, f, hf, hused, congrArg OpType.code htype, hstart, hslots slot f hf hused⟩

end

/-! ## Two children -/

/-- The pid of a child. -/
def Action.child : Action → Option Int
  | .fork child => some child
  | _ => none

/-- The process after some work, if every child in it is born anew. -/
def Process.afterWork (p : Process) : List Action → Option Process
  | [] => some p
  | a :: as =>
    match p.worker.step a with
    | some w => if a.child = some p.worker.globals.ownerPid then none else (p.noteWork a w).afterWork as
    | none => none

/-- What is computed is a run. -/
theorem run_afterWork {as : List Action} {p p' : Process} (h : p.afterWork as = some p') :
    Run (Guarded BornAnew ProcessSteps) p (as.map .work) p' := by
  induction as generalizing p with
  | nil =>
    cases h
    exact .nil _
  | cons a as ih =>
    simp only [Process.afterWork] at h
    split at h
    · next w hw =>
      split at h
      · cases h
      · next hchild =>
        have hanew : ForkedAnew p.worker a := by
          cases a with
          | fork child => exact fun heq => hchild (congrArg some heq)
          | _ => trivial
        exact .cons ⟨hanew, .work hw⟩ (ih h)
    · cases h

/-- A request, a fork, and a unit of the child's own. -/
def ownUnit : List Action :=
  [.rinit none (sinkCallAt 1), .begin none (callAt 2), .fork 101,
    .begin none (sinkCallAt 5)]

/-- A fork in the middle of a unit, and nothing else. -/
def inheritedUnit : List Action :=
  [.rinit none (sinkCallAt 1), .begin none (callAt 2), .fork 101]

/-- A child that opened a unit of its own faults in it. -/
theorem ownCrash_iff_child : ∃ p name r,
    Run (Guarded BornAnew ProcessSteps) (startedProcess recordingIni plainStartup 100) (ownUnit.map .work) p ∧
      p.worker.crash (faultAt ⟨9, by decide⟩) = some (name, r) ∧ p.worker.globals.unit.handle ≠ 0 ∧
      OwnCrash p name r := by
  have hafter : ((startedProcess recordingIni plainStartup 100).afterWork ownUnit).map (fun p =>
      ((p.worker.crash (faultAt ⟨9, by decide⟩)).isSome, p.worker.globals.unit.handle, p.worker.pid,
        p.worker.globals.ownerPid)) = some (true, 2, 101, 101) := by decide +kernel
  obtain ⟨p, hp, heq⟩ := Option.map_eq_some_iff.mp hafter
  simp only [Prod.mk.injEq] at heq
  obtain ⟨hcrash, hhandle, hpid, howner⟩ := heq
  obtain ⟨⟨name, r⟩, hcrash⟩ := Option.isSome_iff_exists.mp hcrash
  refine ⟨p, name, r, run_afterWork hp, hcrash, ?_, ?_⟩
  · rw [hhandle]
    decide
  · exact (ownCrash_iff (run_afterWork hp) hcrash).mpr (hpid.trans howner.symm)

/-- A child that crashes before it looks writes to its parent's sink, in its parent's unit. -/
theorem not_ownCrash_inherited : ∃ p name r,
    Run (Guarded BornAnew ProcessSteps) (startedProcess recordingIni plainStartup 100) (inheritedUnit.map .work) p ∧
      p.worker.crash (faultAt ⟨9, by decide⟩) = some (name, r) ∧ p.worker.pid = 101 ∧
      name = sinkName 100 ∧ p.worker.globals.unit.handle = 1 ∧ p.forks = 1 ∧ p.opener = 0 ∧
      ¬OwnCrash p name r := by
  have hafter : ((startedProcess recordingIni plainStartup 100).afterWork inheritedUnit).map (fun p =>
      ((p.worker.crash (faultAt ⟨9, by decide⟩)).map Prod.fst, p.worker.pid, p.worker.globals.unit.handle,
        p.forks, p.opener)) = some (some (sinkName 100), 101, 1, 1, 0) := by decide +kernel
  obtain ⟨p, hp, heq⟩ := Option.map_eq_some_iff.mp hafter
  simp only [Prod.mk.injEq] at heq
  obtain ⟨hcrash, hpid, hhandle, hforks, hopener⟩ := heq
  obtain ⟨⟨name, r⟩, hcrash, hname⟩ := Option.map_eq_some_iff.mp hcrash
  have hname : name = sinkName 100 := hname
  refine ⟨p, name, r, run_afterWork hp, hcrash, hpid, hname, hhandle, hforks, hopener, fun hown => ?_⟩
  have hother := hown.name_eq
  rw [hname, hpid] at hother
  exact absurd (sinkName_inj hother) (by decide)

end CboxTelemetry.Extension
