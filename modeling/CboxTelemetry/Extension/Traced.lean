import CboxTelemetry.Extension.Described
import CboxTelemetry.Extension.Handles
import CboxTelemetry.Extension.Ids

/-!
# Trace identity

The ids that a caller gives to `begin` go through the unit, the record and the sink, and come back in the entry
that the drain makes. Each of the two is the caller's, in lower case, or null; nothing of an earlier unit comes
back, and nothing of a string that is no id (`reports_of_run`).
-/

namespace CboxTelemetry.Extension

open Crash (CrashRecord Name crashCrumbs)
open Breadcrumbs (CrumbRing Push)
open Recorder (SignalEnv)

/-! ## The context of a unit -/

/-- The context of the `begin` that opened the unit, or adopted it. A unit that the engine opened has none. -/
def noteContext (given : Option Context) (w : Worker) (a : Action) (w' : Worker) : Option Context :=
  match a with
  | .begin context e => if (w.globals.begin context (w.env e)).1 = 0 then given else context
  | _ => if w'.globals.unit.handle = w.globals.unit.handle then given else none

/-- Steps, with the context of the unit that is open. -/
def TracedSteps (s : Worker × Option Context) (a : Action) (s' : Worker × Option Context) : Prop :=
  WorkerSteps s.1 a s'.1 ∧ s'.2 = noteContext s.2 s.1 a s'.1

/-- The ids of the unit are those of its context, and a unit that can be adopted has none yet. -/
structure Identified (g : Globals) (given : Option Context) : Prop where
  traced : g.unit.Traced given
  adoptable : g.adoptable = true → g.unit.hasTrace = false ∧ g.unit.hasSpan = false
  named : g.unit.handle ≠ 0 → g.unit.handle = g.nextHandle
  closed : g.unit.handle = 0 → given = none

section
variable {g g' : Globals} {given context : Option Context} {w w' : Worker} {a : Action}

/-- A unit that is open has the handle given last. -/
theorem Identified.named_step (h : Identified g given) (hchange : HandleKept g g' ∨ HandleGiven g g') :
    g'.unit.handle ≠ 0 → g'.unit.handle = g'.nextHandle := by
  intro hopen
  obtain ⟨hnext, hunit⟩ | ⟨-, hunit⟩ := hchange
  · obtain hsame | hnone := hunit
    · rw [hsame] at hopen ⊢
      rw [hnext]
      exact h.named hopen
    · exact absurd hnone hopen
  · exact hunit

/-- A step that is no `begin`. -/
theorem Identified.change (h : Identified g given) (hchange : UnitChange g g') :
    Identified g' (if g'.unit.handle = g.unit.handle then given else none) := by
  have hnamed := h.named_step hchange.handle
  cases hchange with
  | kept hunit _ =>
    rw [if_pos (congrArg UnitState.handle hunit)]
    refine ⟨hunit ▸ h.traced, ?_, hnamed, hunit ▸ h.closed⟩
    unfold Globals.adoptable
    rw [hunit]
    exact h.adoptable
  | closed hunit _ =>
    -- There was no unit, and so no context, or the context is gone.
    have hgone : (if g'.unit.handle = g.unit.handle then given else none) = none := by
      split
      · next hsame =>
        rw [hunit] at hsame
        exact h.closed hsame.symm
      · rfl
    rw [hgone]
    refine ⟨?_, fun _ => ?_, hnamed, fun _ => rfl⟩
    · rw [hunit]
      exact UnitState.traced_none rfl rfl
    · rw [hunit]
      exact ⟨rfl, rfl⟩
  | opened hhandle htrace hspan _ =>
    have hne : g'.unit.handle ≠ g.unit.handle := by
      -- The new handle is not the old one.
      rw [hhandle]
      by_cases hopen : g.unit.handle = 0
      · rw [hopen]
        exact advanceHandle_ne _
      · rw [h.named hopen]
        exact advanceHandle_ne_self _
    rw [if_neg hne]
    exact ⟨UnitState.traced_none htrace hspan, fun _ => ⟨htrace, hspan⟩, hnamed, fun _ => rfl⟩

/-- A `begin` that is not refused. -/
theorem Identified.begins {env : CallEnv} (h : Identified g given) (hbegins : Begins (g.detectFork env) context g') :
    Identified g' context := by
  have hnamed := h.named_step hbegins.handle
  obtain ⟨hopen, hadopted⟩ := hbegins.unit
  refine ⟨?_, fun hadoptable => ?_, hnamed, fun hclosed => absurd hclosed hopen⟩
  · obtain ⟨-, hfork⟩ := detectFork_unit g env
    cases hbegins with
    | adopted unit hadoptable _ htrace hspan _ hunit _ =>
      have hnone : (g.detectFork env).unit.hasTrace = false ∧ (g.detectFork env).unit.hasSpan = false := by
        -- The unit that is adopted has no ids yet, and a child's has none either.
        obtain hsame | hcleared := hfork
        · unfold Globals.adoptable at hadoptable
          rw [hsame] at hadoptable ⊢
          exact h.adoptable hadoptable
        · rw [hcleared]
          exact ⟨rfl, rfl⟩
      rw [hunit]
      exact UnitState.traced_applyTrace (htrace.trans hnone.1) (hspan.trans hnone.2) context
    | opened unit _ htrace hspan _ hunit _ =>
      rw [hunit]
      exact UnitState.traced_applyTrace htrace hspan context
  · rw [hadopted] at hadoptable
    cases hadoptable

/-- **Every step keeps the ids with their unit.** -/
theorem Identified.step (h : Identified w.globals given) (hstep : WorkerSteps w a w') :
    Identified w'.globals (noteContext given w a w') := by
  cases a with
  | begin context e =>
    cases hstep
    show Identified (w.globals.begin context (w.env e)).2
      (if (w.globals.begin context (w.env e)).1 = 0 then given else context)
    obtain hrefused | ⟨hhandle, hbegins⟩ := begin_cases w.globals context (w.env e)
    · rw [hrefused]
      exact h
    · rw [hhandle, if_neg hbegins.unit.1]
      exact h.begins hbegins
  | _ => exact h.change (unitChange_step hstep nofun)

end

/-! ## The record -/

/-- The ids of an entry are what the unit reports. -/
theorem ids_fill (r : Recorder) (env : SignalEnv) (pid : Int) (g : Globals) :
    (entryOf (r.fill env pid g.watched)).traceId = g.unit.traceReported ∧
      (entryOf (r.fill env pid g.watched)).spanId = g.unit.spanReported := by
  have hflag : ∀ (flag : Bool), ((if flag then 1 else 0 : UInt8) ≠ 0) ↔ flag = true := by decide
  constructor
  · show (if (if g.unit.hasTrace then 1 else 0 : UInt8) ≠ 0 then some (hexEncode g.unit.traceId) else none) = _
    simp only [hflag]
    rfl
  · show (if (if g.unit.hasSpan then 1 else 0 : UInt8) ≠ 0 then some (hexEncode g.unit.spanId) else none) = _
    simp only [hflag]
    rfl

/-- The state that a record with ids is made of. -/
structure Recorded (s : Worker × Option Context) : Prop where
  identified : Identified s.1.globals s.2
  recording : Recording s.1.globals
  ring : s.1.globals.active = true → ∃ ps, s.1.globals.crumbs.Holds ps

theorem Recorded.step {s s' : Worker × Option Context} {a : Action} (h : Recorded s) (hstep : TracedSteps s a s') :
    Recorded s' := by
  obtain ⟨hw, hgiven⟩ := hstep
  obtain ⟨hactive, -, hrecording⟩ := keepsRecording_step hw
  refine ⟨?_, hrecording h.recording, fun hon => ?_⟩
  · rw [hgiven]
    exact h.identified.step hw
  · rw [hactive] at hon
    obtain ⟨ps, hholds⟩ := h.ring hon
    rw [crumbs_step hw]
    exact ⟨_, holds_foldl hholds _⟩

theorem recorded_of_run {ini : Ini} {io : StartupIo} {pid : Int} {as : List Action} {s : Worker × Option Context}
    (hrun : Run TracedSteps (startedWorker ini io pid, none) as s) : Recorded s := by
  obtain ⟨hrecording, hring⟩ := recording_minit ini io pid
  have hunit : (startedWorker ini io pid).globals.unit = .cleared := (booted_minit ini io pid).unit_eq
  have hidentified : Identified (startedWorker ini io pid).globals none := by
    refine ⟨?_, fun _ => ?_, fun hopen => absurd ?_ hopen, fun _ => rfl⟩
    · rw [hunit]
      exact UnitState.traced_none rfl rfl
    · rw [hunit]
      exact ⟨rfl, rfl⟩
    · rw [hunit]
      rfl
  have hstart : Recorded (startedWorker ini io pid, none) :=
    ⟨hidentified, hrecording, fun hon => ⟨[], hring hon⟩⟩
  exact Run.invariant (fun _ _ _ h hs => h.step hs) hstart hrun

/-- **Trace identity, end to end.** At a fatal signal between two calls, while the process has a sink that opens,
a record goes to the sink and a drain returns the entry for it. Each of its two ids is what the caller gave for
the unit that is open, in lower case, if that is an id, and null if not, or if nothing was given. -/
theorem reports_of_run {ini : Ini} {io : StartupIo} {pid : Int} {as : List Action} {w : Worker}
    {given : Option Context} (hrun : Run TracedSteps (startedWorker ini io pid, none) as (w, given))
    {name : Name} (hpath : w.globals.recorder.path = some name) {env : SignalEnv} (hopens : env.opens = true) :
    ∃ r, w.crash env = some (name, r) ∧ ReturnedAs r (entryOf r) ∧
      Reports traceIdBytes (givenString given "trace_id") (entryOf r).traceId ∧
      Reports spanIdBytes (givenString given "span_id") (entryOf r).spanId := by
  obtain ⟨hidentified, hrecording, hring⟩ := recorded_of_run hrun
  obtain ⟨hinstalled, -, -⟩ := hrecording.path name hpath
  obtain ⟨ps, hholds⟩ := hring (hrecording.installed hinstalled).1
  -- The record takes its ids from the unit.
  have hlength : (w.globals.crumbs.snapshot crashCrumbs).length ≤ crashCrumbs :=
    (CrumbRing.snapshot_length_le hholds.toShape crashCrumbs).trans (Nat.min_le_right _ _)
  have hcurrent := hrecording.fill_current hinstalled env w.pid w.globals.watched hlength
  obtain ⟨htrace, hspan⟩ := ids_fill w.globals.recorder env w.pid w.globals
  refine ⟨_, ?_, returnedAs_entryOf hcurrent, ?_, ?_⟩
  · rw [hrecording.crash_eq, if_pos hopens, hpath]
    rfl
  · rw [htrace]
    exact hidentified.traced.trace
  · rw [hspan]
    exact hidentified.traced.span

/-! ## Two units -/

/-- The state and the context after some actions. -/
def contextAfter (s : Worker × Option Context) : List Action → Option (Worker × Option Context)
  | [] => some s
  | a :: as =>
    match s.1.step a with
    | some w => contextAfter (w, noteContext s.2 s.1 a w) as
    | none => none

theorem run_contextAfter {as : List Action} {s s' : Worker × Option Context} (h : contextAfter s as = some s') :
    Run TracedSteps s as s' := by
  fun_induction contextAfter s as with
  | case1 s =>
    cases h
    exact .nil _
  | case2 s a as w hw ih =>
    have hstep : TracedSteps s a (w, noteContext s.2 s.1 a w) := ⟨hw, rfl⟩
    exact .cons hstep (ih h)
  | case3 => cases h

/-- Both ids, in lower case. -/
def earlierContext : Context :=
  [(ascii "trace_id", .string (ascii "0123456789abcdef0123456789abcdef")),
    (ascii "span_id", .string (ascii "0123456789abcdef"))]

/-- A trace id in upper case, and a span id that turns out to be none at its last digit. -/
def laterContext : Context :=
  [(ascii "trace_id", .string (ascii "4BF92F3577B34DA6A3CE929D0E0E4736")),
    (ascii "span_id", .string (ascii "00F067AA0BA902BX"))]

/-- The later of two contexts, which has a trace and no span. -/
theorem reports_of_run_later : ∃ w name r,
    Run TracedSteps (startedWorker recordingIni plainStartup 100, none)
      [.rinit none (sinkCallAt ⟨1, by decide⟩), .begin (some earlierContext) (callAt ⟨2, by decide⟩),
        .begin (some laterContext) (callAt ⟨3, by decide⟩)] (w, some laterContext) ∧
      w.crash (faultAt ⟨9, by decide⟩) = some (name, r) ∧
      (entryOf r).traceId = some (ascii "4bf92f3577b34da6a3ce929d0e0e4736") ∧ (entryOf r).spanId = none := by
  have hafter : (contextAfter (startedWorker recordingIni plainStartup 100, none)
      [.rinit none (sinkCallAt ⟨1, by decide⟩), .begin (some earlierContext) (callAt ⟨2, by decide⟩),
        .begin (some laterContext) (callAt ⟨3, by decide⟩)]).map (fun s => (s.1.globals.recorder.path, s.2)) =
      some (some "crash-100.bin".toList, some laterContext) := by decide +kernel
  obtain ⟨⟨w, given⟩, hrun, heq⟩ := Option.map_eq_some_iff.mp hafter
  simp only [Prod.mk.injEq] at heq
  obtain ⟨hpath, rfl⟩ := heq
  obtain ⟨r, hcrash, -, htrace, hspan⟩ :=
    reports_of_run (run_contextAfter hrun) hpath (show (faultAt ⟨9, by decide⟩).opens = true from rfl)
  have hid : IsId traceIdBytes (ascii "4BF92F3577B34DA6A3CE929D0E0E4736") :=
    ⟨by decide, by decide +kernel, _, List.mem_cons_self, by decide⟩
  refine ⟨w, _, r, run_contextAfter hrun, hcrash, ?_, hspan.no_id fun hex hgiven hno => ?_⟩
  · rw [htrace.id _ rfl hid]
    decide
  · cases hgiven
    exact absurd (hno.digits 88 (by decide)) (by decide)

end CboxTelemetry.Extension
