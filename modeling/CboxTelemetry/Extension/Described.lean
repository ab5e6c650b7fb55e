import CboxTelemetry.Breadcrumbs.Wrapped
import CboxTelemetry.Extension.CrashEntry
import CboxTelemetry.Extension.InFlight
import CboxTelemetry.Extension.Recording

/-!
# What a crash record describes

The handler reads the unit, the operations and the breadcrumbs as they are when the signal arrives, and the
drain reads them back. The entry says what the state was, with two exceptions (`describes_of_run`): without a
unit the duration is the time since the machine was started, because the start of no unit is zero, and the
breadcrumb that is numbered zero is left out.
-/

namespace CboxTelemetry.Extension

open Crash (CrashRecord Crumb DrainCall Item Name OwnRecord Pid Sinks crashCrumbs crashDrainMaxBytes crumbLabelMax
  encode owns sinkName)
open Breadcrumbs (CrumbRing NoTurn Push crumbs length_crumbs)
open Profiler (Instant)
open Recorder (SignalEnv)

/-! ## The description -/

/-- A hooked call of the open unit that has a slot and has not ended. -/
structure OfOpenUnit (w : Worker) (h : History) (call : Nat) (op : Begun) : Prop where
  opened : w.globals.unit.handle ≠ 0
  token : ∃ t slot, w.calls[call]? = some (some t) ∧ t.slot = some slot
  begun : h.begun[call]? = some op
  unit_eq : op.unit = some h.units

/-- What a breadcrumb of an entry says. -/
def CrumbEntry.told (c : CrumbEntry) : Bytes × Bytes × Int := (c.type, c.label, c.tsNs)

/-- What it should say. -/
def tellPush (p : Push) : Bytes × Bytes × Int :=
  (crumbTypeName p.type, (p.label.getD []).take crumbLabelMax, zendLong p.nowNs)

/-- The entry says what the state was at `now`. -/
structure Describes (entry : CrashEntry) (w : Worker) (h : History) (now : Instant) : Prop where
  unit_opened : w.globals.unit.handle ≠ 0 → entry.unit = unitTypeName w.globals.unit.type.code ∧
    entry.unitDurationNs = (now.ns - h.openedNs.toNat : Nat)
  unit_none : w.globals.unit.handle = 0 → entry.unit = ascii "none" ∧ entry.unitDurationNs = 0
  operation : ∀ call op, OfOpenUnit w h call op → (∀ call' op', OfOpenUnit w h call' op' → call' ≤ call) →
    entry.operation = some op.type.name ∧
      entry.operationElapsedNs = some ((now.ns - op.startNs.toNat : Nat) : Int)
  operation_none : (∀ call op, ¬OfOpenUnit w h call op) →
    entry.operation = none ∧ entry.operationElapsedNs = none
  breadcrumbs : entry.breadcrumbs.map CrumbEntry.told = (h.pushes.drop (h.pushes.length -
    min crashCrumbs (min h.pushes.length w.globals.crumbs.capacity))).map tellPush

/-- A drain returns the entry for the record: from any place in a sink of records, if its budget gets it
there. -/
def ReturnedAs (r : CrashRecord) (entry : CrashEntry) : Prop :=
  ∀ (euid : Nat) (call : DrainCall) (p : Pid) (others : List Name) (c : Sinks) (before after : List Item),
    call.Reliable euid → call.targets = sinkName p.toInt :: others → sinkName p.toInt ∉ others →
    c (sinkName p.toInt) = some (encode before ++ r.encode ++ encode after) →
    (encode before ++ r.encode ++ encode after).length ≤ crashDrainMaxBytes → (owns before).length < call.max →
    (drainedEntries (call.run (c.toDir euid)) (sinkName p.toInt))[(owns before).length]? = some entry

/-- What is returned for a record that is current. -/
theorem returnedAs_entryOf {r : CrashRecord} (hcurrent : r.Current) : ReturnedAs r (entryOf r) := by
  intro euid call p others c before after hcall htargets honce hfile hcap hbudget
  have hitems : encode before ++ r.encode ++ encode after =
      encode (before ++ .own hcurrent.own :: after) := by
    rw [Crash.encode_append, Crash.encode_cons, List.append_assoc]
    rfl
  rw [hitems] at hfile hcap
  obtain ⟨hhanded, -⟩ := Crash.drain_decodes hcall htargets honce hfile hcap
  have howns : owns (before ++ .own hcurrent.own :: after) = owns before ++ hcurrent.own :: owns after := by
    rw [Crash.owns_append, Crash.owns_own]
  have hget : (owns before ++ hcurrent.own :: owns after)[(owns before).length]? = some hcurrent.own := by
    simp
  have hlt : (owns before).length <
      min call.max (owns (before ++ .own hcurrent.own :: after)).length := by
    rw [howns, List.length_append, List.length_cons]
    omega
  rw [drainedEntries, hhanded, List.getElem?_map, List.getElem?_map, List.getElem?_take, if_pos hlt, howns, hget]
  exact congrArg some (drainVisitEntry_encode r)

/-! ## The state -/

/-- The state that a record is made of, and the history. -/
structure Told (w : Worker) (h : History) : Prop where
  accounted : Accounted w h
  steady : Steady w.globals
  slotted : Slotted w h
  recording : Recording w.globals
  unit_none : w.globals.unit.handle = 0 → w.globals.unit = .cleared
  unit_opened : w.globals.unit.handle ≠ 0 → w.globals.unit.startNs = h.openedNs
  ring : w.globals.active = true → w.globals.crumbs.Holds h.pushes

variable {w w' : Worker} {h : History} {a : Action}

/-- A hook leaves the unit alone. -/
theorem hook_unit (hhook : a.isHook = true) (hstep : WorkerSteps w a w') :
    w'.globals.unit = w.globals.unit ∧ w'.globals.nextHandle = w.globals.nextHandle := by
  cases a with
  | opBegin type now =>
    cases hstep
    obtain ⟨hunit, -, -, hnext⟩ := noteOpBegin_keeps w.globals type now
    exact ⟨hunit, hnext⟩
  | opEnd call now =>
    simp only [WorkerSteps, Worker.step] at hstep
    split at hstep
    · next t _ =>
      cases hstep
      obtain ⟨hunit, hnext, -⟩ := noteOpEnd_eq w.globals t now
      exact ⟨hunit, hnext⟩
    · cases hstep
  | _ => cases hhook

/-- Nothing is left of a unit that is not open. -/
theorem closedUnit_step (hnone : w.globals.unit.handle = 0 → w.globals.unit = .cleared)
    (hstep : WorkerSteps w a w') : w'.globals.unit.handle = 0 → w'.globals.unit = .cleared := by
  intro hclosed
  cases hhook : a.isHook with
  | true =>
    obtain ⟨hunit, -⟩ := hook_unit hhook hstep
    rw [hunit] at hclosed ⊢
    exact hnone hclosed
  | false =>
    obtain ⟨-, k, -, heffect⟩ := unitEffect_step hstep hhook
    generalize w'.globals = g' at heffect hclosed
    cases heffect with
    | kept _ _ hhandle _ hunit _ =>
      rw [hhandle] at hclosed
      rw [hunit hclosed, hnone hclosed]
    | closed _ _ _ _ hunit _ => exact hunit
    | opened _ _ _ _ hhandle _ _ => exact absurd hclosed hhandle

/-- The time at which the unit was opened, after a step. -/
theorem openedUnit_step (hopened : w.globals.unit.handle ≠ 0 → w.globals.unit.startNs = h.openedNs)
    (hstep : WorkerSteps w a w') :
    w'.globals.unit.handle ≠ 0 → w'.globals.unit.startNs = (h.note w a w').openedNs := by
  intro hopen
  simp only [History.note]
  cases hhook : a.isHook with
  -- A hook opens nothing, and a unit that another step opens starts when the step reads the clock.
  | true =>
    obtain ⟨hunit, hnext⟩ := hook_unit hhook hstep
    rw [hunit] at hopen ⊢
    rw [if_pos hnext, hopened hopen]
  | false =>
    obtain ⟨-, k, -, heffect⟩ := unitEffect_step hstep hhook
    generalize w'.globals = g' at heffect hopen
    cases heffect with
    | kept _ _ hhandle hstart _ hnext =>
      rw [hhandle] at hopen
      rw [if_pos hnext, hstart, hopened hopen]
    | closed _ _ _ _ hunit _ =>
      refine absurd ?_ hopen
      rw [hunit]
      rfl
    | opened _ _ _ _ _ hstart hnext => rw [if_neg hnext, hstart]

/-- The ring holds what is pushed. -/
theorem holds_foldl {r : CrumbRing} {ps : List Push} (h : r.Holds ps) (qs : List Push) :
    (qs.foldl CrumbRing.push r).Holds (ps ++ qs) := by
  induction qs generalizing r ps with
  | nil => rwa [List.append_nil]
  | cons q qs ih =>
    have hrest := ih (h.push q)
    rwa [List.append_assoc, List.singleton_append] at hrest

/-- **Every step keeps the state told.** -/
theorem Told.step {s s' : Worker × History} (ht : Told s.1 s.2)
    (hstep : Guarded EndsRecent HistorySteps s a s') : Told s'.1 s'.2 := by
  have haccounted := ht.accounted.step hstep
  have hslotted := ht.slotted.step ht.accounted ht.steady hstep
  obtain ⟨w, h⟩ := s
  obtain ⟨w', h'⟩ := s'
  obtain ⟨-, hw, hnote⟩ := hstep
  have hnote : h' = h.note w a w' := hnote
  subst hnote
  obtain ⟨hactive, -, hrecording⟩ := keepsRecording_step hw
  refine ⟨haccounted, ht.steady.step hw, hslotted, hrecording ht.recording, closedUnit_step ht.unit_none hw,
    openedUnit_step ht.unit_opened hw, fun hon => ?_⟩
  have hon : w'.globals.active = true := hon
  rw [hactive] at hon
  show w'.globals.crumbs.Holds (h.pushes ++ a.pushes w w')
  rw [crumbs_step hw]
  exact holds_foldl (ht.ring hon) _

/-- No slot is taken at first. -/
theorem slotted_started (ini : Ini) (io : StartupIo) (pid : Int) : Slotted (startedWorker ini io pid) .empty := by
  have hops : (startedWorker ini io pid).globals.ops = .cleared := (booted_minit ini io pid).ops_eq
  apply Slots.slotted
  rw [hops]
  refine .empty rfl (fun _ _ hf => Slots.type_of_cleared rfl hf) ?_
  rintro call slot f ⟨op, hcall, -⟩
  cases hcall.begun

/-- The history is told after every run. -/
theorem told_of_guarded {ini : Ini} {io : StartupIo} {pid : Int} {as : List Action} {s : Worker × History}
    (hrun : Run (Guarded EndsRecent HistorySteps) (startedWorker ini io pid, .empty) as s) : Told s.1 s.2 := by
  have hbooted := booted_minit ini io pid
  obtain ⟨hrecording, hring⟩ := recording_minit ini io pid
  have hunit : (startedWorker ini io pid).globals.unit = .cleared := hbooted.unit_eq
  have hstart : Told (startedWorker ini io pid) .empty := by
    refine ⟨accounted_started ini io pid, hbooted.steady, slotted_started ini io pid, hrecording, fun _ => hunit,
      fun hopen => absurd ?_ hopen, hring⟩
    rw [hunit]
    rfl
  exact @Run.invariant _ _ _ _ _ _ (fun s => Told s.1 s.2) (fun _ _ _ h hs => h.step hs) hstart hrun

/-- The calls of the open unit are those with a slot in the operations as they are now. -/
theorem Told.ofOpenUnit_iff (ht : Told w h) {call : Nat} {op : Begun} :
    OfOpenUnit w h call op ↔ ∃ slot, InFlight w h call slot op := by
  constructor
  · rintro ⟨hopen, ⟨t, slot, hcall, hslot⟩, hop, hunit⟩
    have htimely := ht.accounted.begun op (List.mem_of_getElem? hop)
    exact ⟨slot, ⟨t, hcall, hslot⟩, hop, (htimely.current_iff hopen).mp hunit⟩
  · rintro ⟨slot, hcall⟩
    have hopen : w.globals.unit.handle ≠ 0 := fun hclosed =>
      ht.slotted.none_of_closed ht.steady hclosed _ _ _ hcall
    have htimely := ht.accounted.begun op (List.mem_of_getElem? hcall.begun)
    obtain ⟨t, htoken, hslot⟩ := hcall.token
    exact ⟨hopen, ⟨t, slot, htoken, hslot⟩, hcall.begun, (htimely.current_iff hopen).mpr hcall.recent⟩

/-! ## The parts of the entry -/

section
variable {r : Recorder} {env : SignalEnv} {pid : Int} {now : Instant}

theorem clock_toNat (now : Instant) : (clock now).toNat = now.ns := by
  have hlt := now.lt
  rw [clock, UInt64.toNat_ofNat', Nat.mod_eq_of_lt (by omega)]

/-- A time since `start`. -/
theorem elapsedLong_clock (start : UInt64) (now : Instant) :
    elapsedLong start (clock now) = (now.ns - start.toNat : Nat) := by
  rw [elapsedLong_eq _ _ (by rw [clock_toNat]; exact now.lt), clock_toNat]

/-- The breadcrumbs of an entry are those of the snapshot. -/
theorem breadcrumbs_fill (r : Recorder) (env : SignalEnv) (pid : Int) (watched : Recorder.Watched)
    (hlength : (watched.crumbs.snapshot crashCrumbs).length ≤ crashCrumbs) :
    (entryOf (r.fill env pid watched)).breadcrumbs = (watched.crumbs.snapshot crashCrumbs).map crumbEntry := by
  generalize hsnapshot : watched.crumbs.snapshot crashCrumbs = cs at hlength
  have hcount : (UInt32.ofNat cs.length).toNat = cs.length := by
    rw [UInt32.toNat_ofNat', Nat.mod_eq_of_lt]
    exact Nat.lt_of_le_of_lt hlength (by decide)
  have hcrumbs : (Vector.ofFn fun i : Fin 32 => cs.getD i (r.record.crumbs.get i)).toList.take cs.length = cs := by
    refine List.ext_getElem? fun i => ?_
    rw [List.getElem?_take]
    split
    · next hlt =>
      have hbound : i < 32 := Nat.lt_of_lt_of_le hlt hlength
      rw [Vector.getElem?_toList, Vector.getElem?_ofFn, dif_pos hbound, List.getD_eq_getElem?_getD,
        List.getElem?_eq_getElem hlt]
      rfl
    · next hge => rw [List.getElem?_eq_none (Nat.not_lt.mp hge)]
  unfold entryOf Recorder.fill
  simp only [hsnapshot, hcount, hcrumbs]

/-- An entry is read back as its push was. -/
theorem told_crumbEntry (p : Push) (seq : UInt32) : (crumbEntry (p.crumb seq)).told = tellPush p := by
  have hcut := p.length_cutLabel
  have hlen : (p.crumb seq).labelLen.toNat = min 48 (p.label.getD []).length := by
    show (UInt16.ofNat p.cutLabel.length).toNat = _
    rw [UInt16.toNat_ofNat', Nat.mod_eq_of_lt (by omega), hcut]
  have hlabel : (p.crumb seq).label.toList = _ := p.toList_padLabel
  have hshort : ¬crumbLabelMax < min 48 (p.label.getD []).length := by
    show ¬48 < _
    omega
  unfold CrumbEntry.told crumbEntry tellPush
  simp only [hlen, hlabel, if_neg hshort]
  have htake : (List.take 48 (p.label.getD []) ++ List.replicate (48 - (p.label.getD []).length) 0).take
      (min 48 (p.label.getD []).length) = (p.label.getD []).take crumbLabelMax :=
    List.take_left' List.length_take
  rw [htake]
  rfl

/-- **The breadcrumbs of an entry** are the last ones, if and only if none of them is numbered zero. -/
theorem breadcrumbs_iff {ring : CrumbRing} {ps : List Push} (hholds : ring.Holds ps) :
    (((ring.snapshot crashCrumbs).map crumbEntry).map CrumbEntry.told =
      (ps.drop (ps.length - ring.wanted ps.length crashCrumbs)).map tellPush) ↔
        NoTurn ps.length (ring.wanted ps.length crashCrumbs) := by
  have hwanted : ring.wanted ps.length crashCrumbs ≤ ps.length := Nat.min_le_left _ _
  rw [← hholds.snapshot_complete_iff]
  constructor
  -- The snapshot is complete exactly when as many crumbs come as were wanted.
  · intro heq
    have hlength := congrArg List.length heq
    rw [List.length_map, List.length_map, List.length_map, List.length_drop] at hlength
    omega
  · intro hcomplete
    rw [hholds.snapshot_of_noTurn (hholds.snapshot_complete_iff.mp hcomplete), List.map_map, List.map_drop,
      List.map_drop]
    congr 1
    refine List.ext_getElem? fun i => ?_
    rw [List.getElem?_map, List.getElem?_map, Breadcrumbs.getElem?_crumbs]
    cases ps[i]? with
    | none => rfl
    | some p => exact congrArg some (told_crumbEntry p _)

end

/-- The unit of an entry. Without one, the duration is what the clock says. -/
theorem Told.unit_iff (ht : Told w h) (env : SignalEnv) {now : Instant} (hnow : env.monotonicNs = clock now) :
    let entry := entryOf (w.globals.recorder.fill env w.pid w.globals.watched)
    (w.globals.unit.handle ≠ 0 → entry.unit = unitTypeName w.globals.unit.type.code ∧
      entry.unitDurationNs = (now.ns - h.openedNs.toNat : Nat)) ∧
    (w.globals.unit.handle = 0 → entry.unit = ascii "none" ∧ entry.unitDurationNs = now.ns) := by
  intro entry
  have hduration : entry.unitDurationNs = (now.ns - w.globals.unit.startNs.toNat : Nat) := by
    show elapsedLong w.globals.unit.startNs env.monotonicNs = _
    rw [hnow, elapsedLong_clock]
  refine ⟨fun hopen => ⟨rfl, ?_⟩, fun hclosed => ?_⟩
  · rw [hduration, ht.unit_opened hopen]
  · have hunit := ht.unit_none hclosed
    refine ⟨?_, ?_⟩
    · show unitTypeName w.globals.unit.type.code = _
      rw [hunit]
      rfl
    · rw [hduration, hunit]
      rfl

/-- The operation of an entry. -/
theorem Told.operation_eq (ht : Told w h) (env : SignalEnv) {now : Instant} (hnow : env.monotonicNs = clock now) :
    let entry := entryOf (w.globals.recorder.fill env w.pid w.globals.watched)
    (∀ call op, OfOpenUnit w h call op → (∀ call' op', OfOpenUnit w h call' op' → call' ≤ call) →
      entry.operation = some op.type.name ∧
        entry.operationElapsedNs = some ((now.ns - op.startNs.toNat : Nat) : Int)) ∧
    ((∀ call op, ¬OfOpenUnit w h call op) → entry.operation = none ∧ entry.operationElapsedNs = none) := by
  intro entry
  have hoperation : entry.operation =
      if w.globals.ops.opsCurrent = .none then none else some w.globals.ops.opsCurrent.name :=
    opNameOf_code w.globals.ops.opsCurrent
  have helapsed : entry.operationElapsedNs =
      entry.operation.map fun _ => elapsedLong w.globals.ops.opsCurrentStart env.monotonicNs := rfl
  refine ⟨fun call op hcall hlast => ?_, fun hnone => ?_⟩
  · obtain ⟨slot, hslot⟩ := ht.ofOpenUnit_iff.mp hcall
    obtain ⟨htype, hstart⟩ := ht.slotted.current hslot fun call' slot' op' hcall' =>
      -- The innermost call that has a slot is the one that was begun last.
      hlast call' op' (ht.ofOpenUnit_iff.mpr ⟨slot', hcall'⟩)
    have hused := (ht.slotted.held call slot op hslot).2
    rw [htype, if_neg hused] at hoperation
    rw [hoperation, Option.map_some, hstart, hnow, elapsedLong_clock] at helapsed
    exact ⟨hoperation, helapsed⟩
  · have hcurrent := ht.slotted.current_none fun call slot op hcall =>
      hnone call op (ht.ofOpenUnit_iff.mpr ⟨slot, hcall⟩)
    rw [hcurrent, if_pos rfl] at hoperation
    rw [hoperation] at helapsed
    exact ⟨hoperation, helapsed⟩

/-! ## The theorem -/

/-- The state is one that a record describes: there is a unit, and no breadcrumb among the last is numbered
zero. -/
def Describable (w : Worker) (h : History) (now : Instant) : Prop :=
  (w.globals.unit.handle ≠ 0 ∨ now.ns = 0) ∧
    NoTurn h.pushes.length (w.globals.crumbs.wanted h.pushes.length crashCrumbs)

/-- **What an entry says.** At a fatal signal between two calls, while the process has a sink that opens, a
record goes to the sink, a drain returns the entry for it, and the entry says what the state was if and only if
the state is one that can be described. -/
theorem describes_of_run {ini : Ini} {io : StartupIo} {pid : Int} {as : List Action} {w : Worker}
    {h : History} (hrun : Run (Guarded EndsRecent HistorySteps) (startedWorker ini io pid, .empty) as (w, h))
    {name : Name} (hpath : w.globals.recorder.path = some name) {env : SignalEnv} (hopens : env.opens = true)
    {now : Instant} (hnow : env.monotonicNs = clock now) :
    ∃ r, w.crash env = some (name, r) ∧ ReturnedAs r (entryOf r) ∧
      (Describes (entryOf r) w h now ↔ Describable w h now) := by
  have ht : Told w h := told_of_guarded hrun
  obtain ⟨hinstalled, -, -⟩ := ht.recording.path name hpath
  have hholds := ht.ring (ht.recording.installed hinstalled).1
  have hlength : (w.globals.crumbs.snapshot crashCrumbs).length ≤ crashCrumbs :=
    (CrumbRing.snapshot_length_le hholds.toShape crashCrumbs).trans (Nat.min_le_right _ _)
  have hcurrent := ht.recording.fill_current hinstalled env w.pid w.globals.watched hlength
  refine ⟨_, ?_, returnedAs_entryOf hcurrent, ?_⟩
  · rw [ht.recording.crash_eq, if_pos hopens, hpath]
    rfl
  -- Each part of the entry is read off what the worker holds.
  · obtain ⟨hopened, hnone⟩ := ht.unit_iff env hnow
    obtain ⟨hoperation, hidle⟩ := ht.operation_eq env hnow
    have hlast := breadcrumbs_iff hholds
    have hbreadcrumbs := breadcrumbs_fill w.globals.recorder env w.pid w.globals.watched hlength
    have hwanted : min crashCrumbs (min h.pushes.length w.globals.crumbs.capacity) =
        w.globals.crumbs.wanted h.pushes.length crashCrumbs := by
      rw [CrumbRing.wanted]
      omega
    constructor
    · intro hdescribes
      refine ⟨?_, ?_⟩
      · rw [or_iff_not_imp_left]
        intro hclosed
        have hzero := (hdescribes.unit_none (not_not.mp hclosed)).2
        rw [(hnone (not_not.mp hclosed)).2] at hzero
        omega
      · have hcrumbs := hdescribes.breadcrumbs
        rw [hbreadcrumbs, hwanted] at hcrumbs
        exact hlast.mp hcrumbs
    · rintro ⟨hunit, hturn⟩
      refine ⟨hopened, fun hclosed => ?_, hoperation, hidle, ?_⟩
      · obtain ⟨hname, hduration⟩ := hnone hclosed
        rw [hunit.resolve_left (not_not.mpr hclosed)] at hduration
        exact ⟨hname, hduration⟩
      · rw [hbreadcrumbs, hwanted]
        exact hlast.mpr hturn

/-! ## Two crashes -/

/-- A recorder, and no units but those that `begin` opens. -/
def recordingIni : Ini := { autoIni with crashEnabled := true, crashDir := some (ascii "/tmp"), autoStart := false }

/-- A call that is given the recorder's directory. -/
def sinkCallAt (now : Instant) : CallEnv := { callAt now with sink := ⟨some "/tmp/0".toList, true⟩ }

/-- A segmentation fault. -/
def faultAt (now : Instant) : SignalEnv where
  signal := 11
  siCode := 1
  faultAddress := 0
  programCounter := 0
  realtimeNs := 0
  monotonicNs := clock now
  opens := true

/-- The start of a request, and a unit that waits for an answer. -/
def waitingCalls : List Action :=
  [.rinit none (sinkCallAt 1), .begin none (callAt 2), .opBegin .curlExec 4]

/-- What of a state a description depends on. -/
def crashView (s : Worker × History) : UInt32 × Option Name × Nat × Nat :=
  (s.1.globals.unit.handle, s.1.globals.recorder.path, s.2.pushes.length, s.1.globals.crumbs.capacity)

/-- A fault in an operation that waits. -/
theorem describes_of_run_waiting : ∃ w h name r,
    Run (Guarded EndsRecent HistorySteps) (startedWorker recordingIni plainStartup 100, .empty) waitingCalls (w, h) ∧
      w.crash (faultAt ⟨9, by decide⟩) = some (name, r) ∧ Describes (entryOf r) w h ⟨9, by decide⟩ := by
  have hreplay : (replay (startedWorker recordingIni plainStartup 100, .empty) waitingCalls).map crashView =
      some (1, some "crash-100.bin".toList, 2, 16) := by decide +kernel
  obtain ⟨⟨w, h⟩, hrun, heq⟩ := Option.map_eq_some_iff.mp hreplay
  simp only [crashView, Prod.mk.injEq] at heq
  obtain ⟨hhandle, hpath, hpushes, -⟩ := heq
  obtain ⟨r, hcrash, -, hdescribes⟩ :=
    describes_of_run (run_replay hrun) hpath (show (faultAt ⟨9, by decide⟩).opens = true from rfl) rfl
  refine ⟨w, h, _, r, run_replay hrun, hcrash, hdescribes.mpr ⟨.inl ?_, .inl ?_⟩⟩
  · rw [hhandle]
    decide
  · rw [hpushes]
    decide

/-- Between two units, the entry has the time since the machine was started. -/
theorem not_describes_idle : ∃ w h name r,
    Run (Guarded EndsRecent HistorySteps) (startedWorker recordingIni plainStartup 100, .empty)
      [.rinit none (sinkCallAt ⟨1, by decide⟩)] (w, h) ∧ w.globals.unit.handle = 0 ∧
      w.crash (faultAt ⟨9, by decide⟩) = some (name, r) ∧ (entryOf r).unit = ascii "none" ∧
      (entryOf r).unitDurationNs = 9 ∧ ¬Describes (entryOf r) w h ⟨9, by decide⟩ := by
  have hreplay : (replay (startedWorker recordingIni plainStartup 100, .empty)
      [.rinit none (sinkCallAt ⟨1, by decide⟩)]).map (fun s => (s.1.globals.unit.handle,
        (s.1.crash (faultAt ⟨9, by decide⟩)).map fun c => ((entryOf c.2).unit, (entryOf c.2).unitDurationNs))) =
      some (0, some (ascii "none", 9)) := by decide +kernel
  obtain ⟨⟨w, h⟩, hrun, heq⟩ := Option.map_eq_some_iff.mp hreplay
  simp only [Prod.mk.injEq] at heq
  obtain ⟨hhandle, hcrash⟩ := heq
  obtain ⟨⟨name, r⟩, hcrash, hentry⟩ := Option.map_eq_some_iff.mp hcrash
  simp only [Prod.mk.injEq] at hentry
  obtain ⟨hunit, hduration⟩ := hentry
  refine ⟨w, h, name, r, run_replay hrun, hhandle, hcrash, hunit, hduration, fun hdescribes => ?_⟩
  have hzero := (hdescribes.unit_none hhandle).2
  rw [hduration] at hzero
  exact absurd hzero (by decide)

end CboxTelemetry.Extension
