import CboxTelemetry.Extension.Effects
import CboxTelemetry.Extension.Forks

/-!
# What happened

`History` goes with a run of a worker and is not kept by the program: the units that were opened, the hooked
calls with the unit they began and ended in, and the breadcrumbs that were pushed. A claim about what the
extension reports is a claim about its state and the history.
-/

namespace CboxTelemetry.Extension

open Breadcrumbs (CrumbRing Push)

/-- A hooked call as it began: in which unit, if there was one, and after how many resets of the operations.
Units are counted. -/
structure Begun where
  type : OpType
  startNs : UInt64
  unit : Option Nat
  resets : Nat

/-- A hooked call that has ended, and in which unit. -/
structure Ended where
  op : Begun
  endNs : UInt64
  unit : Option Nat

/-- The time of a call; none if the clock has gone back. -/
def Ended.duration (e : Ended) : Nat := e.endNs.toNat - e.op.startNs.toNat

/-- The units opened, when the last of them was, the resets, the calls as they began, those that have ended
(the last one first), and the breadcrumbs. -/
structure History where
  units : Nat
  openedNs : UInt64
  resets : Nat
  begun : List Begun
  ended : List Ended
  pushes : List Push

/-- The breadcrumb of a kind, with a code and a label. -/
def crumbPush (kind code : UInt8) (label : Bytes) (now : UInt64) : Push := ⟨kind, code, some label, now⟩

/-- The breadcrumbs of a step: at both ends of a hooked call, when a unit is opened, and when it is
finished. -/
def Action.pushes (a : Action) (w w' : Worker) : List Push :=
  match a with
  | .opBegin type now => [crumbPush Globals.crumbOpBegin type.code type.name now]
  | .opEnd call now =>
    match w.calls[call]? with
    | some (some t) => [crumbPush Globals.crumbOpEnd t.type.code t.type.name now]
    | _ => []
  | .finish handle includeProfile includeStacks e =>
    if (w.globals.finish handle includeProfile includeStacks (w.env e)).1.isSome then
      [crumbPush Globals.crumbUnitEnd w.globals.unit.type.code (unitTypeName w.globals.unit.type.code) a.clockNow]
    else []
  | _ =>
    if w'.globals.nextHandle = w.globals.nextHandle then []
    else [crumbPush Globals.crumbUnitBegin w'.globals.unit.type.code (unitTypeName w'.globals.unit.type.code)
      a.clockNow]

namespace History

def empty : History := ⟨0, 0, 0, [], [], []⟩

/-- The unit that is open. -/
def current (h : History) (g : Globals) : Option Nat := if g.unit.handle = 0 then none else some h.units

/-- The calls, the units and the resets after a step. A step opens a unit when it gives out a handle, and the
generation tells how many resets it has made. -/
def noteCalls (h : History) (w : Worker) (a : Action) (w' : Worker) : History :=
  match a with
  | .opBegin type now => { h with begun := h.begun ++ [⟨type, now, h.current w.globals, h.resets⟩] }
  | .opEnd call now =>
    match h.begun[call]? with
    | some op => { h with ended := ⟨op, now, h.current w.globals⟩ :: h.ended }
    | none => h
  | _ => { h with
    units := if w'.globals.nextHandle = w.globals.nextHandle then h.units else h.units + 1
    resets := h.resets + (w'.globals.ops.generation - w.globals.ops.generation).toNat }

/-- The history after a step. -/
def note (h : History) (w : Worker) (a : Action) (w' : Worker) : History := { h.noteCalls w a w' with
  openedNs := if w'.globals.nextHandle = w.globals.nextHandle then h.openedNs else a.clockNow
  pushes := h.pushes ++ a.pushes w w' }

end History

/-- Steps, with the history. -/
def HistorySteps (s : Worker × History) (a : Action) (s' : Worker × History) : Prop :=
  WorkerSteps s.1 a s'.1 ∧ s'.2 = s.2.note s.1 a s'.1

/-- No call ends after `2 ^ 32` resets or more. -/
def EndsRecent (s : Worker × History) : Action → Prop
  | .opEnd call _ => ∀ op, s.2.begun[call]? = some op → s.2.resets < op.resets + 2 ^ 32
  | _ => True

/-! ## The breadcrumbs of a step -/

section
variable {g g' : Globals} {env : CallEnv}

/-- A look pushes nothing. -/
theorem detectFork_crumbs (g : Globals) (env : CallEnv) : (g.detectFork env).crumbs = g.crumbs := by
  unfold Globals.detectFork
  split
  · rfl
  · split <;> rfl

theorem unitOpen_crumbs (g : Globals) (request : UnitRequest) (automatic : Bool) (env : CallEnv) :
    (g.unitOpen request automatic env).crumbs = g.crumbs.push (crumbPush Globals.crumbUnitBegin request.type.code
      (unitTypeName request.type.code) (clock env.now)) := by
  unfold Globals.unitOpen
  simp only
  split <;> rfl

/-- Nor does an adoption. -/
theorem adopt_crumbs (g : Globals) (context : Option Context) (env : CallEnv) :
    (g.adopt context env).crumbs = g.crumbs ∧ (g.adopt context env).nextHandle = g.nextHandle := by
  unfold Globals.adopt
  simp only
  split
  · exact ⟨rfl, rfl⟩
  · split <;> exact ⟨rfl, rfl⟩

/-- A call that may open a unit pushes a breadcrumb if it does. -/
def PushesIfOpened (now : UInt64) (g g' : Globals) : Prop :=
  g'.nextHandle = g.nextHandle ∧ g'.crumbs = g.crumbs ∨
  g'.nextHandle ≠ g.nextHandle ∧ g'.crumbs = g.crumbs.push (crumbPush Globals.crumbUnitBegin g'.unit.type.code
    (unitTypeName g'.unit.type.code) now)

/-- A unit that is opened pushes its begin. -/
theorem pushes_unitOpen (g : Globals) (request : UnitRequest) (automatic : Bool) (env : CallEnv) :
    PushesIfOpened (clock env.now) g (g.unitOpen request automatic env) := by
  have hopened := unitOpened_unitOpen g request automatic env
  refine .inr ⟨?_, ?_⟩
  · rw [hopened.nextHandle_eq]
    exact advanceHandle_ne_self _
  · rw [unitOpen_crumbs, hopened.type_eq]

theorem pushes_beginUnit (g : Globals) (context : Option Context) (env : CallEnv) :
    PushesIfOpened (clock env.now) g (g.beginUnit context env) := by
  have htraced : ∀ g g' : Globals, PushesIfOpened (clock env.now) g g' →
      PushesIfOpened (clock env.now) g { g' with unit := g'.unit.applyTrace context } := by
    intro g g' h
    unfold PushesIfOpened
    rw [show ({ g' with unit := g'.unit.applyTrace context } : Globals).unit.type = g'.unit.type from
      (g'.unit.applyTrace_same context).type_eq]
    exact h
  unfold Globals.beginUnit
  split
  · exact .inl (adopt_crumbs g context env).symm
  · simp only
    split
    · have hstopped := pushes_unitOpen { g with prof := g.prof.stop } (g.readContext context) false env
      exact htraced _ _ hstopped
    · exact htraced _ _ (pushes_unitOpen g _ false env)

/-- So does a request. -/
theorem RequestStarted.pushes {sapi : Option Bytes} (h : RequestStarted g sapi env g') :
    PushesIfOpened (clock env.now) g g' := by
  cases h with
  | quiet => exact .inl ⟨rfl, rfl⟩
  | opened _ _ =>
    have hopened := pushes_unitOpen { g with recorder := requestRecorder g env }
      ⟨Globals.unitTypeForSapi sapi, true, true, g.periodUs, g.maxDepth⟩ true env
    exact hopened

/-- A look for a fork pushes nothing. -/
theorem PushesIfOpened.afterFork {now : UInt64} (h : PushesIfOpened now (g.detectFork env) g') :
    PushesIfOpened now g g' := by
  obtain ⟨-, -, -, hnext⟩ := unitEffect_detectFork g env now
  unfold PushesIfOpened at h ⊢
  rwa [hnext, detectFork_crumbs] at h

/-- The last breadcrumb of a unit that is finished. -/
theorem finish_crumbs (g : Globals) (handle : Int) (includeProfile includeStacks : Bool) (env : CallEnv) :
    (g.finish handle includeProfile includeStacks env).2.crumbs =
      if (g.finish handle includeProfile includeStacks env).1.isSome then
        g.crumbs.push (crumbPush Globals.crumbUnitEnd g.unit.type.code (unitTypeName g.unit.type.code)
          (clock env.now))
      else g.crumbs := by
  have hfork : (g.detectFork env).unit = g.unit ∨ (g.detectFork env).unit.handle = 0 := by
    unfold Globals.detectFork
    split
    · exact .inl rfl
    · split
      · exact .inl rfl
      · exact .inr rfl
  have hcrumbs := detectFork_crumbs g env
  unfold Globals.finish
  generalize g.detectFork env = g' at hfork hcrumbs
  unfold Globals.finishUnit
  split
  · exact hcrumbs
  · next hopen =>
    split
    · exact hcrumbs
    · -- A unit that is finished is the one there was before the look for a fork.
      obtain hsame | hnone := hfork
      · rw [← hsame, ← hcrumbs]
        rfl
      · simp only [hnone, decide_true, Bool.or_true, not_true_eq_false] at hopen

theorem crumbs_foldl (now : UInt64) (h : PushesIfOpened now g g') : g'.crumbs =
    (if g'.nextHandle = g.nextHandle then [] else [crumbPush Globals.crumbUnitBegin g'.unit.type.code
      (unitTypeName g'.unit.type.code) now]).foldl CrumbRing.push g.crumbs := by
  rcases h with ⟨hnext, hcrumbs⟩ | ⟨hnext, hcrumbs⟩
  · rw [if_pos hnext, hcrumbs]
    rfl
  · rw [if_neg hnext, hcrumbs]
    rfl

/-- **The ring after a step** has the breadcrumbs of the step. -/
theorem crumbs_step {w w' : Worker} {a : Action} (hstep : WorkerSteps w a w') :
    w'.globals.crumbs = (a.pushes w w').foldl CrumbRing.push w.globals.crumbs := by
  -- One push for a unit that begins or ends, and one for each end of an operation.
  cases a with
  | rinit sapi e =>
    cases hstep
    exact crumbs_foldl _ (started_rinit w.globals sapi (w.env e)).pushes.afterFork
  | rshutdown =>
    cases hstep
    refine crumbs_foldl 0 (.inl ?_)
    show w.globals.rshutdown.nextHandle = w.globals.nextHandle ∧ w.globals.rshutdown.crumbs = w.globals.crumbs
    unfold Globals.rshutdown
    split <;> exact ⟨rfl, rfl⟩
  | begin context e =>
    cases hstep
    refine crumbs_foldl (clock e.now) ?_
    show PushesIfOpened _ w.globals (w.globals.begin context (w.env e)).2
    unfold Globals.begin
    split
    · exact .inl ⟨rfl, rfl⟩
    · exact (pushes_beginUnit _ context (w.env e)).afterFork
  | finish handle p s e =>
    cases hstep
    refine (finish_crumbs w.globals handle p s (w.env e)).trans ?_
    simp only [Action.pushes]
    split <;> rfl
  | status e =>
    cases hstep
    refine crumbs_foldl (clock e.now) (.inl ?_)
    obtain ⟨-, -, -, hnext⟩ := unitEffect_detectFork w.globals (w.env e) 0
    exact ⟨hnext, detectFork_crumbs w.globals (w.env e)⟩
  | iniSet periodUs maxDepth =>
    cases hstep
    exact crumbs_foldl 0 (.inl ⟨rfl, rfl⟩)
  | opBegin type now =>
    cases hstep
    show (w.globals.noteOpBegin type now).2.crumbs = _
    rw [Globals.noteOpBegin_frame]
    rfl
  | opEnd call now =>
    simp only [WorkerSteps, Worker.step] at hstep
    split at hstep
    · next t hcall =>
      cases hstep
      simp only [Action.pushes, hcall]
      show (w.globals.noteOpEnd t now).crumbs = _
      rw [Globals.noteOpEnd_frame]
      rfl
    · cases hstep
  | tick ticks =>
    cases hstep
    exact crumbs_foldl 0 (.inl ⟨rfl, rfl⟩)
  | interrupt stack between now =>
    simp only [WorkerSteps, Worker.step] at hstep
    split at hstep
    · cases hstep
      exact crumbs_foldl 0 (.inl ⟨rfl, rfl⟩)
    · cases hstep
  | fork child =>
    cases hstep
    exact crumbs_foldl 0 (.inl ⟨rfl, rfl⟩)

end

/-! ## Running a list of actions -/

/-- The state and the history after some actions, while there have been few resets. -/
def replay (s : Worker × History) : List Action → Option (Worker × History)
  | [] => some s
  | a :: as =>
    match s.1.step a with
    | some w => if s.2.resets < 2 ^ 32 then replay (w, s.2.note s.1 a w) as else none
    | none => none

theorem run_replay {as : List Action} {s s' : Worker × History} (h : replay s as = some s') :
    Run (Guarded EndsRecent HistorySteps) s as s' := by
  induction as generalizing s with
  | nil =>
    cases h
    exact .nil _
  | cons a as ih =>
    simp only [replay] at h
    split at h
    · next w hw =>
      split at h
      · next hfew =>
        -- No call of a run this short can be from a generation that has come round.
        have hrecent : EndsRecent s a := by
          cases a with
          | opEnd call now => exact fun op _ => Nat.lt_add_left _ hfew
          | _ => trivial
        have hstep : HistorySteps s a (w, s.2.note s.1 a w) := ⟨hw, rfl⟩
        exact .cons ⟨hrecent, hstep⟩ (ih h)
      · cases h
    · cases h

end CboxTelemetry.Extension
