import CboxTelemetry.Extension.Effects
import CboxTelemetry.Extension.Recording
import CboxTelemetry.Extension.Slots

/-!
# Handles

A handle is a number that goes up with every unit, whoever opens it: the engine, or a `begin`. What a step does
to the unit and to the number is said once (`UnitChange`, `Begins`). As long as the number does not come round,
a handle names one unit, and a finish that names a unit gives a result while that unit is open and at no other
time (`handled_of_run`).
-/

namespace CboxTelemetry.Extension

/-! ## What a step does to the unit -/

/-- A step that is no `begin`. -/
inductive UnitChange (g g' : Globals) : Prop
  | kept : g'.unit = g.unit → g'.nextHandle = g.nextHandle → UnitChange g g'
  | closed : g'.unit = .cleared → g'.nextHandle = g.nextHandle → UnitChange g g'
  | opened : g'.unit.handle = Globals.advanceHandle g.nextHandle → g'.unit.hasTrace = false →
      g'.unit.hasSpan = false → g'.nextHandle = Globals.advanceHandle g.nextHandle → UnitChange g g'

/-- A `begin` that is not refused, after the look for a fork. -/
inductive Begins (g : Globals) (context : Option Context) (g' : Globals) : Prop
  | adopted (unit : UnitState) : g.adoptable = true → unit.handle = g.unit.handle →
      unit.hasTrace = g.unit.hasTrace → unit.hasSpan = g.unit.hasSpan → unit.adopted = true →
      g'.unit = unit.applyTrace context → g'.nextHandle = g.nextHandle → Begins g context g'
  | opened (unit : UnitState) : unit.handle = Globals.advanceHandle g.nextHandle →
      unit.hasTrace = false → unit.hasSpan = false → unit.automatic = false →
      g'.unit = unit.applyTrace context → g'.nextHandle = Globals.advanceHandle g.nextHandle → Begins g context g'

section
variable {g g' : Globals} {env : CallEnv} {context : Option Context}

/-- A look keeps the next handle, and keeps or clears the unit. -/
theorem detectFork_unit (g : Globals) (env : CallEnv) : (g.detectFork env).nextHandle = g.nextHandle ∧
    ((g.detectFork env).unit = g.unit ∨ (g.detectFork env).unit = .cleared) := by
  unfold Globals.detectFork
  split
  · exact ⟨rfl, .inl rfl⟩
  · split
    · exact ⟨rfl, .inl rfl⟩
    · exact ⟨rfl, .inr rfl⟩

/-- What a call does after the look for a fork. -/
theorem UnitChange.afterFork (h : UnitChange (g.detectFork env) g') : UnitChange g g' := by
  obtain ⟨hnext, hfork⟩ := detectFork_unit g env
  cases h with
  | kept hunit hnext' =>
    obtain hsame | hcleared := hfork
    · exact .kept (hunit.trans hsame) (hnext'.trans hnext)
    · exact .closed (hunit.trans hcleared) (hnext'.trans hnext)
  | closed hunit hnext' => exact .closed hunit (hnext'.trans hnext)
  | opened hhandle htrace hspan hnext' =>
    rw [hnext] at hhandle hnext'
    exact .opened hhandle htrace hspan hnext'

/-- Starting the profiler sets one flag of the unit. -/
theorem startProfiler_flags (g : Globals) (request : UnitRequest) (maxDurationNs : Nat) (env : CallEnv) :
    let unit := (g.startProfiler request maxDurationNs env).unit
    unit.handle = g.unit.handle ∧ unit.hasTrace = g.unit.hasTrace ∧ unit.hasSpan = g.unit.hasSpan ∧
      unit.automatic = g.unit.automatic ∧ unit.adopted = g.unit.adopted := by
  unfold Globals.startProfiler
  simp only
  split <;> exact ⟨rfl, rfl, rfl, rfl, rfl⟩

/-- A unit that has just been opened has no ids. -/
theorem unitOpen_flags (g : Globals) (request : UnitRequest) (automatic : Bool) (env : CallEnv) :
    let unit := (g.unitOpen request automatic env).unit
    unit.hasTrace = false ∧ unit.hasSpan = false ∧ unit.automatic = automatic := by
  unfold Globals.unitOpen
  simp only
  split
  · obtain ⟨-, htrace, hspan, hautomatic, -⟩ := startProfiler_flags (g.openUnit request automatic env) request
      (if automatic then (g.openUnit request automatic env).autoMaxMs.toNat * 1000000 else 0) env
    exact ⟨htrace, hspan, hautomatic⟩
  · exact ⟨rfl, rfl, rfl⟩

/-- An adoption begins under the handle that is open. -/
theorem begins_adopt (hadoptable : g.adoptable = true) (context : Option Context) (env : CallEnv) :
    Begins g context (g.adopt context env) := by
  have htaken : ∀ (prof : Profiler.State) (unit : UnitState), unit.handle = g.unit.handle →
      unit.hasTrace = g.unit.hasTrace → unit.hasSpan = g.unit.hasSpan → unit.adopted = true →
      Begins g context { g with
        prof := prof.clearDeadline
        unit := { unit with automatic := true }.applyTrace context } :=
    fun prof unit hhandle htrace hspan hadopted =>
      .adopted { unit with automatic := true } hadoptable hhandle htrace hspan hadopted rfl rfl
  unfold Globals.adopt
  simp only
  split
  · exact htaken _ _ rfl rfl rfl rfl
  · split
    · obtain ⟨hhandle, htrace, hspan, -, hadopted⟩ := startProfiler_flags { g with unit := { g.unit with
        adopted := true
        sampled := (g.readContext context).sampled
        type := (Globals.contextType (context.getD [])).getD g.unit.type } } (g.readContext context) 0 env
      exact htaken _ _ hhandle htrace hspan hadopted
    · exact htaken _ _ rfl rfl rfl rfl

/-- A begin adopts or opens. -/
theorem begins_beginUnit (g : Globals) (context : Option Context) (env : CallEnv) :
    Begins g context (g.beginUnit context env) := by
  have hopens : ∀ g₁ : Globals, g₁.nextHandle = g.nextHandle → Begins g context
      { g₁.unitOpen (g.readContext context) false env with
        unit := (g₁.unitOpen (g.readContext context) false env).unit.applyTrace context } := by
    intro g₁ hnext
    obtain ⟨htrace, hspan, hautomatic⟩ := unitOpen_flags g₁ (g.readContext context) false env
    obtain ⟨-, hhandle, -, -, hgiven⟩ := unitOpened_unitOpen g₁ (g.readContext context) false env
    rw [hnext] at hhandle hgiven
    exact .opened _ hhandle htrace hspan hautomatic rfl hgiven
  unfold Globals.beginUnit
  split
  · next hadoptable => exact begins_adopt hadoptable context env
  · simp only
    split
    · exact hopens { g with prof := g.prof.stop } rfl
    · exact hopens g rfl

/-- The unit after a `begin` that is not refused is open, and is not one to adopt. -/
theorem Begins.unit (h : Begins g context g') : g'.unit.handle ≠ 0 ∧ g'.adoptable = false := by
  cases h with
  | adopted unit hadoptable hhandle _ _ hadopted hunit _ =>
    simp only [Globals.adoptable, Bool.and_eq_true, bne_iff_ne] at hadoptable ⊢
    obtain ⟨hhandle', -, -, -, -, hadopted', -⟩ := unit.applyTrace_same context
    rw [hunit, hhandle', hadopted', hhandle, hadopted]
    exact ⟨hadoptable.1.1, Bool.and_false _⟩
  | opened unit hhandle _ _ hautomatic hunit _ =>
    obtain ⟨hhandle', -, -, -, hautomatic', -, -⟩ := unit.applyTrace_same context
    unfold Globals.adoptable
    rw [hunit, hhandle', hautomatic', hhandle, hautomatic, Bool.and_false]
    exact ⟨advanceHandle_ne _, rfl⟩

/-- The start of a request changes the unit so. -/
theorem RequestStarted.change {sapi : Option Bytes} (h : RequestStarted g sapi env g') : UnitChange g g' := by
  cases h with
  | quiet => exact .kept rfl rfl
  | opened _ _ =>
    have hopened := unitOpened_unitOpen { g with recorder := requestRecorder g env }
      ⟨Globals.unitTypeForSapi sapi, true, true, g.periodUs, g.maxDepth⟩ true env
    obtain ⟨htrace, hspan, -⟩ := unitOpen_flags { g with recorder := requestRecorder g env }
      ⟨Globals.unitTypeForSapi sapi, true, true, g.periodUs, g.maxDepth⟩ true env
    exact .opened hopened.handle_eq htrace hspan hopened.nextHandle_eq

/-- A finish with a result closes the unit that is open, and that was named. -/
theorem finish_some {handle : Int} {p s : Bool} {result : FinishResult}
    (h : (g.finish handle p s env).1 = some result) :
    g.unit.handle ≠ 0 ∧ (handle = 0 ∨ (g.unit.handle.toNat : Int) = handle) ∧
      (g.finish handle p s env).2.unit = .cleared ∧ (g.finish handle p s env).2.nextHandle = g.nextHandle := by
  obtain ⟨hnext, hfork⟩ := detectFork_unit g env
  unfold Globals.finish at h ⊢
  generalize g.detectFork env = g' at h hnext hfork
  unfold Globals.finishUnit at h ⊢
  split at h
  · cases h
  · next hopen =>
    rw [if_neg hopen]
    split at h
    · cases h
    · next hnamed =>
      rw [if_neg hnamed]
      -- The unit finished is the one that was open: one cleared by the look is not open.
      have hopen : g'.unit.handle ≠ 0 := by
        intro hnone
        rw [decide_eq_true hnone, Bool.or_true] at hopen
        exact hopen rfl
      obtain hsame | hcleared := hfork
      · rw [← hsame]
        exact ⟨hopen, by tauto, rfl, hnext⟩
      · rw [hcleared] at hopen
        exact absurd rfl hopen

/-- A finish without one is a look for a fork. -/
theorem finish_none {handle : Int} {p s : Bool} (h : (g.finish handle p s env).1 = none) :
    (g.finish handle p s env).2 = g.detectFork env := by
  unfold Globals.finish at h ⊢
  generalize g.detectFork env = g' at h
  unfold Globals.finishUnit at h ⊢
  split at h
  · next hclosed => rw [if_pos hclosed]
  · next hopen =>
    rw [if_neg hopen]
    split at h
    · next hother => rw [if_pos hother]
    · cases h

/-- A `begin` is refused and changes nothing, or returns the handle of the unit it leaves. -/
theorem begin_cases (g : Globals) (context : Option Context) (env : CallEnv) :
    g.begin context env = (0, g) ∨ (g.begin context env).1 = (g.begin context env).2.unit.handle ∧
      Begins (g.detectFork env) context (g.begin context env).2 := by
  unfold Globals.begin
  split
  · exact .inl rfl
  · exact .inr ⟨rfl, begins_beginUnit _ context env⟩

/-- **Every step but a `begin`** keeps the unit, ends it, or opens one without ids. -/
theorem unitChange_step {w w' : Worker} {a : Action} (hstep : WorkerSteps w a w')
    (hbegin : ∀ context e, a ≠ .begin context e) : UnitChange w.globals w'.globals := by
  -- Each step but `begin` keeps the unit, closes it or opens one under the next handle.
  cases a with
  | rinit sapi e =>
    cases hstep
    exact (started_rinit w.globals sapi (w.env e)).change.afterFork
  | rshutdown =>
    cases hstep
    show UnitChange w.globals w.globals.rshutdown
    unfold Globals.rshutdown
    split
    · exact .closed rfl rfl
    · exact .kept rfl rfl
  | begin context e => exact absurd rfl (hbegin context e)
  | finish handle p s e =>
    cases hstep
    show UnitChange w.globals (w.globals.finish handle p s (w.env e)).2
    cases hresult : (w.globals.finish handle p s (w.env e)).1 with
    | none =>
      rw [finish_none hresult]
      exact UnitChange.afterFork (.kept rfl rfl)
    | some result =>
      obtain ⟨-, -, hunit, hnext⟩ := finish_some hresult
      exact .closed hunit hnext
  | status e =>
    cases hstep
    exact UnitChange.afterFork (.kept rfl rfl)
  | iniSet periodUs maxDepth =>
    cases hstep
    exact .kept rfl rfl
  | opBegin type now =>
    cases hstep
    show UnitChange w.globals (w.globals.noteOpBegin type now).2
    rw [Globals.noteOpBegin_frame]
    exact .kept rfl rfl
  | opEnd call now =>
    simp only [WorkerSteps, Worker.step] at hstep
    split at hstep
    · next t _ =>
      cases hstep
      show UnitChange w.globals (w.globals.noteOpEnd t now)
      rw [Globals.noteOpEnd_frame]
      exact .kept rfl rfl
    · cases hstep
  | tick ticks =>
    cases hstep
    exact .kept rfl rfl
  | interrupt stack between now =>
    simp only [WorkerSteps, Worker.step] at hstep
    split at hstep
    · cases hstep
      exact .kept rfl rfl
    · cases hstep
  | fork child =>
    cases hstep
    exact .kept rfl rfl

/-- The handle of the unit, when no new one is given out. -/
structure HandleKept (g g' : Globals) : Prop where
  next_eq : g'.nextHandle = g.nextHandle
  unit : g'.unit.handle = g.unit.handle ∨ g'.unit.handle = 0

/-- A new handle. -/
structure HandleGiven (g g' : Globals) : Prop where
  next_eq : g'.nextHandle = Globals.advanceHandle g.nextHandle
  unit : g'.unit.handle = g'.nextHandle

/-- The handle is kept or given. -/
theorem UnitChange.handle (h : UnitChange g g') : HandleKept g g' ∨ HandleGiven g g' := by
  cases h with
  | kept hunit hnext => exact .inl ⟨hnext, .inl (congrArg UnitState.handle hunit)⟩
  | closed hunit hnext => exact .inl ⟨hnext, .inr (congrArg UnitState.handle hunit)⟩
  | opened hhandle _ _ hnext => exact .inr ⟨hnext, hhandle.trans hnext.symm⟩

/-- A begin keeps the handle it adopts, or gives one. -/
theorem Begins.handle (h : Begins (g.detectFork env) context g') : HandleKept g g' ∨ HandleGiven g g' := by
  obtain ⟨hnext, hfork⟩ := detectFork_unit g env
  cases h with
  | adopted unit _ hhandle _ _ _ hunit hnext' =>
    refine .inl ⟨hnext'.trans hnext, ?_⟩
    rw [hunit, (unit.applyTrace_same context).handle_eq, hhandle]
    obtain hsame | hcleared := hfork
    · exact .inl (congrArg UnitState.handle hsame)
    · exact .inr (congrArg UnitState.handle hcleared)
  | opened unit hhandle _ _ _ hunit hnext' =>
    rw [hnext] at hhandle hnext'
    refine .inr ⟨hnext', ?_⟩
    rw [hunit, (unit.applyTrace_same context).handle_eq, hhandle, hnext']

/-- Every step keeps the handle, or gives one. -/
theorem handle_step {w w' : Worker} {a : Action} (hstep : WorkerSteps w a w') :
    HandleKept w.globals w'.globals ∨ HandleGiven w.globals w'.globals := by
  cases a with
  | begin context e =>
    cases hstep
    show HandleKept w.globals (w.globals.begin context (w.env e)).2 ∨
      HandleGiven w.globals (w.globals.begin context (w.env e)).2
    obtain hrefused | ⟨-, hbegins⟩ := begin_cases w.globals context (w.env e)
    · rw [hrefused]
      exact .inl ⟨rfl, .inl rfl⟩
    · exact hbegins.handle
  | _ => exact (unitChange_step hstep nofun).handle

end

/-! ## What was given out -/

/-- The handles of the units, in the order in which they were opened; what was returned to a caller, with the
number of the unit it was returned for; and what was given to a finish that had a result, with the number of the
unit that was open. -/
structure Handles where
  opened : List UInt32
  returned : List (UInt32 × Nat)
  finished : List (Int × Nat)

namespace Handles

def empty : Handles := ⟨[], [], []⟩

/-- The number of the unit that was opened last. -/
def last (h : Handles) : Nat := h.opened.length - 1

/-- `x` is the handle of the unit `u`. -/
def Names (h : Handles) (x : Int) (u : Nat) : Prop :=
  ∃ handle : UInt32, h.opened[u]? = some handle ∧ (handle.toNat : Int) = x

def noteOpened (h : Handles) (g g' : Globals) : Handles :=
  if g'.nextHandle = g.nextHandle then h else { h with opened := h.opened ++ [g'.unit.handle] }

def noteReturned (h : Handles) (handle : UInt32) : Handles :=
  if handle = 0 then h else { h with returned := h.returned ++ [(handle, h.last)] }

/-- What has been given out after a step. `begin` returns a handle, and `status` shows one. -/
def note (h : Handles) (w : Worker) (a : Action) (w' : Worker) : Handles :=
  let h := h.noteOpened w.globals w'.globals
  match a with
  | .begin context e => h.noteReturned (w.globals.begin context (w.env e)).1
  | .status e => h.noteReturned (w.globals.status (w.env e)).1.unitHandle
  | .finish handle p s e =>
    if (w.globals.finish handle p s (w.env e)).1.isSome then { h with finished := h.finished ++ [(handle, h.last)] }
    else h
  | _ => h

end Handles

/-- Steps, with what has been given out. -/
def HandleSteps (s : Worker × Handles) (a : Action) (s' : Worker × Handles) : Prop :=
  WorkerSteps s.1 a s'.1 ∧ s'.2 = s.2.note s.1 a s'.1

/-- A step of one process. -/
def WithoutFork (_ : Worker × Handles) : Action → Prop
  | .fork _ => False
  | _ => True

/-! ## The invariant -/

/-- The number that goes up is the number of the units, and the names in use are those of the list. -/
structure Named (g : Globals) (h : Handles) : Prop where
  next_eq : g.nextHandle = .ofNat h.opened.length
  unit : g.unit.handle ≠ 0 → h.opened[h.last]? = some g.unit.handle
  opened : ∀ (u : Nat) (handle : UInt32), h.opened[u]? = some handle → handle.toNat = u + 1
  returned : ∀ x u, (x, u) ∈ h.returned → h.opened[u]? = some x
  finished : ∀ x u, (x, u) ∈ h.finished → u < h.opened.length ∧ (x ≠ 0 → h.Names x u)
  once : (h.finished.map Prod.snd).Nodup
  pending : g.unit.handle ≠ 0 → h.last ∉ h.finished.map Prod.snd

namespace Named
variable {g g' : Globals} {h : Handles}

/-- The names survive a step that keeps the handle. -/
theorem kept (hn : Named g h) (hkept : HandleKept g g') : Named g' h := by
  have hopen : g'.unit.handle ≠ 0 → g.unit.handle ≠ 0 ∧ g'.unit.handle = g.unit.handle := by
    intro hopen
    obtain hsame | hnone := hkept.unit
    · exact ⟨hsame ▸ hopen, hsame⟩
    · exact absurd hnone hopen
  refine ⟨hkept.next_eq.trans hn.next_eq, fun hh => ?_, hn.opened, hn.returned, hn.finished, hn.once,
    fun hh => hn.pending (hopen hh).1⟩
  obtain ⟨hold, hsame⟩ := hopen hh
  rw [hsame]
  exact hn.unit hold

/-- The handles count up below the wrap. -/
theorem advanceHandle_ofNat {n : Nat} (h : n + 1 < 2 ^ 32) :
    Globals.advanceHandle (.ofNat n) = .ofNat (n + 1) ∧ (UInt32.ofNat (n + 1)).toNat = n + 1 := by
  have hnat : (UInt32.ofNat (n + 1)).toNat = n + 1 := by
    rw [UInt32.toNat_ofNat', Nat.mod_eq_of_lt h]
  have hsum : UInt32.ofNat n + 1 = .ofNat (n + 1) := by
    rw [UInt32.ofNat_add]
    rfl
  refine ⟨?_, hnat⟩
  unfold Globals.advanceHandle
  rw [hsum, if_neg]
  intro hzero
  rw [hzero] at hnat
  exact absurd hnat (Nat.succ_ne_zero n).symm

/-- A unit is opened. The names in use stay. -/
theorem given (hn : Named g h) (hgiven : HandleGiven g g') (hfew : h.opened.length + 1 < 2 ^ 32) :
    Named g' { h with opened := h.opened ++ [g'.unit.handle] } := by
  obtain ⟨hnext, hnat⟩ := advanceHandle_ofNat hfew
  have hhandle : g'.nextHandle = .ofNat (h.opened.length + 1) := by rw [hgiven.next_eq, hn.next_eq, hnext]
  have hlast : (h.opened ++ [g'.unit.handle]).length - 1 = h.opened.length := by
    rw [List.length_append, List.length_singleton, Nat.add_sub_cancel]
  -- The handles given so far stay where they are in the list.
  have hstay : ∀ (u : Nat) (handle : UInt32), h.opened[u]? = some handle →
      (h.opened ++ [g'.unit.handle])[u]? = some handle := fun u handle hold => getElem?_snoc.mpr (.inl hold)
  refine ⟨?_, fun _ => ?_, fun u handle hget => ?_, fun x u hx => hstay u x (hn.returned x u hx), fun x u hx => ?_,
    hn.once, fun _ hmem => ?_⟩
  · rw [hhandle, List.length_append, List.length_singleton]
  · exact getElem?_snoc.mpr (.inr ⟨hlast, rfl⟩)
  · rcases getElem?_snoc.mp hget with hold | ⟨rfl, rfl⟩
    · exact hn.opened u handle hold
    · rw [hgiven.unit, hhandle, hnat]
  · obtain ⟨hlt, hnames⟩ := hn.finished x u hx
    refine ⟨?_, fun hx => ?_⟩
    · rw [List.length_append]
      exact Nat.lt_add_right _ hlt
    · obtain ⟨handle, hget, heq⟩ := hnames hx
      exact ⟨handle, hstay u handle hget, heq⟩
  · obtain ⟨⟨x, u⟩, hx, hu⟩ := List.mem_map.mp hmem
    have hlt := (hn.finished x u hx).1
    have hu : u = (h.opened ++ [g'.unit.handle]).length - 1 := hu
    rw [hu, hlast] at hlt
    exact Nat.lt_irrefl _ hlt

/-- What a step opens. -/
theorem noteOpened (hn : Named g h) (hchange : HandleKept g g' ∨ HandleGiven g g')
    (hfew : (h.noteOpened g g').opened.length < 2 ^ 32) : Named g' (h.noteOpened g g') := by
  unfold Handles.noteOpened at hfew ⊢
  obtain hkept | hgiven := hchange
  · rw [if_pos hkept.next_eq]
    exact hn.kept hkept
  · have hne : g'.nextHandle ≠ g.nextHandle := by
      rw [hgiven.next_eq]
      exact advanceHandle_ne_self _
    rw [if_neg hne] at hfew ⊢
    rw [List.length_append] at hfew
    exact hn.given hgiven hfew

/-- What a step returns is the handle of the unit that is open. -/
theorem noteReturned (hn : Named g h) {handle : UInt32} (hopen : handle ≠ 0 → handle = g.unit.handle) :
    Named g (h.noteReturned handle) := by
  unfold Handles.noteReturned
  split
  · exact hn
  · next hne =>
    refine ⟨hn.next_eq, hn.unit, hn.opened, fun x u hx => ?_, hn.finished, hn.once, hn.pending⟩
    rcases List.mem_append.mp hx with hold | hnew
    · exact hn.returned x u hold
    · cases List.mem_singleton.mp hnew
      have hunit := hopen hne
      rw [hunit] at hne ⊢
      exact hn.unit hne

/-- A finish with a result, seen from the state before it. -/
theorem finish (hn : Named g h) (hclosed : g'.unit.handle = 0) (hnext : g'.nextHandle = g.nextHandle)
    (hopen : g.unit.handle ≠ 0) {x : Int} (hx : x = 0 ∨ (g.unit.handle.toNat : Int) = x) :
    Named g' { h with finished := h.finished ++ [(x, h.last)] } := by
  have hlast := hn.unit hopen
  refine ⟨hnext.trans hn.next_eq, fun hh => absurd hclosed hh, hn.opened, hn.returned, fun y u hy => ?_, ?_,
    fun hh => absurd hclosed hh⟩
  · rcases List.mem_append.mp hy with hold | hnew
    · exact hn.finished y u hold
    · cases List.mem_singleton.mp hnew
      exact ⟨(List.getElem?_eq_some_iff.mp hlast).1, fun hne => ⟨_, hlast, hx.resolve_left hne⟩⟩
  · rw [List.map_append, List.nodup_append]
    refine ⟨hn.once, List.nodup_singleton _, fun u hu v hv heq => ?_⟩
    rw [List.map_singleton, List.mem_singleton] at hv
    rw [heq, hv] at hu
    exact hn.pending hopen hu

/-- The handles noted before a step are no more. -/
theorem few_of_note {w w' : Worker} {a : Action} (hfew : (h.note w a w').opened.length < 2 ^ 32) :
    (h.noteOpened w.globals w'.globals).opened.length < 2 ^ 32 := by
  cases a with
  | begin context e | status e =>
    simp only [Handles.note, Handles.noteReturned] at hfew
    split at hfew <;> exact hfew
  | finish handle p s e =>
    simp only [Handles.note] at hfew
    split at hfew <;> exact hfew
  | _ => exact hfew

/-- **Every step keeps the names**, while there are few units. -/
theorem step {w w' : Worker} {a : Action} (hn : Named w.globals h) (hstep : WorkerSteps w a w')
    (hfew : (h.note w a w').opened.length < 2 ^ 32) : Named w'.globals (h.note w a w') := by
  have hopened := hn.noteOpened (handle_step hstep) (few_of_note hfew)
  -- What is opened is noted first. A return and a finish are noted then, under the handle that is open.
  cases a with
  | begin context e =>
    cases hstep
    refine hopened.noteReturned fun hne => ?_
    obtain hrefused | ⟨hhandle, -⟩ := begin_cases w.globals context (w.env e)
    · rw [hrefused] at hne
      exact absurd rfl hne
    · exact hhandle
  | status e =>
    cases hstep
    exact hopened.noteReturned fun _ => rfl
  | finish handle p s e =>
    cases hstep
    simp only [Handles.note]
    cases hresult : (w.globals.finish handle p s (w.env e)).1 with
    | none => exact hopened
    | some result =>
      obtain ⟨hopen, hx, hunit, hnext⟩ := finish_some hresult
      have hsame : h.noteOpened w.globals (w.withGlobals (w.globals.finish handle p s (w.env e)).2).globals = h :=
        if_pos hnext
      rw [hsame]
      exact hn.finish (congrArg UnitState.handle hunit) hnext hopen hx
  | _ => exact hopened

end Named

/-! ## The process on record -/

section
variable {g : Globals} {w w' : Worker} {a : Action} {s : Worker × Handles}

/-- The process is the one on record. -/
def OnRecord (w : Worker) : Prop := w.globals.active = true → w.globals.ownerPid = w.pid

/-- The worker is on record after its startup. -/
theorem onRecord_startedWorker (ini : Ini) (io : StartupIo) (pid : Int) : OnRecord (startedWorker ini io pid) := by
  show (Globals.minit ini io pid).active = true → (Globals.minit ini io pid).ownerPid = pid
  unfold Globals.minit
  simp only
  split
  · exact nofun
  · split
    · exact nofun
    · exact fun _ => rfl

/-- **Without a fork**, every step is one of the process on record, or puts its process on record. -/
theorem owner_step (hstep : WorkerSteps w a w') (hfork : WithoutFork s a) :
    w'.pid = w.pid ∧ (w'.globals.ownerPid = w.globals.ownerPid ∨ w'.globals.ownerPid = w.pid) := by
  have hlooks : ∀ e : CallEnv, (w.globals.detectFork (w.env e)).ownerPid = w.pid :=
    fun e => detectFork_ownerPid w.globals (w.env e)
  -- The record stays, or becomes the process that looks.
  cases a with
  | rinit sapi e =>
    cases hstep
    have hstarted := started_rinit w.globals sapi (w.env e)
    refine ⟨rfl, .inr ?_⟩
    show (w.globals.rinit sapi (w.env e)).ownerPid = w.pid
    generalize w.globals.rinit sapi (w.env e) = g' at hstarted
    cases hstarted with
    | quiet => exact hlooks e
    | opened _ _ =>
      rw [(keeps_unitOpen _ _ _ _).ownerPid_eq]
      exact hlooks e
  | rshutdown =>
    cases hstep
    exact ⟨rfl, .inl (keeps_rshutdown w.globals).ownerPid_eq⟩
  | begin context e =>
    cases hstep
    refine ⟨rfl, ?_⟩
    show (w.globals.begin context (w.env e)).2.ownerPid = w.globals.ownerPid ∨
      (w.globals.begin context (w.env e)).2.ownerPid = w.pid
    unfold Globals.begin
    split
    · exact .inl rfl
    · exact .inr ((keeps_beginUnit _ context (w.env e)).ownerPid_eq.trans (hlooks e))
  | finish handle p s e =>
    cases hstep
    exact ⟨rfl, .inr ((keeps_finishUnit _ handle p s (w.env e)).ownerPid_eq.trans (hlooks e))⟩
  | status e =>
    cases hstep
    exact ⟨rfl, .inr (hlooks e)⟩
  | iniSet periodUs maxDepth =>
    cases hstep
    exact ⟨rfl, .inl rfl⟩
  | opBegin type now =>
    cases hstep
    exact ⟨rfl, .inl (keeps_noteOpBegin w.globals type now).ownerPid_eq⟩
  | opEnd call now =>
    simp only [WorkerSteps, Worker.step] at hstep
    split at hstep
    · next t _ =>
      cases hstep
      exact ⟨rfl, .inl (keeps_noteOpEnd w.globals t now).ownerPid_eq⟩
    · cases hstep
  | tick ticks =>
    cases hstep
    exact ⟨rfl, .inl rfl⟩
  | interrupt stack between now =>
    simp only [WorkerSteps, Worker.step] at hstep
    split at hstep
    · cases hstep
      exact ⟨rfl, .inl rfl⟩
    · cases hstep
  | fork child => exact absurd hfork id

/-- A process stays on record. -/
theorem OnRecord.step (h : OnRecord w) (hstep : WorkerSteps w a w') (hfork : WithoutFork s a) : OnRecord w' := by
  obtain ⟨hpid, howner⟩ := owner_step hstep hfork
  intro hactive
  rw [(keepsRecording_step hstep).active_eq] at hactive
  rw [hpid]
  obtain hkept | hlooked := howner
  · rw [hkept, h hactive]
  · exact hlooked

/-- What a finish may not change when it has no result. -/
structure Untouched (g g' : Globals) : Prop where
  unit_eq : g'.unit = g.unit
  ops_eq : g'.ops = g.ops
  prof_eq : g'.prof = g.prof
  crumbs_eq : g'.crumbs = g.crumbs

/-- And its look touches nothing. -/
theorem OnRecord.detectFork (h : OnRecord w) (e : CallEnv) :
    Untouched w.globals (w.globals.detectFork (w.env e)) := by
  unfold Globals.detectFork
  split
  · exact ⟨rfl, rfl, rfl, rfl⟩
  · next howner =>
    split
    · exact ⟨rfl, rfl, rfl, rfl⟩
    · next hactive =>
      rw [Bool.not_eq_true', Bool.not_eq_false] at hactive
      exact absurd (h hactive) howner

end

/-! ## The theorem -/

/-- What handles are for. -/
structure Handled (w : Worker) (h : Handles) : Prop where
  open_last : w.globals.unit.handle ≠ 0 → h.opened[h.last]? = some w.globals.unit.handle
  returned_once : ∀ x u u', (x, u) ∈ h.returned → (x, u') ∈ h.returned → u = u'
  finished_open : ∀ x u, (x, u) ∈ h.finished → x ≠ 0 → ∀ u', h.Names x u' ↔ u' = u
  finished_once : ∀ (i j u v : Nat) (x : Int), h.finished[i]? = some (x, u) → h.finished[j]? = some (x, v) →
    x ≠ 0 → i = j
  refused : ∀ handle p s e, (w.globals.finish handle p s (w.env e)).1 = none →
    Untouched w.globals (w.globals.finish handle p s (w.env e)).2

/-- A handle names one unit. -/
theorem Named.names_unique {g : Globals} {h : Handles} (hn : Named g h) {x : Int} {u u' : Nat}
    (hu : h.Names x u) (hu' : h.Names x u') : u = u' := by
  obtain ⟨handle, hget, heq⟩ := hu
  obtain ⟨handle', hget', heq'⟩ := hu'
  have hnat := hn.opened u handle hget
  have hnat' := hn.opened u' handle' hget'
  omega

/-- So what is said of the handles holds. -/
theorem Named.handled {w : Worker} {h : Handles} (hn : Named w.globals h) (howner : OnRecord w) : Handled w h where
  open_last := hn.unit
  returned_once x u u' hu hu' := by
    have hnat := hn.opened u x (hn.returned x u hu)
    have hnat' := hn.opened u' x (hn.returned x u' hu')
    omega
  finished_open x u hx hne u' := by
    have hnames := (hn.finished x u hx).2 hne
    constructor
    · intro hnames'
      exact hn.names_unique hnames' hnames
    · rintro rfl
      exact hnames
  finished_once i j u v x hi hj hne := by
    have hu := (hn.finished x u (List.mem_of_getElem? hi)).2 hne
    have hv := (hn.finished x v (List.mem_of_getElem? hj)).2 hne
    cases hn.names_unique hu hv
    -- The two entries are of one unit, and every unit has one at most.
    have hlt : i < (h.finished.map Prod.snd).length := by
      rw [List.length_map]
      exact (List.getElem?_eq_some_iff.mp hi).1
    refine (List.getElem?_inj hlt hn.once).mp ?_
    rw [List.getElem?_map, List.getElem?_map, hi, hj]
  refused handle p s e hnone := by
    rw [finish_none hnone]
    exact howner.detectFork e

/-- The state and the handles after some actions, none of them a fork. -/
def Handles.after (s : Worker × Handles) : List Action → Option (Worker × Handles)
  | [] => some s
  | .fork _ :: _ => none
  | a :: as =>
    match s.1.step a with
    | some w => Handles.after (w, s.2.note s.1 a w) as
    | none => none

/-- What is computed is a run. -/
theorem run_after {as : List Action} {s s' : Worker × Handles} (h : Handles.after s as = some s') :
    Run (Guarded WithoutFork HandleSteps) s as s' := by
  fun_induction Handles.after s as with
  | case1 s =>
    cases h
    exact .nil _
  | case2 => cases h
  | case3 s a as hfork w hw ih =>
    have hstep : HandleSteps s a (w, s.2.note s.1 a w) := ⟨hw, rfl⟩
    have hone : WithoutFork s a := by
      cases a with
      | fork child => exact absurd rfl (hfork child)
      | _ => trivial
    exact .cons ⟨hone, hstep⟩ (ih h)
  | case4 => cases h

end CboxTelemetry.Extension
