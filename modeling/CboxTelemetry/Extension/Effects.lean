import CboxTelemetry.Extension.Lifecycle

/-!
# What a step does to the unit and its operations

Apart from the two ends of a hooked call, a step keeps the operations, or clears them because a unit has
ended or a new one begins. Said once here, for every function (`UnitEffect`); a call that finds it is in a
forked child does two such things in a row (`UnitEffect.after`).
-/

namespace CboxTelemetry.Extension

open Profiler (Instant Stack)

/-- The operations after some resets. -/
def OpState.clearedAfter (s : OpState) (resets : Nat) : OpState :=
  { OpState.cleared with generation := s.generation + .ofNat resets }

/-- The effect of a step with `resets` resets of the operations, at most two. `now` is what the clock says. -/
inductive UnitEffect (g : Globals) (now : UInt64) : Nat → Globals → Prop
  | kept (g' : Globals) : g'.ops = g.ops → g'.unit.handle = g.unit.handle → g'.unit.startNs = g.unit.startNs →
      (g.unit.handle = 0 → g'.unit = g.unit) → g'.nextHandle = g.nextHandle → UnitEffect g now 0 g'
  | closed (resets : Nat) (g' : Globals) : 0 < resets → g'.ops = g.ops.clearedAfter resets →
      g'.unit = .cleared → g'.nextHandle = g.nextHandle → UnitEffect g now resets g'
  | opened (resets : Nat) (g' : Globals) : 0 < resets → g'.ops = g.ops.clearedAfter resets →
      g'.unit.handle ≠ 0 → g'.unit.startNs = now → g'.nextHandle ≠ g.nextHandle →
      UnitEffect g now resets g'

variable {g g₁ g₂ : Globals} {env : CallEnv} {now : UInt64} {k₁ k₂ : Nat}

theorem UnitEffect.refl (g : Globals) (now : UInt64) : UnitEffect g now 0 g := .kept g rfl rfl rfl (fun _ => rfl) rfl

@[simp] theorem OpState.clearedAfter_clearedAfter (s : OpState) (k₁ k₂ : Nat) :
    (s.clearedAfter k₁).clearedAfter k₂ = s.clearedAfter (k₁ + k₂) := by
  show ({ OpState.cleared with generation := s.generation + .ofNat k₁ + .ofNat k₂ } : OpState) = _
  rw [UInt32.add_assoc, ← UInt32.ofNat_add]
  rfl

theorem OpState.opsReset_eq (s : OpState) : s.opsReset = s.clearedAfter 1 := rfl

/-- One thing after another. A unit that has just been opened is left alone. -/
theorem UnitEffect.after (h₁ : UnitEffect g now k₁ g₁) (hnext : g₁.nextHandle = g.nextHandle)
    (h₂ : UnitEffect g₁ now k₂ g₂) : UnitEffect g now (k₁ + k₂) g₂ := by
  cases h₁ with
  | opened _ _ _ _ _ _ hne => exact absurd hnext hne
  | kept _ hops hhandle hstart hnone _ =>
    rw [Nat.zero_add]
    -- The handle was kept so far, so the second effect is the effect of both.
    cases h₂ with
    | kept _ hops' hhandle' hstart' hnone' hnext' =>
      refine .kept _ (hops'.trans hops) (hhandle'.trans hhandle) (hstart'.trans hstart) (fun h => ?_)
        (hnext'.trans hnext)
      rw [hnone' (hhandle.trans h), hnone h]
    | closed _ _ hpos hops' hunit' hnext' =>
      rw [hops] at hops'
      exact .closed _ _ hpos hops' hunit' (hnext'.trans hnext)
    | opened _ _ hpos hops' hhandle' hstart' hnext' =>
      rw [hops] at hops'
      rw [hnext] at hnext'
      exact .opened _ _ hpos hops' hhandle' hstart' hnext'
  | closed _ _ hpos hops hunit _ =>
    have hhandle : g₁.unit.handle = 0 := by
      rw [hunit]
      rfl
    cases h₂ with
    | kept _ hops' _ _ hnone' hnext' =>
      exact .closed _ _ hpos (hops'.trans hops) ((hnone' hhandle).trans hunit) (hnext'.trans hnext)
    | closed _ _ _ hops' hunit' hnext' =>
      rw [hops, OpState.clearedAfter_clearedAfter] at hops'
      exact .closed _ _ (Nat.add_pos_left hpos _) hops' hunit' (hnext'.trans hnext)
    | opened _ _ _ hops' hhandle' hstart' hnext' =>
      rw [hops, OpState.clearedAfter_clearedAfter] at hops'
      rw [hnext] at hnext'
      exact .opened _ _ (Nat.add_pos_left hpos _) hops' hhandle' hstart' hnext'

/-! ## Forks -/

/-- A look for a fork keeps the unit or ends it. -/
theorem unitEffect_detectFork (g : Globals) (env : CallEnv) (now : UInt64) :
    ∃ k ≤ 1, UnitEffect g now k (g.detectFork env) ∧ (g.detectFork env).nextHandle = g.nextHandle := by
  unfold Globals.detectFork
  split
  · exact ⟨0, Nat.zero_le 1, .refl g now, rfl⟩
  · split
    · exact ⟨0, Nat.zero_le 1, .kept _ rfl rfl rfl (fun _ => rfl) rfl, rfl⟩
    · exact ⟨1, Nat.le_refl 1, .closed _ _ Nat.one_pos g.ops.opsReset_eq rfl rfl, rfl⟩

/-- What a call does after the look for a fork. -/
theorem UnitEffect.afterFork {g' : Globals} (h : ∃ k ≤ 1, UnitEffect (g.detectFork env) now k g') :
    ∃ k ≤ 2, UnitEffect g now k g' := by
  obtain ⟨k₁, hk₁, hfork, hnext⟩ := unitEffect_detectFork g env now
  obtain ⟨k₂, hk₂, heffect⟩ := h
  exact ⟨k₁ + k₂, Nat.add_le_add hk₁ hk₂, hfork.after hnext heffect⟩

/-! ## Units -/

/-- No handle is followed by itself. -/
theorem advanceHandle_ne_self (handle : UInt32) : Globals.advanceHandle handle ≠ handle := by
  unfold Globals.advanceHandle
  split
  · next hwrapped =>
    intro heq
    rw [← heq] at hwrapped
    exact absurd hwrapped (by decide)
  · intro heq
    have hone : (1 : UInt32) = 0 := UInt32.add_right_inj handle |>.mp (heq.trans (UInt32.add_zero handle).symm)
    cases hone

/-- What starting the profiler leaves alone. -/
theorem startProfiler_same (g : Globals) (request : UnitRequest) (maxDurationNs : Nat) (env : CallEnv) :
    (g.startProfiler request maxDurationNs env).unit.handle = g.unit.handle ∧
      (g.startProfiler request maxDurationNs env).unit.startNs = g.unit.startNs ∧
      (g.startProfiler request maxDurationNs env).unit.type = g.unit.type := by
  unfold Globals.startProfiler
  simp only
  split <;> exact ⟨rfl, rfl, rfl⟩

/-- The unit that is opened, as far as its profiler does not matter. -/
structure UnitOpened (g : Globals) (request : UnitRequest) (automatic : Bool) (env : CallEnv) (g' : Globals) :
    Prop where
  ops_eq : g'.ops = g.ops.opsReset
  handle_eq : g'.unit.handle = Globals.advanceHandle g.nextHandle
  startNs_eq : g'.unit.startNs = clock env.now
  type_eq : g'.unit.type = request.type
  nextHandle_eq : g'.nextHandle = Globals.advanceHandle g.nextHandle

theorem unitOpened_unitOpen (g : Globals) (request : UnitRequest) (automatic : Bool) (env : CallEnv) :
    UnitOpened g request automatic env (g.unitOpen request automatic env) := by
  unfold Globals.unitOpen
  simp only
  split
  · obtain ⟨hhandle, hstart, htype⟩ := startProfiler_same (g.openUnit request automatic env) request
      (if automatic then (g.openUnit request automatic env).autoMaxMs.toNat * 1000000 else 0) env
    exact ⟨rfl, hhandle, hstart, htype, rfl⟩
  · exact ⟨rfl, rfl, rfl, rfl, rfl⟩

theorem UnitOpened.effect {request : UnitRequest} {automatic : Bool} {g' : Globals}
    (h : UnitOpened g request automatic env g') : UnitEffect g (clock env.now) 1 g' := by
  refine .opened _ _ Nat.one_pos h.ops_eq ?_ h.startNs_eq ?_
  · rw [h.handle_eq]
    exact advanceHandle_ne _
  · rw [h.nextHandle_eq]
    exact advanceHandle_ne_self _

/-- An adoption keeps the unit that it takes over. -/
theorem unitEffect_adopt (hopen : g.unit.handle ≠ 0) (context : Option Context) (env : CallEnv) (now : UInt64) :
    UnitEffect g now 0 (g.adopt context env) := by
  have hkept : ∀ (prof : Profiler.State) (unit : UnitState), unit.handle = g.unit.handle →
      unit.startNs = g.unit.startNs → UnitEffect g now 0 { g with
        prof := prof.clearDeadline
        unit := { unit with automatic := true }.applyTrace context } := by
    intro prof unit hhandle hstart
    have hsame := UnitState.applyTrace_same { unit with automatic := true } context
    refine .kept _ rfl ?_ ?_ (fun hnone => absurd hnone hopen) rfl
    · exact hsame.handle_eq.trans hhandle
    · exact hsame.startNs_eq.trans hstart
  unfold Globals.adopt
  -- Kept, restarted or stopped, the profiler and the unit stay under this handle.
  simp only
  split
  · exact hkept _ _ rfl rfl
  · split
    · obtain ⟨hhandle, hstart, -⟩ := startProfiler_same { g with unit := { g.unit with
        adopted := true
        sampled := (g.readContext context).sampled
        type := (Globals.contextType (context.getD [])).getD g.unit.type } } (g.readContext context) 0 env
      exact hkept _ _ hhandle hstart
    · exact hkept _ _ rfl rfl

/-- Opening a unit, and then giving it a trace. -/
theorem unitEffect_openTraced (g : Globals) (request : UnitRequest) (env : CallEnv) (context : Option Context) :
    UnitEffect g (clock env.now) 1 { g.unitOpen request false env with
      unit := (g.unitOpen request false env).unit.applyTrace context } := by
  have hopened := unitOpened_unitOpen g request false env
  generalize g.unitOpen request false env = g' at hopened
  have hsame := g'.unit.applyTrace_same context
  refine .opened _ _ Nat.one_pos hopened.ops_eq ?_ ?_ ?_
  · show (g'.unit.applyTrace context).handle ≠ 0
    rw [hsame.handle_eq, hopened.handle_eq]
    exact advanceHandle_ne _
  · exact hsame.startNs_eq.trans hopened.startNs_eq
  · show g'.nextHandle ≠ g.nextHandle
    rw [hopened.nextHandle_eq]
    exact advanceHandle_ne_self _

theorem unitEffect_beginUnit (g : Globals) (context : Option Context) (env : CallEnv) :
    ∃ k ≤ 1, UnitEffect g (clock env.now) k (g.beginUnit context env) := by
  unfold Globals.beginUnit
  split
  · next hadoptable =>
    simp only [Globals.adoptable, Bool.and_eq_true, bne_iff_ne] at hadoptable
    exact ⟨0, Nat.zero_le 1, unitEffect_adopt hadoptable.1.1 context env _⟩
  · simp only
    split
    · -- Stopping the profiler of the unit before is neither here nor there.
      have hstop : UnitEffect g (clock env.now) 0 { g with prof := g.prof.stop } := .kept _ rfl rfl rfl (fun _ => rfl) rfl
      have hopened := unitEffect_openTraced { g with prof := g.prof.stop } (g.readContext context) env context
      exact ⟨1, Nat.le_refl 1, hstop.after rfl hopened⟩
    · exact ⟨1, Nat.le_refl 1, unitEffect_openTraced g (g.readContext context) env context⟩

theorem unitEffect_finishUnit (g : Globals) (handle : Int) (includeProfile includeStacks : Bool) (env : CallEnv)
    (now : UInt64) : ∃ k ≤ 1, UnitEffect g now k (g.finishUnit handle includeProfile includeStacks env).2 := by
  unfold Globals.finishUnit
  split
  · exact ⟨0, Nat.zero_le 1, .refl g now⟩
  · split
    · exact ⟨0, Nat.zero_le 1, .refl g now⟩
    · exact ⟨1, Nat.le_refl 1, .closed _ _ Nat.one_pos rfl rfl rfl⟩

theorem unitEffect_rshutdown (g : Globals) (now : UInt64) : ∃ k ≤ 1, UnitEffect g now k g.rshutdown := by
  unfold Globals.rshutdown
  split
  · exact ⟨1, Nat.le_refl 1, .closed _ _ Nat.one_pos rfl rfl rfl⟩
  · exact ⟨0, Nat.zero_le 1, .refl g now⟩

theorem RequestStarted.effect {sapi : Option Bytes} {g' : Globals} (h : RequestStarted g sapi env g') :
    ∃ k ≤ 1, UnitEffect g (clock env.now) k g' := by
  have hsink : UnitEffect g (clock env.now) 0 { g with recorder := requestRecorder g env } :=
    .kept _ rfl rfl rfl (fun _ => rfl) rfl
  cases h with
  | quiet => exact ⟨0, Nat.zero_le 1, hsink⟩
  | opened _ _ =>
    have hopened := (unitOpened_unitOpen { g with recorder := requestRecorder g env }
      ⟨Globals.unitTypeForSapi sapi, true, true, g.periodUs, g.maxDepth⟩ true env).effect
    exact ⟨1, Nat.le_refl 1, hsink.after rfl hopened⟩

/-! ## Steps -/

/-- What the clock says in a step that reads it. -/
def Action.clockNow : Action → UInt64
  | .rinit _ e | .begin _ e | .finish _ _ _ e | .status e => clock e.now
  | .opBegin _ now | .opEnd _ now => now
  | _ => 0

/-- One of the two ends of a hooked call. -/
def Action.isHook : Action → Bool
  | .opBegin _ _ | .opEnd _ _ => true
  | _ => false

/-- **Every other step has one of the three effects**, and leaves the hooked calls alone. -/
theorem unitEffect_step {w w' : Worker} {a : Action} (hstep : WorkerSteps w a w') (hhook : a.isHook = false) :
    w'.calls = w.calls ∧ ∃ k ≤ 2, UnitEffect w.globals a.clockNow k w'.globals := by
  -- A call looks for a fork and then does one thing to the unit, so there are two resets at most.
  cases a with
  | rinit sapi e =>
    cases hstep
    exact ⟨rfl, UnitEffect.afterFork (started_rinit w.globals sapi (w.env e)).effect⟩
  | rshutdown =>
    cases hstep
    obtain ⟨k, hk, heffect⟩ := unitEffect_rshutdown w.globals 0
    exact ⟨rfl, k, hk.trans (Nat.le_succ 1), heffect⟩
  | begin context e =>
    cases hstep
    refine ⟨rfl, ?_⟩
    show ∃ k ≤ 2, UnitEffect w.globals (clock e.now) k (w.globals.begin context (w.env e)).2
    unfold Globals.begin
    split
    · exact ⟨0, Nat.zero_le 2, .refl _ _⟩
    · exact UnitEffect.afterFork (unitEffect_beginUnit _ context _)
  | finish handle p s e =>
    cases hstep
    exact ⟨rfl, UnitEffect.afterFork (unitEffect_finishUnit _ handle p s _ _)⟩
  | status e =>
    cases hstep
    exact ⟨rfl, UnitEffect.afterFork ⟨0, Nat.zero_le 1, .refl _ _⟩⟩
  | iniSet periodUs maxDepth =>
    cases hstep
    exact ⟨rfl, 0, Nat.zero_le 2, .kept _ rfl rfl rfl (fun _ => rfl) rfl⟩
  | opBegin _ _ | opEnd _ _ => cases hhook
  | tick ticks =>
    cases hstep
    exact ⟨rfl, 0, Nat.zero_le 2, .kept _ rfl rfl rfl (fun _ => rfl) rfl⟩
  | interrupt stack between now =>
    simp only [WorkerSteps, Worker.step] at hstep
    split at hstep
    · cases hstep
      exact ⟨rfl, 0, Nat.zero_le 2, .kept _ rfl rfl rfl (fun _ => rfl) rfl⟩
    · cases hstep
  | fork child =>
    cases hstep
    exact ⟨rfl, 0, Nat.zero_le 2, .kept _ rfl rfl rfl (fun _ => rfl) rfl⟩

end CboxTelemetry.Extension
