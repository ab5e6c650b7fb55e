import CboxTelemetry.Profiler.Restart
import CboxTelemetry.Profiler.Driven

/-!
# How much a profile can hold

The profiler is always on, so what it may take is fixed before it starts: tables of the sizes that
`cbox_profiler_init` was given, and no path longer than the depth that was asked for, with the marker
(`Confined`). A start is all that can change the period and the depth, so a profiler that runs has those of the
start (`confined_of_run`).
-/

namespace CboxTelemetry.Profiler

/-! ## Trees without long paths -/

namespace StackTree
variable {t t' : StackTree} {id node parent frameId n : Nat} {base path p : List Nat}

/-- A path of a tree that has grown is one that was there, or leads to a new node. -/
theorem Grows.path_cases (hgrows : Grows t t') (h : t.Valid) (hpath : IsPath t' id p) :
    IsPath t id p ∨ t.nodes.length ≤ id := by
  rcases Nat.lt_or_ge id t.nodes.length with hlt | hge
  · obtain ⟨p', hold⟩ := h.exists_path hlt
    have hsame := (hold.grows hgrows).unique hpath
    exact .inl (hsame ▸ hold)
  · exact .inr hge

/-- One call of `child` adds at most the path through the node that it is given. -/
theorem Valid.child_paths (h : t.Valid) (hbase : IsPath t parent base) {r : Option Nat}
    (hchild : t.child parent frameId = some (r, t')) (hpath : IsPath t' id p) :
    IsPath t id p ∨ p = base ++ [frameId] := by
  have hparent := hbase.lt h
  obtain ⟨r', t₁, hchild₁, -, hgrows, -⟩ := h.child hparent frameId
  cases hchild.symm.trans hchild₁
  rcases hgrows.path_cases h hpath with hold | hnew
  · exact .inl hold
  -- There is a new node, so the edge was not there, and there was room for it.
  -- The only new node is the one appended, and its parent's path is the base.
  cases hpath with
  | root => exact absurd h.length_pos (Nat.not_lt.mpr hnew)
  | @step id n q hpos hget hq =>
    have hlt := (List.getElem?_eq_some_iff.mp hget).1
    by_cases hmem : ∃ id, 1 ≤ id ∧ t.edges[id]? = some (parent, frameId)
    · obtain ⟨id', hid', hedge⟩ := hmem
      cases hchild.symm.trans (h.child_found hparent hid' hedge)
      omega
    have hnone : ∀ id, 1 ≤ id → t.edges[id]? ≠ some (parent, frameId) :=
      fun id hid hedge => hmem ⟨id, hid, hedge⟩
    rcases Nat.lt_or_ge t.nodes.length t.capacity with hroom | hfull
    · obtain ⟨t₂, hchild₂, -, hnodes, -, -⟩ := h.child_new hparent hroom hnone
      cases hchild.symm.trans hchild₂
      have hlast : id = t.nodes.length := by
        rw [hnodes, List.length_append, List.length_singleton] at hlt
        omega
      rw [hnodes, hlast, List.getElem?_concat_length] at hget
      cases hget
      right
      rw [hq.unique (hbase.grows hgrows)]
    · obtain ⟨hits, hchild₂⟩ := h.child_full hparent hfull hnone
      cases hchild.symm.trans hchild₂
      exact absurd hlt (Nat.not_lt.mpr hnew)

/-- A descent adds at most beginnings of the path that it is given. -/
theorem Valid.descend_paths (h : t.Valid) (hbase : IsPath t node base) {r : Option Nat}
    (hdescend : t.descend node path = some (r, t')) (hpath : IsPath t' id p) :
    IsPath t id p ∨ p <+: base ++ path := by
  induction path generalizing t node base with
  | nil =>
    cases hdescend
    exact .inl hpath
  | cons frameId path ih =>
    -- The walk adds one node for each frame, so a new path ends within the path walked.
    obtain ⟨r₁, t₁, hchild, hvalid₁, hgrows₁, -, hnode₁⟩ := h.child (hbase.lt h) frameId
    unfold StackTree.descend at hdescend
    simp only [hchild] at hdescend
    have hfirst : ∀ {id p}, IsPath t₁ id p → IsPath t id p ∨ p <+: base ++ frameId :: path := by
      intro id p hp
      refine (h.child_paths hbase hchild hp).imp_right ?_
      rintro rfl
      exact ⟨path, by rw [List.append_assoc, List.singleton_append]⟩
    cases r₁ with
    | none =>
      cases hdescend
      exact hfirst hpath
    | some node₁ =>
      obtain ⟨hpos, n₁, hget, hedge⟩ := hnode₁ node₁ rfl
      obtain ⟨hparent, hframe⟩ := Prod.mk.inj hedge
      have hnext : IsPath t₁ node₁ (base ++ [frameId]) := by
        rw [← hframe]
        exact .step hpos hget (hparent ▸ hbase.grows hgrows₁)
      rcases ih hvalid₁ hnext hdescend with hold | hnew
      · exact hfirst hold
      · rw [List.append_assoc, List.singleton_append] at hnew
        exact .inr hnew

/-- No path has more than `n` frames. -/
def Shallow (t : StackTree) (n : Nat) : Prop := ∀ id p, IsPath t id p → p.length ≤ n

/-- A tree of the root alone, or of nothing, has no path of more than no frames. -/
theorem shallow_of_root (hnodes : t.nodes = [] ∨ t.nodes = [rootNode]) : t.Shallow n := by
  intro id p hpath
  cases hpath with
  | root => exact Nat.zero_le _
  | step hpos hget _ =>
    have hlt := (List.getElem?_eq_some_iff.mp hget).1
    rcases hnodes with hnodes | hnodes
    · rw [hnodes, List.length_nil] at hlt
      omega
    · rw [hnodes, List.length_singleton] at hlt
      omega

end StackTree

namespace State
variable {s s' : State} {stack : Stack} {weight : Nat}

/-- A sample is booked on as many functions as the limit allows, and the marker. -/
theorem SampledPath.length_le {path : List Nat} (h : SampledPath s stack (some path) s') :
    path.length ≤ s.depthLimit + 1 := by
  have hinnermost : (innermostKeys s.depthLimit stack).length ≤ s.depthLimit := by
    rw [innermostKeys, List.length_reverse, List.length_map]
    exact List.length_take_le _ _
  cases h with
  | found path s' _ hkeys =>
    rw [hkeys.length_eq]
    unfold sampleKeys
    split
    · exact Nat.succ_le_succ (Nat.zero_le _)
    · split
      · exact Nat.succ_le_succ hinnermost
      · exact hinnermost.trans (Nat.le_succ _)
  | unmarked path s' _ _ _ hkeys =>
    rw [hkeys.length_eq]
    exact hinnermost.trans (Nat.le_succ _)

/-- Collecting a sample keeps the tree as shallow as the limit says. -/
theorem Stored.collect_shallow (h : s.Stored) (hweight : 0 < weight)
    (hcollect : s.collect stack weight = some s') (hshallow : s.tree.Shallow (s.depthLimit + 1)) :
    s'.tree.Shallow (s.depthLimit + 1) := by
  obtain ⟨r, s₁, hsample, hframed, hpath⟩ := h.samplePath stack
  unfold State.collect at hcollect
  rw [hsample] at hcollect
  cases r with
  | none =>
    cases hcollect
    show s₁.tree.Shallow _
    rw [hframed.tree_eq]
    exact hshallow
  | some path =>
    obtain ⟨r, tree, hdescend, hvalid, -, -, hnode⟩ :=
      hframed.stored.tree.descend path StackTree.IsPath.root
    -- The tree that the walk leaves holds old paths and prefixes of the sampled one.
    have hgrown : tree.Shallow (s.depthLimit + 1) := by
      intro id p hp
      rcases hframed.stored.tree.descend_paths StackTree.IsPath.root hdescend hp with hold | hnew
      · rw [hframed.tree_eq] at hold
        exact hshallow id p hold
      · exact hnew.length_le.trans hpath.length_le
    simp only [hdescend] at hcollect
    cases r with
    | none =>
      cases hcollect
      exact hgrown
    | some node =>
      cases hcollect
      intro id p hp
      rw [StackTree.IsPath.record hvalid ((hnode node rfl).lt hvalid) hweight] at hp
      exact hgrown id p hp

end State

/-! ## The limits of a profile -/

/-- Tables and an arena of the sizes that there were. -/
structure Sized (s₀ s : State) : Prop where
  ready_eq : s.ready = s₀.ready
  sizes : s₀.ready = true → s.arena.size = s₀.arena.size ∧ s.frames.capacity = s₀.frames.capacity ∧
    s.tree.capacity = s₀.tree.capacity

/-- A state with the same room keeps the sizes. -/
theorem Sized.room {s₀ s s' : State} (h : Sized s₀ s) (hroom : State.SameRoom s s') : Sized s₀ s' where
  ready_eq := hroom.ready_eq.trans h.ready_eq
  sizes hready := by
    have hready' : s.ready = true := h.ready_eq.trans hready
    rw [hroom.arena_eq hready', (hroom.frames_eq hready').1, (hroom.tree_eq hready').1]
    exact h.sizes hready

/-- So does one with the same tables. -/
theorem Sized.same {s₀ s s' : State} (h : Sized s₀ s) (hsame : State.Same s s') : Sized s₀ s' where
  ready_eq := hsame.ready.trans h.ready_eq
  sizes hready := by
    rw [hsame.arena, hsame.frames, hsame.tree]
    exact h.sizes hready

/-- The profiler `s` has the room that `s₀` was set up with, and its tree is shallow; while it runs, and as long as
it has samples, its period and its depth are such that have been asked for. -/
structure Confined (asked : Nat → Nat → Nat → Prop) (s₀ s : State) : Prop where
  sound : s.Sound
  sized : Sized s₀ s
  shallow : s.tree.Shallow (s.depthLimit + 1)
  paced : s.running = true ∨ 0 < s.samples → ∃ maxDepth maxDurationNs,
    asked s.periodNs maxDepth maxDurationNs ∧ s.depthLimit ≤ maxDepth

namespace Confined
variable {asked : Nat → Nat → Nat → Prop} {s₀ s s' : State}

/-- What leaves the storage and the settings alone, and does not start the profiler. -/
theorem same (h : Confined asked s₀ s) (hsame : State.Same s s') (hdepth : s'.maxDepth = s.maxDepth)
    (hperiod : s'.periodNs = s.periodNs) (hrunning : s'.running = true → s.running = true) :
    Confined asked s₀ s' := by
  have hlimit : s'.depthLimit = s.depthLimit := by rw [State.depthLimit, State.depthLimit, hdepth]
  refine ⟨h.sound.same hsame, h.sized.same hsame, ?_, fun hrun => ?_⟩
  · rw [hsame.tree, hlimit]
    exact h.shallow
  · rw [hperiod, hlimit]
    rw [hsame.samples] at hrun
    exact h.paced (hrun.imp_left hrunning)

/-- What stops the profiler and does nothing else. -/
theorem halted (h : Confined asked s₀ s) (hsame : State.Same s s') (hdepth : s'.maxDepth = s.maxDepth)
    (hperiod : s'.periodNs = s.periodNs) (hstopped : s'.running = false) : Confined asked s₀ s' := by
  apply h.same hsame hdepth hperiod
  intro hrun
  rw [hstopped] at hrun
  cases hrun

/-- A reset keeps the bounds. -/
theorem reset (h : Confined asked s₀ s) : Confined asked s₀ s.reset := by
  obtain ⟨hrunning, -, -, hperiod, -⟩ := s.reset_keeps
  have hlimit : s.reset.depthLimit = s.depthLimit := by
    unfold State.reset
    split <;> rfl
  refine ⟨h.sound.reset, h.sized.room (State.sameRoom_reset s), ?_, fun hrun => ?_⟩
  · exact StackTree.shallow_of_root h.sound.empty_reset.nodes_eq
  · rw [h.sound.empty_reset.samples_eq] at hrun
    rw [hperiod, hlimit]
    exact h.paced (.inl (hrunning ▸ hrun.resolve_right (Nat.lt_irrefl 0)))

/-- A start of a profiler that stands still. -/
theorem start (h : Confined asked s₀ s) {periodNs maxDepth maxDurationNs : Nat} (hstopped : s.running = false)
    (hasked : asked periodNs maxDepth maxDurationNs) (hpos : 0 < maxDepth) (now : Instant) (io : TimerIo) :
    Confined asked s₀ (s.start periodNs maxDepth maxDurationNs now io).2 := by
  have hsound := h.sound.start periodNs maxDepth maxDurationNs now io
  have hsized := h.sized.room (State.sameRoom_start s periodNs maxDepth maxDurationNs now io)
  have hempty := h.sound.empty_reset
  have hstarted := State.started_start s periodNs maxDepth maxDurationNs now io
  -- The limit a start sets: the depth asked for, or the hard maximum where that is lower.
  have hlimit : (s.start periodNs maxDepth maxDurationNs now io).1 = true →
      (s.start periodNs maxDepth maxDurationNs now io).2.depthLimit ≤ maxDepth := by
    unfold State.start
    split
    · exact nofun
    · simp only
      split
      · exact nofun
      · intro _
        show State.depthLimit { s with maxDepth := if maxDepth = 0 ∨ profilerDepthHardMax < maxDepth
          then profilerDepthHardMax else maxDepth } ≤ maxDepth
        unfold State.depthLimit profilerDepthHardMax
        by_cases hdeep : maxDepth = 0 ∨ 256 < maxDepth
        · simp only [if_pos hdeep, ite_self]
          omega
        · simp only [if_neg hdeep]
          exact le_rfl
  generalize s.start periodNs maxDepth maxDurationNs now io = result at *
  cases hstarted with
  | refused _ => exact h
  | unarmed s' _ hsame hrunning _ _ =>
    refine ⟨hsound, hsized, StackTree.shallow_of_root (hempty.same hsame).nodes_eq, fun hrun => ?_⟩
    rw [hrunning, hstopped, (hempty.same hsame).samples_eq] at hrun
    exact absurd hrun (by decide)
  | running s' _ hsame _ _ _ hperiod _ =>
    refine ⟨hsound, hsized, StackTree.shallow_of_root (hempty.same hsame).nodes_eq, fun _ => ?_⟩
    refine ⟨maxDepth, maxDurationNs, ?_, hlimit rfl⟩
    rw [hperiod]
    exact hasked

/-- What the interrupt handler books. -/
theorem book (h : Confined asked s₀ s) {stack : Stack} {pending deliveries : Nat} (hpending : 0 < pending)
    (hrunning : s.running = true) (hready : s.ready = true)
    (hbook : s.book stack pending deliveries = some s') : Confined asked s₀ s' := by
  have haccount : Confined asked s₀ (s.account pending deliveries) :=
    h.same ⟨rfl, rfl, rfl, rfl, rfl, rfl, rfl, rfl⟩ rfl rfl id
  have hstored := haccount.sound.stored hready
  obtain ⟨s₁, hcollect, hcollected⟩ := hstored.collect stack pending
  cases hbook.symm.trans hcollect
  have heq := hcollected.eq
  have hlimit : s'.depthLimit = (s.account pending deliveries).depthLimit := by
    rw [heq]
    rfl
  refine ⟨⟨fun _ => hcollected.stored, fun hno => ?_⟩, ?_, ?_, fun _ => ?_⟩
  · rw [hcollected.ready_eq] at hno
    exact absurd (hno.symm.trans hready) Bool.false_ne_true
  · exact haccount.sized.room (hstored.collect_room hready hcollect)
  · rw [hlimit]
    exact hstored.collect_shallow hpending hcollect haccount.shallow
  · have hperiod : s'.periodNs = (s.account pending deliveries).periodNs := by rw [heq]
    rw [hperiod, hlimit]
    exact haccount.paced (.inl hrunning)

end Confined

/-! ## Runs -/

section run
variable {asked : Nat → Nat → Nat → Prop} {s₀ : State} {m m' : Machine} {a : Action}

/-- **Every step** keeps within the limits. -/
theorem Confined.step (hpos : ∀ periodNs maxDepth maxDurationNs, asked periodNs maxDepth maxDurationNs → 0 < maxDepth)
    (h : Confined asked s₀ m.prof) (hstep : AskedSteps asked m a m') : Confined asked s₀ m'.prof := by
  obtain ⟨hasked, hstep⟩ := hstep
  obtain ⟨s, pc, l⟩ := m
  have hsame : ∀ {s s' : State}, s'.arena = s.arena → s'.frames = s.frames → s'.tree = s.tree →
      s'.truncatedFrame = s.truncatedFrame → s'.engineFrame = s.engineFrame → s'.samples = s.samples →
      s'.dropped = s.dropped → s'.ready = s.ready → State.Same s s' := fun h₁ h₂ h₃ h₄ h₅ h₆ h₇ h₈ =>
    ⟨h₁, h₂, h₃, h₄, h₅, h₆, h₇, h₈⟩
  unfold MachineSteps Machine.step at hstep
  split at hstep
  -- Only a start and a booked interrupt touch what is bounded. The other steps leave tables, period and depth.
  next ticks => cases hstep; exact h.same (s.same_tick ticks) rfl rfl id
  next periodNs maxDepth maxDurationNs now io hpc =>
    cases hstep
    exact h.start hasked.1 hasked.2 (hpos _ _ _ hasked.2) now io
  next hpc =>
    split at hstep
    · cases hstep; exact h.halted (hsame rfl rfl rfl rfl rfl rfl rfl rfl) rfl rfl rfl
    · cases hstep; exact h
  next hpc => cases hstep; exact h.same s.same_clearDeadline rfl rfl id
  next hpc => cases hstep; exact h.reset
  next hpc => cases hstep; exact h.same (s.same_timer _) rfl rfl id
  next hpc => cases hstep; exact h.halted (hsame rfl rfl rfl rfl rfl rfl rfl rfl) rfl rfl rfl
  next hpc => cases hstep; exact h.same (s.same_timer _) rfl rfl id
  next hpc => cases hstep; exact h.same (s.same_pending _ _) rfl rfl id
  next pending hpc => cases hstep; exact h.same (s.same_pending _ _) rfl rfl id
  next stack now pending deliveries hpc =>
    unfold Machine.serve at hstep
    split at hstep
    next hbooks =>
      simp only [State.books, Bool.and_eq_true, decide_eq_true_eq] at hbooks
      split at hstep
      · cases hstep
      next s₁ hbook =>
        have hbooked := h.book hbooks.1.1 hbooks.1.2 hbooks.2 hbook
        split at hstep
        · cases hstep
          exact hbooked.halted (hsame rfl rfl rfl rfl rfl rfl rfl rfl) rfl rfl rfl
        · cases hstep
          exact hbooked.same (hsame rfl rfl rfl rfl rfl rfl rfl rfl) rfl rfl id
    · cases hstep; exact h
  next after hpc => cases hstep; exact h.same (s.same_pending _ _) rfl rfl id
  next after hpc =>
    cases hstep
    have htaken : Confined asked s₀ s.takeDeliveries.2 :=
      h.same (s.same_pending _ _) rfl rfl id
    cases after with
    | stop => exact htaken
    | cap => exact htaken.same (hsame rfl rfl rfl rfl rfl rfl rfl rfl) rfl rfl id
    | fork => exact htaken.reset
  · cases hstep

/-- **The limits hold in every run.** -/
theorem confined_of_run {c : Setup} {as : List Action}
    (hpos : ∀ periodNs maxDepth maxDurationNs, asked periodNs maxDepth maxDurationNs → 0 < maxDepth)
    (hrun : Run (AskedSteps asked) c.machine as m) : Confined asked c.prof m.prof := by
  have hidle := State.setup_idle c
  have hstart : Confined asked c.prof c.machine.prof := by
    refine ⟨c.fresh.sound, ⟨rfl, fun _ => ⟨rfl, rfl, rfl⟩⟩, StackTree.shallow_of_root hidle.2.2.nodes_eq, ?_⟩
    intro hrun
    rw [show c.machine.prof.running = false from hidle.1,
      show c.machine.prof.samples = 0 from c.fresh.samples] at hrun
    exact absurd hrun (by decide)
  have hstep : ∀ m a m', Confined asked c.prof (Machine.prof m) → AskedSteps asked m a m' →
      Confined asked c.prof m'.prof := fun _ _ _ h hs => h.step hpos hs
  have h := Run.invariant hstep hstart hrun
  exact h

end run

end CboxTelemetry.Profiler
