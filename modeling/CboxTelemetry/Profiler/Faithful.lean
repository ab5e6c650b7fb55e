import CboxTelemetry.Profiler.Conservation
import CboxTelemetry.Profiler.Output

/-!
# The call tree is a tally of paths

What the tree is for: it says how many ticks were booked on each path of frames. The samples that were
booked since the last reset, in the order they came (`Ledger.samples`), are a tally by path, and a node
carries the weight of its path in that tally (`Traced`). The list of triples that is handed out is the
same tree again (`RootPath`, `faithful_of_run`).
-/

namespace CboxTelemetry.Profiler

open StackTree (IsPath)

/-! ## Nodes and the tally -/

/-- The tree tells how much was booked on each path. -/
structure Traced (m : Machine) : Prop where
  samples_eq : ∀ (id : Nat) (n : Node) (path : List Nat), 1 ≤ id → m.prof.tree.nodes[id]? = some n →
    IsPath m.prof.tree id path → n.samples = Tally.weightAt m.ledger.samples path
  booked : ∀ e ∈ m.ledger.samples, ∃ id, 1 ≤ id ∧ IsPath m.prof.tree id e.1
  total_eq : Tally.total m.ledger.samples = m.prof.samples

/-- A setup has traced nothing. -/
theorem Setup.traced (c : Setup) : Traced c.machine := by
  have hfresh := c.fresh
  refine ⟨?_, nofun, hfresh.samples.symm⟩
  intro id n path hid hget _
  have hlt := (List.getElem?_eq_some_iff.mp hget).1
  rcases hfresh.nodes with hnodes | hnodes
  · rw [show c.machine.prof.tree.nodes = [] from hnodes, List.length_nil] at hlt
    omega
  · rw [show c.machine.prof.tree.nodes = [rootNode] from hnodes, List.length_singleton] at hlt
    omega

section step
variable {m m' : Machine} {s s' : State}

/-- Counters of ticks do not change what is traced. -/
theorem Traced.same (h : Traced m) (hsame : State.Same m.prof m'.prof)
    (hledger : m'.ledger.samples = m.ledger.samples) : Traced m' := by
  refine ⟨?_, ?_, ?_⟩
  · rw [hsame.tree, hledger]
    exact h.samples_eq
  · rw [hsame.tree, hledger]
    exact h.booked
  · rw [hsame.samples, hledger]
    exact h.total_eq

/-- After a reset nothing is booked and there are no nodes. -/
theorem Traced.restarted (hstored : m.prof.Stored) (hready : m.prof.ready = true)
    (hsame : State.Same m.prof.reset m'.prof) (hledger : m'.ledger = m.ledger.restart true) :
    Traced m' := by
  obtain ⟨hnodes, -⟩ := hstored.tree_reset hready
  have hnone : m'.ledger.samples = [] := by
    rw [hledger]
    rfl
  refine ⟨?_, ?_, ?_⟩
  · intro id n path hid hget _
    have hlt := (List.getElem?_eq_some_iff.mp hget).1
    rw [hsame.tree, hnodes, List.length_singleton] at hlt
    omega
  · rw [hnone]
    exact nofun
  · rw [hnone, hsame.samples, State.reset_ready hready]
    rfl

/-- Nodes that a sample leaves behind without being booked on them carry nothing, and nothing was booked
on their paths. -/
theorem Traced.grown (h : Traced m) {tree : StackTree} (hgrows : StackTree.Grows m.prof.tree tree)
    (htree : tree.Valid) {id : Nat} {n : Node} {path : List Nat} (hid : 1 ≤ id)
    (hget : tree.nodes[id]? = some n) (hpath : IsPath tree id path) (hold : m.prof.tree.Valid) :
    n.samples = Tally.weightAt m.ledger.samples path := by
  rcases hgrows.get_cases hget with hthere | ⟨hnew, hzero⟩
  · -- An old node has an old path, and that is its only one.
    obtain ⟨path', hpath'⟩ := hold.exists_path (List.getElem?_eq_some_iff.mp hthere).1
    have hsame := (hpath'.grows hgrows).unique hpath
    rw [← hsame]
    exact h.samples_eq id n path' hid hthere hpath'
  · rw [hzero]
    refine (Nat.eq_zero_of_not_pos ?_).symm
    intro hpos
    obtain ⟨w, hmem, -⟩ := Tally.weightAt_pos_iff.mp hpos
    obtain ⟨id', -, hbooked⟩ := h.booked (path, w) hmem
    have hsame := htree.path_inj (hbooked.grows hgrows) hpath
    have hlt := hbooked.lt hold
    omega

/-- Collecting a sample keeps the trace of all of them. -/
theorem Traced.collected (h : Traced m) {stack : Stack} {weight : Nat} (hbefore : State.Same m.prof s)
    (hcollected : s.Collected stack weight s') (hafter : State.Same s' m'.prof) (hweight : 0 < weight)
    (hledger : m'.ledger = m.ledger.book (s.bookedPath stack) weight) (hstored : m.prof.Stored)
    (hsmall : m.prof.samples + weight < 2 ^ 32) : Traced m' := by
  have htree : s.tree = m.prof.tree := hbefore.tree
  have hafterTree := hafter.tree
  have hafterSamples := hafter.samples
  cases hcollected with
  -- Dropped: the tree may have grown by nodes without samples.
  | dropped s₁ tree hframed hnone hgrows hstored' =>
    have hsamples : m'.ledger.samples = m.ledger.samples := by
      rw [hledger, hnone]
      rfl
    rw [htree] at hgrows
    have htree' : m'.prof.tree = tree := hafterTree
    refine ⟨?_, ?_, ?_⟩
    · rw [htree', hsamples]
      intro id n path hid hget hpath
      exact h.grown hgrows hstored'.tree hid hget hpath hstored.tree
    · rw [htree', hsamples]
      intro e he
      obtain ⟨id, hid, hpath⟩ := h.booked e he
      exact ⟨id, hid, hpath.grows hgrows⟩
    · rw [hsamples, h.total_eq, hafterSamples, ← hbefore.samples]
      exact hframed.samples_eq.symm
  | booked s₁ tree path node hframed hsome hgrows hstored' hnode hpath =>
    have hsamples : m'.ledger.samples = m.ledger.samples ++ [(path, weight)] := by
      rw [hledger, hsome]
      rfl
    rw [htree] at hgrows
    have htree' : m'.prof.tree = tree.record node weight := hafterTree
    have hvalid : tree.Valid := hstored'.tree
    have hlt := hpath.lt hvalid
    refine ⟨?_, ?_, ?_⟩
    · rw [htree', hsamples]
      intro id n path' hid hget hpath'
      rw [StackTree.IsPath.record hvalid hlt hweight] at hpath'
      rw [StackTree.record_get hvalid hlt hweight, Option.map_eq_some_iff] at hget
      obtain ⟨n₀, hget₀, rfl⟩ := hget
      have hbefore₀ := h.grown hgrows hvalid hid hget₀ hpath' hstored.tree
      have hle := Tally.weightAt_le_total m.ledger.samples path'
      rw [h.total_eq] at hle
      rw [Tally.weightAt_append, Tally.weightAt_singleton]
      -- The node of the path that was booked gained the weight, and no other path ends there.
      by_cases hsame : node = id
      · subst hsame
        rw [if_pos rfl, if_pos (hpath.unique hpath'), u32_of_lt (by omega), hbefore₀]
      · have hother : path ≠ path' := by
          intro heq
          exact hsame (hvalid.path_inj hpath (heq ▸ hpath'))
        rw [if_neg hsame, if_neg hother, Nat.add_zero]
        exact hbefore₀
    · rw [htree', hsamples]
      intro e he
      rcases List.mem_append.mp he with hold | hnew
      · obtain ⟨id, hid, hthere⟩ := h.booked e hold
        exact ⟨id, hid, (StackTree.IsPath.record hvalid hlt hweight).mpr (hthere.grows hgrows)⟩
      · rw [List.mem_singleton.mp hnew]
        exact ⟨node, hnode, (StackTree.IsPath.record hvalid hlt hweight).mpr hpath⟩
    · have hroom : u64 (m.prof.samples + weight) = m.prof.samples + weight := u64_of_lt (by omega)
      rw [hsamples, Tally.total_append, h.total_eq, hafterSamples, Tally.total_cons, Tally.total_nil,
        Nat.add_zero]
      show _ = u64 (s.samples + weight)
      rw [hbefore.samples, hroom]

/-- A step keeps the trace. -/
theorem Traced.step (h : Traced m) (hbalanced : Balanced m) (heffect : Effect m m')
    (hsmall : m'.ledger.delivered < 2 ^ 32) : Traced m' := by
  cases heffect with
  | ticked ticks heq =>
    subst heq
    exact h.same (m.prof.same_tick ticks) rfl
  | quiet discarded hsame hledger _ =>
    refine h.same hsame ?_
    rw [hledger]
    rfl
  | restarted hready hsame hledger _ =>
    exact .restarted (hbalanced.sound.stored hready) hready hsame hledger
  | collected s s' stack weight hbefore hcollected hafter hweight hready hledger hpending =>
    have hdelivered := hbalanced.conserved.delivered_eq
    have hnow := hbalanced.conserved.bookedNow_eq
    have hbooked := hbalanced.bookedNow_le
    rw [hledger] at hsmall
    have hsmall' : m.ledger.delivered < 2 ^ 32 := hsmall
    exact h.collected hbefore hcollected hafter hweight hledger (hbalanced.sound.stored hready)
      (by omega)

end step

/-! ## The list that is handed out -/

/-- The frames on the way from the root to a node of an emitted list. The number of a node is its
position plus 1, and 0 is the root. -/
inductive RootPath (stackList : List StackEntry) : Nat → List Nat → Prop
  | root : RootPath stackList 0 []
  | step {i : Nat} {e : StackEntry} {path : List Nat} : stackList[i]? = some e →
      RootPath stackList e.parent path → RootPath stackList (i + 1) (path ++ [e.frameId])

section rootPath
variable {s : State} {id i : Nat} {path : List Nat}

theorem stackList_get (s : State) (i : Nat) :
    s.stackList[i]? = s.tree.nodes[i + 1]?.map fun n => ⟨n.parent, n.frameId, n.samples⟩ := by
  rw [State.stackList, List.getElem?_map, List.getElem?_drop, Nat.add_comm]

/-- The emitted list has the paths of the tree. -/
theorem rootPath_iff : RootPath s.stackList id path ↔ IsPath s.tree id path := by
  constructor
  · intro h
    induction h with
    | root => exact .root
    | step hget _ ih =>
      rw [stackList_get, Option.map_eq_some_iff] at hget
      obtain ⟨n, hn, rfl⟩ := hget
      have hstep := IsPath.step (Nat.le_add_left 1 _) hn ih
      exact hstep
  · intro h
    induction h with
    | root => exact .root
    | @step id n path hid hget _ ih =>
      obtain ⟨i, rfl⟩ := Nat.exists_eq_add_of_le' hid
      have hget' : s.stackList[i]? = some ⟨n.parent, n.frameId, n.samples⟩ := by
        rw [stackList_get, hget]
        rfl
      have hstep := RootPath.step hget' ih
      exact hstep

end rootPath

/-- **What the emitted call tree of a profile says**, when the samples `booked` have been booked. -/
structure Faithful (s : State) (booked : List (List Nat × Nat)) : Prop where
  parent_lt : ∀ (i : Nat) (e : StackEntry), s.stackList[i]? = some e → e.parent < i + 1
  frame_lt : ∀ (i : Nat) (e : StackEntry), s.stackList[i]? = some e →
    e.frameId < (s.profileInto true).frames.length
  /-- Every node hangs on the root. -/
  exists_path : ∀ i < s.stackList.length, ∃ path, RootPath s.stackList (i + 1) path
  path_inj : ∀ id id' path, RootPath s.stackList id path → RootPath s.stackList id' path → id = id'
  samples_eq : ∀ (i : Nat) (e : StackEntry) (path : List Nat), s.stackList[i]? = some e →
    RootPath s.stackList (i + 1) path →
    e.samples = Tally.weightAt booked path
  /-- What was booked is on a node. -/
  booked : ∀ e ∈ booked, ∃ i < s.stackList.length, RootPath s.stackList (i + 1) e.1
  /-- A path that has a node can be booked again, on that node, whether the tree is full or not. -/
  bookable : ∀ i path, RootPath s.stackList (i + 1) path → ∀ stack s₁ weight,
    s.samplePath stack = some (some path, s₁) →
    s.collect stack weight = some { s₁ with
      tree := s.tree.record (i + 1) weight
      samples := u64 (s.samples + weight) }

/-- A traced machine with something stored reports faithfully. -/
theorem Traced.faithful {m : Machine} (h : Traced m) (hstored : m.prof.Stored) :
    Faithful m.prof m.ledger.samples := by
  have htree := hstored.tree
  have hlength : m.prof.stackList.length + 1 = m.prof.tree.nodes.length := by
    have hpos := htree.length_pos
    rw [State.stackList, List.length_map, List.length_drop]
    omega
  -- An entry of the report is a node of the tree, one place further.
  have hnode : ∀ i e, m.prof.stackList[i]? = some e → ∃ n, m.prof.tree.nodes[i + 1]? = some n ∧
      e = ⟨n.parent, n.frameId, n.samples⟩ := by
    intro i e hget
    rw [stackList_get, Option.map_eq_some_iff] at hget
    obtain ⟨n, hn, rfl⟩ := hget
    exact ⟨n, hn, rfl⟩
  refine ⟨?_, ?_, ?_, ?_, ?_, ?_, ?_⟩
  · intro i e hget
    obtain ⟨n, hn, rfl⟩ := hnode i e hget
    exact htree.parent_lt (i + 1) n.edge (Nat.le_add_left 1 i) (StackTree.edges_get hn)
  · intro i e hget
    obtain ⟨n, hn, rfl⟩ := hnode i e hget
    have hlt := hstored.frame_lt (i + 1) n.edge (Nat.le_add_left 1 i) (StackTree.edges_get hn)
    show n.frameId < (m.prof.frames.frames.map _).length
    rw [List.length_map]
    exact hlt
  · intro i hi
    obtain ⟨path, hpath⟩ := htree.exists_path (show i + 1 < m.prof.tree.nodes.length by omega)
    exact ⟨path, rootPath_iff.mpr hpath⟩
  · intro id id' path hpath hpath'
    exact htree.path_inj (rootPath_iff.mp hpath) (rootPath_iff.mp hpath')
  · intro i e path hget hpath
    obtain ⟨n, hn, rfl⟩ := hnode i e hget
    exact h.samples_eq (i + 1) n path (Nat.le_add_left 1 i) hn (rootPath_iff.mp hpath)
  · intro e he
    obtain ⟨id, hid, hpath⟩ := h.booked e he
    obtain ⟨i, rfl⟩ := Nat.exists_eq_add_of_le' hid
    have hlt := hpath.lt htree
    exact ⟨i, by omega, rootPath_iff.mpr hpath⟩
  -- A path of the report is the one that its stack is sampled under again.
  · intro i path hpath stack s₁ weight hsample
    obtain ⟨r, s', hsample', hframed, -⟩ := hstored.samplePath stack
    cases hsample.symm.trans hsample'
    have hdescend := htree.descend_found IsPath.root (rootPath_iff.mp hpath)
    unfold State.collect
    simp only [hsample, hframed.tree_eq, hdescend, hframed.samples_eq]

/-- A profiler that is not ready emits nothing, and nothing was booked. -/
theorem Traced.faithful_nothing {m : Machine} (h : Traced m) (hnone : m.prof.tree = .cleared) :
    Faithful m.prof m.ledger.samples := by
  have hget : ∀ i : Nat, m.prof.stackList[i]? = none := by
    intro i
    rw [stackList_get, hnone]
    rfl
  have hroot : ∀ id path, RootPath m.prof.stackList id path → id = 0 := by
    intro id path hpath
    cases hpath with
    | root => rfl
    | step hsome _ =>
      rw [hget] at hsome
      cases hsome
  have hlength : m.prof.stackList.length = 0 := by
    rw [State.stackList, hnone]
    rfl
  refine ⟨?_, ?_, ?_, ?_, ?_, ?_, ?_⟩
  · intro i e hsome
    rw [hget] at hsome
    cases hsome
  · intro i e hsome
    rw [hget] at hsome
    cases hsome
  · intro i hi
    omega
  · intro id id' path hpath hpath'
    rw [hroot id path hpath, hroot id' path hpath']
  · intro i e path hsome
    rw [hget] at hsome
    cases hsome
  · intro e he
    obtain ⟨id, hid, hpath⟩ := h.booked e he
    have hzero := hroot id e.1 (rootPath_iff.mpr hpath)
    omega
  · intro i path hpath
    exact absurd (hroot (i + 1) path hpath) (Nat.succ_ne_zero i)

/-! ## Runs -/

/-- Every run of the machine is balanced and traced. -/
theorem traced_of_run {c : Setup} {as : List Action} {m : Machine}
    (hrun : Run MachineSteps c.machine as m) (hticks : m.ledger.delivered < 2 ^ 32) :
    Balanced m ∧ Traced m := by
  have hstep : ∀ m a m', (m.ledger.delivered < 2 ^ 32 → Balanced m ∧ Traced m) →
      MachineSteps m a m' → m'.ledger.delivered < 2 ^ 32 → Balanced m' ∧ Traced m' := by
    intro m a m' hm hstep hsmall
    obtain ⟨hbalanced, htraced⟩ := hm ((delivered_le_of_step hstep).trans_lt hsmall)
    have heffect := step_effect hbalanced.sound.stored hstep
    exact ⟨hbalanced.step heffect hsmall, htraced.step hbalanced heffect hsmall⟩
  exact Run.invariant hstep (fun _ => ⟨c.balanced, c.traced⟩) hrun hticks

/-- **The emitted call tree is faithful** to the samples that were booked, at every point of every run
with fewer than `2 ^ 32` ticks. -/
theorem faithful_of_run (c : Setup) {as : List Action} {m : Machine}
    (hrun : Run MachineSteps c.machine as m) (hticks : m.ledger.delivered < 2 ^ 32) :
    Faithful m.prof m.ledger.samples := by
  obtain ⟨hbalanced, htraced⟩ := traced_of_run hrun hticks
  cases hready : m.prof.ready with
  | true => exact htraced.faithful (hbalanced.sound.stored hready)
  | false => exact htraced.faithful_nothing (hbalanced.sound.nothing hready).2.1

/-- The profile of `racingTicks`, whose interrupt books the two ticks it took first. -/
theorem faithful_of_run_racing : ∃ as m, Run MachineSteps smallSetup.machine as m ∧
    m.ledger.delivered = 5 ∧ Faithful m.prof m.ledger.samples := by
  obtain ⟨m, pending, deliveries, hfront, hpc, hdelivered⟩ := run_racingTicks smallSetup.prof
  have hstart : Run MachineSteps smallSetup.machine racingTicks m := hfront
  have hsound := (balanced_of_run hstart (by rw [hdelivered]; decide)).sound
  obtain ⟨m', hserve, hsame⟩ := serve_isSome hsound hpc [some (plainFunction "work")] startUp
  have hrun := hstart.append (.single hserve)
  have hfive : m'.ledger.delivered = 5 := by rw [hsame, hdelivered]
  exact ⟨_, m', hrun, hfive, faithful_of_run smallSetup hrun (by rw [hfive]; decide)⟩

end CboxTelemetry.Profiler
