import CboxTelemetry.Profiler.Output
import CboxTelemetry.Profiler.Room

/-!
# What the top functions account for

The samples of a profile are spread over the functions they were taken in. `topFunctions` lists those
functions with the most samples first and stops after `topFunctionsMax` of them, so its samples add up
to the profile's `sampleCount` exactly when no more functions than that were sampled
(`topFunctions_sum_iff`).
-/

namespace CboxTelemetry.Profiler

namespace State

/-- The functions in which a sample was taken. -/
def sampledFunctions (s : State) : List Nat :=
  ((s.tree.nodes.filter fun n => 0 < n.samples).map Node.frameId).dedup

variable {s : State}

/-- The nodes of a tree whose root has no samples are the others. -/
theorem total_drop_root (hroot : ∀ n, s.tree.nodes[0]? = some n → n.samples = 0) :
    Tally.total (byFrame (s.tree.nodes.drop 1)) = s.tree.sampleSum := by
  rw [total_byFrame, StackTree.sampleSum]
  cases hnodes : s.tree.nodes with
  | nil => rfl
  | cons root nodes =>
    rw [hnodes] at hroot
    rw [List.drop_one, List.tail_cons, List.map_cons, List.sum_cons, hroot root rfl, Nat.zero_add]

/-- The totals are the weights of a tally. -/
theorem functionTotals_eq (hframes : ∀ n ∈ s.tree.nodes.drop 1, n.frameId < s.frames.frames.length)
    (hsmall : Tally.total (byFrame (s.tree.nodes.drop 1)) < 2 ^ 64) :
    s.functionTotals = (List.range s.frames.frames.length).map fun k =>
      ⟨k, Tally.weightAt (byFrame (s.tree.nodes.drop 1)) k⟩ := by
  have hloop := foldl_addNode hframes (fun _ => 0) (fun _ => by rw [Nat.zero_add]; exact hsmall)
  rw [functionTotals, hloop]
  refine List.map_congr_left fun k _ => ?_
  rw [Nat.zero_add]

/-- A function has a total when it was sampled. -/
theorem mem_sampledFunctions_iff (hroot : ∀ n, s.tree.nodes[0]? = some n → n.samples = 0) {k : Nat} :
    k ∈ s.sampledFunctions ↔ 0 < Tally.weightAt (byFrame (s.tree.nodes.drop 1)) k := by
  rw [sampledFunctions, List.mem_dedup, Tally.weightAt_pos_iff]
  constructor
  · intro hk
    obtain ⟨n, hn, rfl⟩ := List.mem_map.mp hk
    obtain ⟨hmem, hpos⟩ := List.mem_filter.mp hn
    have hpos : 0 < n.samples := by simpa using hpos
    refine ⟨n.samples, List.mem_map.mpr ⟨n, ?_, rfl⟩, hpos⟩
    -- The root has no samples, so it is none of the nodes found.
    cases hnodes : s.tree.nodes with
    | nil =>
      rw [hnodes] at hmem
      cases hmem
    | cons root nodes =>
      rw [hnodes] at hmem hroot
      rcases List.mem_cons.mp hmem with rfl | hrest
      · rw [hroot n rfl] at hpos
        exact absurd hpos (Nat.lt_irrefl 0)
      · exact hrest
  · rintro ⟨w, hw, hpos⟩
    obtain ⟨n, hn, heq⟩ := List.mem_map.mp hw
    cases heq
    exact List.mem_map.mpr ⟨n, List.mem_filter.mpr ⟨List.mem_of_mem_drop hn, by simpa using hpos⟩, rfl⟩

/-- There are as many functions with a total as were sampled. -/
theorem length_sampledFunctions (hroot : ∀ n, s.tree.nodes[0]? = some n → n.samples = 0)
    (hframes : ∀ n ∈ s.tree.nodes.drop 1, n.frameId < s.frames.frames.length) :
    ((List.range s.frames.frames.length).filter fun k =>
      0 < Tally.weightAt (byFrame (s.tree.nodes.drop 1)) k).length = s.sampledFunctions.length := by
  refine List.Perm.length_eq ?_
  refine (List.perm_ext_iff_of_nodup (List.nodup_range.filter _) (List.nodup_dedup _)).mpr fun k => ?_
  rw [← sampledFunctions, mem_sampledFunctions_iff hroot, List.mem_filter, List.mem_range,
    decide_eq_true_iff, and_iff_right_iff_imp]
  intro hpos
  obtain ⟨w, hw, -⟩ := Tally.weightAt_pos_iff.mp hpos
  obtain ⟨n, hn, heq⟩ := List.mem_map.mp hw
  cases heq
  exact hframes n hn

instance : IsTrans FunctionTotal FunctionTotal.Before where
  trans a b c hab hbc := by
    unfold FunctionTotal.Before at *
    omega

instance : Std.Total FunctionTotal.Before where
  total a b := by
    unfold FunctionTotal.Before
    omega

theorem before_samples {a b : FunctionTotal} (h : a.Before b) : b.samples ≤ a.samples := by
  unfold FunctionTotal.Before at h
  omega

/-- The samples of all functions together. -/
theorem sum_functionTotals (hroot : ∀ n, s.tree.nodes[0]? = some n → n.samples = 0)
    (hframes : ∀ n ∈ s.tree.nodes.drop 1, n.frameId < s.frames.frames.length)
    (hsmall : s.tree.sampleSum < 2 ^ 64) :
    (s.functionTotals.map FunctionTotal.samples).sum = s.tree.sampleSum := by
  have htotal := total_drop_root hroot
  have hkeys : ∀ e ∈ byFrame (s.tree.nodes.drop 1), e.1 < s.frames.frames.length := by
    intro e he
    obtain ⟨n, hn, rfl⟩ := List.mem_map.mp he
    exact hframes n hn
  rw [functionTotals_eq hframes (by rw [htotal]; exact hsmall), List.map_map, ← htotal]
  exact Tally.sum_weightAt_range hkeys

/-- **The top functions add up to the stored samples** exactly when they have room for all sampled
functions. -/
theorem sum_topFunctions_eq (hroot : ∀ n, s.tree.nodes[0]? = some n → n.samples = 0)
    (hframes : ∀ n ∈ s.tree.nodes.drop 1, n.frameId < s.frames.frames.length)
    (hsmall : s.tree.sampleSum < 2 ^ 64) :
    (s.topFunctions.map FunctionTotal.samples).sum = s.tree.sampleSum ↔
      s.sampledFunctions.length ≤ topFunctionsMax := by
  have hsorted : (s.functionTotals.insertionSort FunctionTotal.Before).Pairwise
      fun a b => b.samples ≤ a.samples :=
    (List.pairwise_insertionSort FunctionTotal.Before s.functionTotals).imp before_samples
  have hperm := List.perm_insertionSort FunctionTotal.Before s.functionTotals
  have hfilter := hperm.filter fun t => 0 < t.samples
  have hpos : ∀ x ∈ ((s.functionTotals.insertionSort FunctionTotal.Before).filter
      fun t => 0 < t.samples).map FunctionTotal.samples, 0 < x := by
    intro x hx
    obtain ⟨t, ht, rfl⟩ := List.mem_map.mp hx
    simpa using (List.mem_filter.mp ht).2
  have hsum : (((s.functionTotals.insertionSort FunctionTotal.Before).filter
      fun t => 0 < t.samples).map FunctionTotal.samples).sum = s.tree.sampleSum := by
    rw [(hfilter.map _).sum_eq, ← sum_functionTotals hroot hframes hsmall, Tally.sum_filter_pos]
  -- The totals have one entry with samples for each function that has samples.
  have hlength : ((s.functionTotals.insertionSort FunctionTotal.Before).filter
      fun t => 0 < t.samples).length = s.sampledFunctions.length := by
    rw [hfilter.length_eq, ← length_sampledFunctions hroot hframes,
      functionTotals_eq hframes (by rw [total_drop_root hroot]; exact hsmall), List.filter_map,
      List.length_map]
    rfl
  -- The list is cut at its maximum, and a cut loses exactly the samples behind it.
  rw [topFunctions, Tally.takeWhile_eq_filter hsorted, List.map_take, ← hsum,
    Tally.sum_take_eq_iff hpos, List.length_map, hlength]

end State

/-! ## Every profile that can be handed out -/

/-- The nodes of a profiler between two steps are on frames that are there. -/
theorem State.Sound.frame_lt {s : State} (h : s.Sound) :
    ∀ n ∈ s.tree.nodes.drop 1, n.frameId < s.frames.frames.length := by
  intro n hn
  cases hready : s.ready with
  | false =>
    obtain ⟨-, htree, -, -⟩ := h.nothing hready
    rw [htree] at hn
    cases hn
  | true =>
    obtain ⟨i, hi⟩ := List.mem_iff_getElem?.mp hn
    rw [List.getElem?_drop] at hi
    exact (h.stored hready).frame_lt (1 + i) n.edge (Nat.le_add_right 1 i) (StackTree.edges_get hi)

theorem Balanced.sum_topFunctions_iff {m : Machine} (h : Balanced m)
    (hticks : m.ledger.delivered < 2 ^ 32) (includeStacks : Bool) :
    ((m.prof.profileInto includeStacks).topFunctions.map FunctionTotal.samples).sum =
        (m.prof.profileInto includeStacks).sampleCount ↔
      m.prof.sampledFunctions.length ≤ topFunctionsMax := by
  obtain ⟨hnow, -, hsamples, hroot, hdelivered⟩ := h.conserved
  have hbooked := h.bookedNow_le
  have hsmall : m.prof.tree.sampleSum < 2 ^ 64 := by omega
  show (m.prof.topFunctions.map FunctionTotal.samples).sum = m.prof.samples ↔ _
  rw [← hsamples]
  exact State.sum_topFunctions_eq hroot h.sound.frame_lt hsmall

/-- **The top functions of a profile add up to its `sample_count`** exactly when no more than
`topFunctionsMax` functions were sampled. -/
theorem topFunctions_sum_iff (c : Setup) {as : List Action} {m : Machine}
    (hrun : Run MachineSteps c.machine as m) (hticks : m.ledger.delivered < 2 ^ 32)
    (includeStacks : Bool) :
    ((m.prof.profileInto includeStacks).topFunctions.map FunctionTotal.samples).sum =
        (m.prof.profileInto includeStacks).sampleCount ↔
      m.prof.sampledFunctions.length ≤ topFunctionsMax :=
  (balanced_of_run hrun hticks).sum_topFunctions_iff hticks includeStacks

/-! ## Profiles of many functions -/

/-- As many functions were sampled as there are. -/
theorem Wide.length_sampledFunctions {c : Setup} {depth k : Nat} {s : State} (h : Wide c depth k s) :
    s.sampledFunctions.length = k := by
  have hids : (s.tree.nodes.filter fun n => 0 < n.samples).map Node.frameId = List.range k := by
    rw [h.nodes, List.filter_cons_of_neg (by decide), List.filter_map, List.map_map]
    have hall : (List.range k).filter ((fun n : Node => decide (0 < n.samples)) ∘
        fun i => ⟨nodeRoot, i, 1⟩) = List.range k := List.filter_eq_self.mpr fun _ _ => rfl
    rw [hall]
    exact List.map_id _
  rw [State.sampledFunctions, hids, List.nodup_range.dedup, List.length_range]

/-- A profiler with room for a thousand functions. -/
def wideSetup : Setup where
  maxFrames := 1024
  maxNodes := 1024
  slab := some (List.replicate (1024 * 256) 0)
  frames := true
  nodes := true
  timer := ⟨false, true, false, .none⟩
  frames_ge := by decide
  frames_le := by decide
  nodes_ge := by decide
  nodes_le := by decide
  slab_length bytes h := by
    cases h
    exact List.length_replicate

theorem wideSetup_works : wideSetup.Works := ⟨Option.some_ne_none _, rfl, rfl, rfl⟩

/-- A profile of two functions lists both. -/
theorem topFunctions_sum_iff_two : ∃ m, Run MachineSteps wideSetup.machine (sampleMany 64 2) m ∧
    ((m.prof.profileInto true).topFunctions.map FunctionTotal.samples).sum =
      (m.prof.profileInto true).sampleCount := by
  obtain ⟨m, hrun, -, hwide, hdelivered⟩ :=
    run_sampleMany wideSetup_works (by decide : 0 < 64) (by decide) (by decide : 2 ≤ 1024)
      (by decide : 2 < 1024)
  refine ⟨m, hrun, (topFunctions_sum_iff wideSetup hrun (by rw [hdelivered]; decide) true).mpr ?_⟩
  rw [hwide.length_sampledFunctions]
  decide

/-- **A profile of 257 functions**, one more than are listed, has a sample that no top function
accounts for. -/
theorem not_topFunctions_sum_wide : ¬∀ (c : Setup) (as : List Action) (m : Machine),
    Run MachineSteps c.machine as m → m.ledger.delivered < 2 ^ 32 →
    ((m.prof.profileInto true).topFunctions.map FunctionTotal.samples).sum =
      (m.prof.profileInto true).sampleCount := by
  intro hall
  obtain ⟨m, hrun, -, hwide, hdelivered⟩ := run_sampleMany wideSetup_works (by decide : 0 < 64)
    (by decide) (by decide : 257 ≤ 1024) (by decide : 257 < 1024)
  have hticks : m.ledger.delivered < 2 ^ 32 := by
    rw [hdelivered]
    decide
  have hsum := hall wideSetup (sampleMany 64 257) m hrun hticks
  rw [(balanced_of_run hrun hticks).sum_topFunctions_iff hticks, hwide.length_sampledFunctions] at hsum
  exact absurd hsum (by decide)

end CboxTelemetry.Profiler
