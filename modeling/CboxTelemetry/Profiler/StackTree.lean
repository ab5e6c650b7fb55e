import CboxTelemetry.Profiler.Buckets
import Mathlib.Algebra.BigOperators.Group.List.Basic

/-!
# The call tree

Samples are folded into a trie of call paths. A node is an edge, its parent and a frame, with a
counter of the samples whose innermost frame it is; the stack of a node is its path from the root
(`IsPath`). The buckets find the node of an edge.

On a valid tree the probe loop of `child` ends, an edge that is there is found whether the tree is
full or not (`Valid.child_found`), and otherwise the tree at most grows by one node (`Valid.child`).
`descend` follows a whole path in this way.
-/

namespace CboxTelemetry.Profiler

/-- `CBOX_NODE_NONE`, as the parent of the root. -/
def nodeNone : Nat := 2 ^ 32 - 1

def nodeRoot : Nat := 0

/-- `cbox_node`. -/
structure Node where
  parent : Nat
  frameId : Nat
  samples : Nat
  deriving DecidableEq

/-- What the buckets find a node by. -/
def Node.edge (n : Node) : Nat × Nat := (n.parent, n.frameId)

def rootNode : Node := ⟨nodeNone, nodeNone, 0⟩

/-- `cbox_stack_tree`. `nodes` holds the `count` nodes in use. A cleared tree has capacity 0. -/
structure StackTree where
  nodes : List Node
  capacity : Nat
  buckets : Nat → Nat
  bucketMask : Nat
  capacityHits : Nat
  total : Nat

/-- `cbox_edge_hash`. -/
def edgeHash (edge : Nat × Nat) : UInt32 :=
  let parent : UInt32 := .ofNat edge.1
  let frameId : UInt32 := .ofNat edge.2
  let packed : UInt32 := frameId + 0x9e3779b9 + (parent <<< (6 : UInt32)) + (parent >>> (2 : UInt32))
  let hash : UInt32 := parent * 2654435761 ^^^ packed
  let hash := hash ^^^ (hash >>> 16)
  let hash := hash * 0x7feb352d
  hash ^^^ (hash >>> 15)

namespace StackTree

/-- A tree that `cbox_stacktree_destroy` has cleared. -/
def cleared : StackTree := ⟨[], 0, fun _ => 0, 0, 0, 0⟩

/-- `cbox_stacktree_init`, when the two allocations succeed. -/
def init (capacity : Nat) : Option StackTree :=
  if capacity < 2 then none
  else some ⟨[rootNode], capacity, fun _ => 0, bucketCount capacity - 1, 0, 0⟩

/-- `cbox_stacktree_reset`. -/
def reset (t : StackTree) : StackTree :=
  if t.capacity = 0 then t
  else { t with
    nodes := [rootNode]
    buckets := if 1 < t.nodes.length then fun _ => 0 else t.buckets
    capacityHits := 0
    total := 0 }

/-- The comparison inside the probe loop. -/
def hit (t : StackTree) (edge : Nat × Nat) (id : Nat) : Bool :=
  match t.nodes[id]? with
  | none => false
  | some node => node.parent == edge.1 && node.frameId == edge.2

/-- `cbox_stacktree_child`. The identifier is `none` for `CBOX_NODE_NONE`; the whole result is `none`
when the probe loop does not end. -/
def child (t : StackTree) (parent frameId : Nat) : Option (Option Nat × StackTree) :=
  if t.capacity = 0 ∨ t.nodes.length ≤ parent then some (none, t)
  else
    let slot := (edgeHash (parent, frameId)).toNat &&& t.bucketMask
    match OpenAddressing.probe (nextSlot t.bucketMask) t.buckets (t.hit (parent, frameId))
      (t.bucketMask + 1) slot with
    | none => none
    | some (.found id) => some (some id, t)
    | some (.free slot) =>
      if t.capacity ≤ t.nodes.length then
        some (none, { t with capacityHits := u32 (t.capacityHits + 1) })
      else some (some t.nodes.length, { t with
        nodes := t.nodes ++ [⟨parent, frameId, 0⟩]
        buckets := Function.update t.buckets slot (t.nodes.length + 1) })

/-- `cbox_stacktree_record`. -/
def record (t : StackTree) (node weight : Nat) : StackTree :=
  if t.capacity = 0 ∨ t.nodes.length ≤ node ∨ weight = 0 then t
  else { t with
    nodes := t.nodes.modify node fun n => { n with samples := u32 (n.samples + weight) }
    total := u64 (t.total + weight) }

/-- A run of `cbox_stacktree_child` calls, each from the node of the one before, that gives up at the
first that returns `CBOX_NODE_NONE`. -/
def descend (t : StackTree) (node : Nat) : List Nat → Option (Option Nat × StackTree)
  | [] => some (some node, t)
  | frameId :: path =>
    match t.child node frameId with
    | none => none
    | some (none, t) => some (none, t)
    | some (some node, t) => t.descend node path

/-! ## Valid trees -/

/-- The edges of the nodes, in the order of their numbers. -/
def edges (t : StackTree) : List (Nat × Nat) := t.nodes.map Node.edge

structure Valid (t : StackTree) : Prop where
  buckets_valid : BucketsValid t.bucketMask t.capacity
  count_le : t.nodes.length ≤ t.capacity
  root : t.edges[0]? = some rootNode.edge
  parent_lt : ∀ id edge, 1 ≤ id → t.edges[id]? = some edge → edge.1 < id
  chained : OpenAddressing.Chained (t.bucketMask + 1) 1 (fun edge => (edgeHash edge).toNat)
    t.buckets t.edges

/-- `t'` is `t` with more nodes, that have no samples yet. -/
structure Grows (t t' : StackTree) : Prop where
  nodes_eq : ∃ more, t'.nodes = t.nodes ++ more ∧ ∀ n ∈ more, n.samples = 0
  total_eq : t'.total = t.total
  capacity_eq : t'.capacity = t.capacity

/-- The samples of all nodes. -/
def sampleSum (t : StackTree) : Nat := (t.nodes.map Node.samples).sum

variable {t t' t'' : StackTree} {parent frameId node id : Nat} {path : List Nat}

@[simp] theorem length_edges (t : StackTree) : t.edges.length = t.nodes.length := List.length_map _

theorem edges_get {n : Node} (hget : t.nodes[id]? = some n) : t.edges[id]? = some n.edge := by
  rw [edges, List.getElem?_map, hget]
  rfl

theorem edges_push (t : StackTree) (n : Node) :
    (t.nodes ++ [n]).map Node.edge = t.edges ++ [n.edge] := by
  rw [List.map_append, List.map_singleton, edges]

theorem Valid.length_pos (h : t.Valid) : 0 < t.nodes.length := by
  obtain ⟨hlt, -⟩ := List.getElem?_eq_some_iff.mp h.root
  rwa [length_edges] at hlt

theorem Valid.capacity_pos (h : t.Valid) : 0 < t.capacity :=
  h.length_pos.trans_le h.count_le

theorem Grows.refl (t : StackTree) : Grows t t :=
  ⟨⟨[], (List.append_nil _).symm, nofun⟩, rfl, rfl⟩

/-- Growth is transitive. -/
theorem Grows.trans (h : Grows t t') (h' : Grows t' t'') : Grows t t'' := by
  obtain ⟨⟨more, hnodes, hzero⟩, htotal, hcap⟩ := h
  obtain ⟨⟨more', hnodes', hzero'⟩, htotal', hcap'⟩ := h'
  refine ⟨⟨more ++ more', ?_, ?_⟩, htotal'.trans htotal, hcap'.trans hcap⟩
  · rw [hnodes', hnodes, List.append_assoc]
  · intro n hn
    exact (List.mem_append.mp hn).elim (hzero n) (hzero' n)

/-- A node stays as it was. -/
theorem Grows.get (h : Grows t t') {n : Node} (hget : t.nodes[id]? = some n) :
    t'.nodes[id]? = some n := by
  obtain ⟨⟨more, hnodes, -⟩, -, -⟩ := h
  obtain ⟨hlt, -⟩ := List.getElem?_eq_some_iff.mp hget
  rw [hnodes, List.getElem?_append_left hlt, hget]

/-- A node of the grown tree is an old one, or it has no samples. -/
theorem Grows.get_cases (h : Grows t t') {n : Node} (hget : t'.nodes[id]? = some n) :
    t.nodes[id]? = some n ∨ t.nodes.length ≤ id ∧ n.samples = 0 := by
  obtain ⟨⟨more, hnodes, hzero⟩, -, -⟩ := h
  rw [hnodes, List.getElem?_append] at hget
  split at hget
  · exact .inl hget
  next hle => exact .inr ⟨Nat.le_of_not_lt hle, hzero n (List.mem_of_getElem? hget)⟩

/-- Growth leaves the sum of the samples. -/
theorem Grows.sampleSum_eq (h : Grows t t') : t'.sampleSum = t.sampleSum := by
  obtain ⟨⟨more, hnodes, hzero⟩, -, -⟩ := h
  have hmore : (more.map Node.samples).sum = 0 := by
    refine List.sum_eq_zero ?_
    intro s hs
    obtain ⟨n, hn, rfl⟩ := List.mem_map.mp hs
    exact hzero n hn
  rw [sampleSum, hnodes, List.map_append, List.sum_append, hmore, Nat.add_zero, sampleSum]

/-! ## Children -/

/-- A bucket is hit when its node has this edge. -/
theorem hit_iff {edge edge' : Nat × Nat} (h : t.edges[id]? = some edge') :
    t.hit edge id = true ↔ edge' = edge := by
  obtain ⟨n, hn, rfl⟩ : ∃ n, t.nodes[id]? = some n ∧ n.edge = edge' := by
    rw [edges, List.getElem?_map, Option.map_eq_some_iff] at h
    exact h
  simp only [hit, hn, Bool.and_eq_true, beq_iff_eq, Node.edge]
  exact Prod.mk.injEq .. ▸ Iff.rfl

/-- An edge that is in the tree is found, and nothing changes. -/
theorem Valid.child_found (h : t.Valid) (hparent : parent < t.nodes.length) (hid : 1 ≤ id)
    (hedge : t.edges[id]? = some (parent, frameId)) : t.child parent frameId = some (some id, t) := by
  have hprobe := h.chained.probe_found h.buckets_valid.nextSlot_eq
    (fun _ _ _ hget => hit_iff hget) hid hedge
  rw [← h.buckets_valid.and_mask] at hprobe
  have hcap := h.capacity_pos
  unfold child
  rw [if_neg (by omega)]
  simp only [hprobe]

/-- What `child` returns for a new edge in a tree that has room. -/
theorem Valid.push (h : t.Valid) (hparent : parent < t.nodes.length)
    (hroom : t.nodes.length < t.capacity) (hnew : ∀ id, 1 ≤ id → t.edges[id]? ≠ some (parent, frameId))
    {d : Nat} (hd : d < t.bucketMask + 1)
    (hfree : t.buckets (((edgeHash (parent, frameId)).toNat + d) % (t.bucketMask + 1)) = 0)
    (htaken : ∀ j < d,
      t.buckets (((edgeHash (parent, frameId)).toNat + j) % (t.bucketMask + 1)) ≠ 0) :
    Valid { t with
      nodes := t.nodes ++ [⟨parent, frameId, 0⟩]
      buckets := Function.update t.buckets
        (((edgeHash (parent, frameId)).toNat + d) % (t.bucketMask + 1)) (t.nodes.length + 1) } where
  buckets_valid := h.buckets_valid
  count_le := by
    rw [List.length_append]
    exact hroom
  root := by
    rw [edges, edges_push, List.getElem?_append_left (by rw [length_edges]; exact h.length_pos), h.root]
  parent_lt id edge hid hget := by
    rw [edges, edges_push, List.getElem?_append, length_edges] at hget
    split at hget
    · exact h.parent_lt id edge hid hget
    next hle =>
      rw [List.getElem?_singleton] at hget
      split at hget
      · cases hget
        exact hparent.trans_le (Nat.le_of_not_lt hle)
      · cases hget
  chained := by
    have hinsert := h.chained.insert (by rw [length_edges]; exact h.length_pos) hnew hd hfree htaken
    rw [length_edges] at hinsert
    rw [edges, edges_push]
    exact hinsert

/-- The probe for a new edge ends at a free slot. -/
theorem Valid.probe_new (h : t.Valid) (hnew : ∀ id, 1 ≤ id → t.edges[id]? ≠ some (parent, frameId)) :
    ∃ d < t.bucketMask + 1,
      OpenAddressing.probe (nextSlot t.bucketMask) t.buckets (t.hit (parent, frameId))
        (t.bucketMask + 1) ((edgeHash (parent, frameId)).toNat &&& t.bucketMask) =
          some (.free (((edgeHash (parent, frameId)).toNat + d) % (t.bucketMask + 1))) ∧
      t.buckets (((edgeHash (parent, frameId)).toNat + d) % (t.bucketMask + 1)) = 0 ∧
      ∀ j < d, t.buckets (((edgeHash (parent, frameId)).toNat + j) % (t.bucketMask + 1)) ≠ 0 := by
  have hload : t.edges.length < t.bucketMask + 1 := by
    rw [edges, List.length_map]
    exact h.count_le.trans_lt h.buckets_valid.load
  rw [h.buckets_valid.and_mask]
  exact h.chained.probe_free h.buckets_valid.nextSlot_eq hload (fun _ _ _ hget => hit_iff hget) hnew

/-- A new edge becomes the next node, where there is room. -/
theorem Valid.child_new (h : t.Valid) (hparent : parent < t.nodes.length)
    (hroom : t.nodes.length < t.capacity)
    (hnew : ∀ id, 1 ≤ id → t.edges[id]? ≠ some (parent, frameId)) :
    ∃ t', t.child parent frameId = some (some t.nodes.length, t') ∧ t'.Valid ∧
      t'.nodes = t.nodes ++ [⟨parent, frameId, 0⟩] ∧ t'.total = t.total ∧ t'.capacity = t.capacity := by
  obtain ⟨d, hd, hprobe, hfree, htaken⟩ := h.probe_new hnew
  have hcap := h.capacity_pos
  unfold StackTree.child
  rw [if_neg (by omega)]
  simp only [hprobe]
  rw [if_neg (Nat.not_le.mpr hroom)]
  exact ⟨_, rfl, h.push hparent hroom hnew hd hfree htaken, rfl, rfl, rfl⟩

/-- A full tree refuses a new edge. -/
theorem Valid.child_full (h : t.Valid) (hparent : parent < t.nodes.length)
    (hfull : t.capacity ≤ t.nodes.length)
    (hnew : ∀ id, 1 ≤ id → t.edges[id]? ≠ some (parent, frameId)) :
    ∃ hits, t.child parent frameId = some (none, { t with capacityHits := hits }) := by
  obtain ⟨d, hd, hprobe, -, -⟩ := h.probe_new hnew
  have hcap := h.capacity_pos
  unfold StackTree.child
  rw [if_neg (by omega)]
  simp only [hprobe]
  rw [if_pos hfull]
  exact ⟨_, rfl⟩

/-- **`child` on a valid tree** ends and leaves a valid tree that has at most grown. The node it
returns is not the root and has the edge that was asked for. -/
theorem Valid.child (h : t.Valid) (hparent : parent < t.nodes.length) (frameId : Nat) :
    ∃ r t', t.child parent frameId = some (r, t') ∧ t'.Valid ∧ Grows t t' ∧
      (∀ (id : Nat) (edge : Nat × Nat),
        t'.edges[id]? = some edge → t.edges[id]? = some edge ∨ edge.2 = frameId) ∧
      ∀ id, r = some id → 1 ≤ id ∧ ∃ n, t'.nodes[id]? = some n ∧ n.edge = (parent, frameId) := by
  by_cases hmem : ∃ id, 1 ≤ id ∧ t.edges[id]? = some (parent, frameId)
  · obtain ⟨id, hid, hedge⟩ := hmem
    refine ⟨_, _, h.child_found hparent hid hedge, h, .refl t, fun _ _ => .inl, ?_⟩
    intro id' hid'
    cases hid'
    rw [edges, List.getElem?_map, Option.map_eq_some_iff] at hedge
    exact ⟨hid, hedge⟩
  -- The edge is new: it takes a node where there is room for one, and is refused where there is not.
  · have hnew : ∀ id, 1 ≤ id → t.edges[id]? ≠ some (parent, frameId) :=
      fun id hid hedge => hmem ⟨id, hid, hedge⟩
    rcases Nat.lt_or_ge t.nodes.length t.capacity with hroom | hfull
    · obtain ⟨t', hchild, hvalid, hnodes, htotal, hcap⟩ := h.child_new hparent hroom hnew
      refine ⟨_, _, hchild, hvalid, ⟨⟨_, hnodes, ?_⟩, htotal, hcap⟩, ?_, ?_⟩
      · intro n hn
        rw [List.mem_singleton.mp hn]
      · intro id edge hget
        rw [edges, hnodes, edges_push, List.getElem?_append] at hget
        split at hget
        · exact .inl hget
        · rw [List.getElem?_singleton] at hget
          split at hget
          · cases hget
            exact .inr rfl
          · cases hget
      · intro id hid
        cases hid
        rw [hnodes]
        exact ⟨h.length_pos, _, List.getElem?_concat_length, rfl⟩
    · obtain ⟨hits, hchild⟩ := h.child_full hparent hfull hnew
      refine ⟨_, _, hchild, ⟨h.buckets_valid, h.count_le, h.root, h.parent_lt, h.chained⟩,
        ⟨⟨[], (List.append_nil _).symm, nofun⟩, rfl, rfl⟩, fun _ _ => .inl, nofun⟩

/-! ## Paths -/

/-- The frames on the way from the root to a node, outermost first. -/
inductive IsPath (t : StackTree) : Nat → List Nat → Prop
  | root : IsPath t nodeRoot []
  | step {id : Nat} {node : Node} {path : List Nat} : 1 ≤ id → t.nodes[id]? = some node →
      IsPath t node.parent path → IsPath t id (path ++ [node.frameId])

/-- A path of nodes survives growth. -/
theorem IsPath.grows (h : IsPath t id path) (hgrows : Grows t t') : IsPath t' id path := by
  induction h with
  | root => exact .root
  | step hid hget _ ih => exact .step hid (hgrows.get hget) ih

/-- A node with a path is in the tree. -/
theorem IsPath.lt (h : IsPath t id path) (hvalid : t.Valid) : id < t.nodes.length := by
  cases h with
  | root => exact hvalid.length_pos
  | step _ hget _ => exact (List.getElem?_eq_some_iff.mp hget).1

/-- Every node has a path. -/
theorem Valid.exists_path (h : t.Valid) (hlt : id < t.nodes.length) : ∃ path, IsPath t id path := by
  induction id using Nat.strong_induction_on with
  | _ id ih =>
    rcases Nat.eq_zero_or_pos id with rfl | hpos
    · exact ⟨[], .root⟩
    · have hget := List.getElem?_eq_getElem hlt
      have hparent : t.nodes[id].parent < id := h.parent_lt id _ hpos (edges_get hget)
      obtain ⟨path, hpath⟩ := ih _ hparent (hparent.trans hlt)
      exact ⟨_, .step hpos hget hpath⟩

/-- Two nodes with one path are one node. -/
theorem Valid.path_inj (h : t.Valid) {id' : Nat} (hid : IsPath t id path) (hid' : IsPath t id' path) :
    id = id' := by
  induction hid generalizing id' with
  | root =>
    generalize hnil : ([] : List Nat) = path at hid'
    cases hid' with
    | root => rfl
    | step _ _ _ => exact absurd hnil.symm (List.concat_ne_nil _ _)
  | @step id node path hpos hget _ ih =>
    generalize hcat : path ++ [node.frameId] = whole at hid'
    cases hid' with
    | root => exact absurd hcat (List.concat_ne_nil _ _)
    | @step id' node' path' hpos' hget' hparent' =>
      obtain ⟨hpath, hframe⟩ := List.append_inj' hcat rfl
      -- The parents have one path and so are one node, and a parent has one child for each frame.
      have hsame := ih (hpath ▸ hparent')
      have hedge : t.edges[id']? = some node.edge := by
        rw [edges_get hget', Node.edge, Node.edge, hsame, List.head_eq_of_cons_eq hframe]
      exact h.chained.keys_inj id id' _ hpos hpos' (edges_get hget) hedge

/-- A node has one path. -/
theorem IsPath.unique (h : IsPath t id path) {path' : List Nat} (h' : IsPath t id path') :
    path = path' := by
  induction h generalizing path' with
  | root =>
    cases h' with
    | root => rfl
    | step hpos _ _ => exact absurd hpos (Nat.not_succ_le_zero 0)
  | @step id node path hpos hget _ ih =>
    cases h' with
    | root => exact absurd hpos (Nat.not_succ_le_zero 0)
    | @step _ node' path' _ hget' hparent' =>
      rw [hget] at hget'
      cases hget'
      rw [ih hparent']

/-! ## Descending -/

/-- **`descend` on a valid tree** ends and leaves a valid tree that has at most grown, by nodes of the
frames on the path; the node it returns is the one that the path leads to. -/
theorem Valid.descend (h : t.Valid) (path : List Nat) {base : List Nat} (hbase : IsPath t node base) :
    ∃ r t', t.descend node path = some (r, t') ∧ t'.Valid ∧ Grows t t' ∧
      (∀ (id : Nat) (edge : Nat × Nat),
        t'.edges[id]? = some edge → t.edges[id]? = some edge ∨ edge.2 ∈ path) ∧
      ∀ id, r = some id → IsPath t' id (base ++ path) := by
  induction path generalizing t node base with
  | nil =>
    refine ⟨_, _, rfl, h, .refl t, fun _ _ => .inl, ?_⟩
    intro id hid
    cases hid
    rw [List.append_nil]
    exact hbase
  -- One node of the path, found or added, and the rest of the path from there.
  | cons frameId path ih =>
    obtain ⟨r, t₁, hchild, hvalid₁, hgrows₁, hnew₁, hnode₁⟩ := h.child (hbase.lt h) frameId
    unfold StackTree.descend
    cases r with
    | none =>
      simp only [hchild]
      refine ⟨_, _, rfl, hvalid₁, hgrows₁, ?_, nofun⟩
      intro id edge hget
      refine (hnew₁ id edge hget).imp_right ?_
      rintro rfl
      exact List.mem_cons_self
    | some node₁ =>
      simp only [hchild]
      obtain ⟨hpos, n₁, hget, hedge⟩ := hnode₁ node₁ rfl
      obtain ⟨hparent, hframe⟩ := Prod.mk.inj hedge
      have hpath : IsPath t₁ node₁ (base ++ [frameId]) := by
        rw [← hframe]
        exact .step hpos hget (hparent ▸ hbase.grows hgrows₁)
      obtain ⟨r, t', hrest, hvalid, hgrows, hnew, hnode⟩ := ih hvalid₁ hpath
      refine ⟨r, t', hrest, hvalid, hgrows₁.trans hgrows, ?_, ?_⟩
      · intro id edge hget
        rcases hnew id edge hget with hold | hlater
        · refine (hnew₁ id edge hold).imp_right ?_
          rintro rfl
          exact List.mem_cons_self
        · exact .inr (List.mem_cons_of_mem _ hlater)
      · intro id hid
        have := hnode id hid
        rwa [List.append_assoc, List.singleton_append] at this

/-- The beginning of a path that is in the tree is in the tree. -/
theorem IsPath.of_append {more : List Nat} (h : IsPath t id (path ++ more)) :
    ∃ mid, IsPath t mid path := by
  induction more using List.reverseRecOn generalizing id with
  | nil =>
    rw [List.append_nil] at h
    exact ⟨id, h⟩
  | append_singleton more frameId ih =>
    rw [← List.append_assoc] at h
    generalize hcat : path ++ more ++ [frameId] = whole at h
    cases h with
    | root => exact absurd hcat (List.concat_ne_nil _ _)
    | step _ _ hparent =>
      obtain ⟨heq, -⟩ := List.append_inj' hcat rfl
      exact ih (heq ▸ hparent)

/-- A path that is in the tree is found to its end, and nothing changes. -/
theorem Valid.descend_found (h : t.Valid) {base : List Nat} (hbase : IsPath t node base)
    (hid : IsPath t id (base ++ path)) : t.descend node path = some (some id, t) := by
  induction path generalizing node base with
  | nil =>
    rw [List.append_nil] at hid
    rw [h.path_inj hid hbase]
    rfl
  -- The node after the first frame is the parent that the whole path passes through.
  | cons frameId path ih =>
    rw [List.append_cons] at hid
    obtain ⟨mid, hmid⟩ := hid.of_append
    have hstep := hmid
    generalize hcat : base ++ [frameId] = whole at hstep
    cases hstep with
    | root => exact absurd hcat (List.concat_ne_nil _ _)
    | @step _ n _ hpos hget hparent =>
      obtain ⟨heq, hframe⟩ := List.append_inj' hcat rfl
      have hsame := h.path_inj hparent (heq ▸ hbase)
      have hedge : t.edges[mid]? = some (node, frameId) := by
        rw [edges_get hget, Node.edge, hsame, List.head_eq_of_cons_eq hframe]
      unfold StackTree.descend
      rw [h.child_found (hbase.lt h) hpos hedge]
      exact ih hmid hid

/-! ## Recording -/

/-- Adding samples to a node that is there. -/
theorem record_eq (h : t.Valid) (hnode : node < t.nodes.length) {weight : Nat} (hweight : 0 < weight) :
    t.record node weight = { t with
      nodes := t.nodes.modify node fun n => { n with samples := u32 (n.samples + weight) }
      total := u64 (t.total + weight) } := by
  have hcap := h.capacity_pos
  unfold record
  rw [if_neg (by omega)]

/-- Recording changes no edge. -/
theorem edges_record (t : StackTree) (node weight : Nat) : (t.record node weight).edges = t.edges := by
  unfold record
  split
  · rfl
  · refine List.ext_getElem? fun i => ?_
    simp only [edges, List.getElem?_map, List.getElem?_modify]
    split <;> cases t.nodes[i]? <;> rfl

theorem length_record (t : StackTree) (node weight : Nat) :
    (t.record node weight).nodes.length = t.nodes.length := by
  rw [← length_edges, edges_record, length_edges]

/-- Recording touches the samples of its node only. -/
theorem record_get (h : t.Valid) (hnode : node < t.nodes.length) {weight : Nat} (hweight : 0 < weight) :
    (t.record node weight).nodes[id]? = t.nodes[id]?.map fun n =>
      { n with samples := if node = id then u32 (n.samples + weight) else n.samples } := by
  rw [record_eq h hnode hweight, List.getElem?_modify]
  split <;> cases t.nodes[id]? <;> rfl

/-- A tree stays valid when samples are recorded in it. -/
theorem Valid.record (h : t.Valid) (node weight : Nat) : (t.record node weight).Valid := by
  have hedges := edges_record t node weight
  have hparts : (t.record node weight).capacity = t.capacity ∧
      (t.record node weight).bucketMask = t.bucketMask ∧
      (t.record node weight).buckets = t.buckets := by
    unfold StackTree.record
    split <;> exact ⟨rfl, rfl, rfl⟩
  obtain ⟨hcap, hmask, hbuckets⟩ := hparts
  refine ⟨?_, ?_, ?_, ?_, ?_⟩
  · rw [hcap, hmask]
    exact h.buckets_valid
  · rw [length_record, hcap]
    exact h.count_le
  · rw [hedges, h.root]
  · rw [hedges]
    exact h.parent_lt
  · rw [hedges, hmask, hbuckets]
    exact h.chained

/-- And keeps its paths. -/
theorem IsPath.record (h : t.Valid) (hnode : node < t.nodes.length) {weight : Nat}
    (hweight : 0 < weight) : IsPath (t.record node weight) id path ↔ IsPath t id path := by
  constructor
  · intro hpath
    induction hpath with
    | root => exact .root
    | step hpos hget _ ih =>
      rw [record_get h hnode hweight, Option.map_eq_some_iff] at hget
      obtain ⟨n, hget, rfl⟩ := hget
      have hstep := IsPath.step hpos hget ih
      exact hstep
  · intro hpath
    induction hpath with
    | root => exact .root
    | @step id n path hpos hget _ ih =>
      have hget' : (t.record node weight).nodes[id]? = some
          { n with samples := if node = id then u32 (n.samples + weight) else n.samples } := by
        rw [record_get h hnode hweight, hget]
        rfl
      have hstep := IsPath.step hpos hget' ih
      exact hstep

/-- The sum of the samples grows by the weight, as long as the counters do not wrap. -/
theorem sampleSum_record (h : t.Valid) (hnode : node < t.nodes.length) {weight : Nat}
    (hweight : 0 < weight) (hsmall : t.sampleSum + weight < 2 ^ 32) :
    (t.record node weight).sampleSum = t.sampleSum + weight := by
  -- The node that counts, and the nodes on either side of it.
  have hsplit : t.nodes = t.nodes.take node ++ t.nodes[node] :: t.nodes.drop (node + 1) := by
    rw [List.getElem_cons_drop, List.take_append_drop]
  have hsum : t.sampleSum = ((t.nodes.take node).map Node.samples).sum
      + (t.nodes[node].samples + ((t.nodes.drop (node + 1)).map Node.samples).sum) := by
    have := congrArg (fun ns => (ns.map Node.samples).sum) hsplit
    simpa only [sampleSum, List.map_append, List.map_cons, List.sum_append, List.sum_cons] using this
  rw [record_eq h hnode hweight, sampleSum, List.modify_eq_take_cons_drop hnode, List.map_append,
    List.map_cons, List.sum_append, List.sum_cons]
  show _ + (u32 (t.nodes[node].samples + weight) + _) = _
  rw [u32_of_lt (by omega), hsum]
  omega

/-! ## Setting up and resetting -/

/-- A tree of the root alone, with clear buckets. -/
theorem valid_of_root (hbuckets : BucketsValid t.bucketMask t.capacity) (hcap : 0 < t.capacity)
    (hnodes : t.nodes = [rootNode]) (hclear : ∀ s < t.bucketMask + 1, t.buckets s = 0) : t.Valid where
  buckets_valid := hbuckets
  count_le := by
    rw [hnodes]
    exact hcap
  root := by
    rw [edges, hnodes]
    rfl
  parent_lt id edge hid hget := by
    obtain ⟨hlt, -⟩ := List.getElem?_eq_some_iff.mp hget
    rw [length_edges, hnodes, List.length_singleton] at hlt
    omega
  chained := by
    refine .empty hclear ?_
    rw [length_edges, hnodes]
    exact Nat.le_refl _

/-- The tree that initialisation makes is valid. -/
theorem valid_init {capacity : Nat} (ht : init capacity = some t) (hcap : capacity ≤ capacityMax) :
    t.Valid := by
  unfold init at ht
  split at ht
  · cases ht
  next htwo =>
    cases ht
    have hpos : 0 < capacity := by omega
    exact valid_of_root (bucketsValid_bucketCount hpos hcap) hpos rfl fun _ _ => rfl

@[simp] theorem capacity_reset (t : StackTree) : t.reset.capacity = t.capacity := by
  unfold reset
  split <;> rfl

/-- What a reset leaves of a valid tree. -/
theorem Valid.reset_eq (h : t.Valid) : t.reset = { t with
    nodes := [rootNode]
    buckets := if 1 < t.nodes.length then fun _ => 0 else t.buckets
    capacityHits := 0
    total := 0 } :=
  if_neg h.capacity_pos.ne'

/-- A reset leaves clear buckets: the root is in no bucket, so a tree of the root alone has clear ones. -/
theorem Valid.buckets_reset (h : t.Valid) : ∀ s < t.bucketMask + 1, t.reset.buckets s = 0 := by
  intro s hs
  rw [h.reset_eq]
  show (if 1 < t.nodes.length then fun _ => 0 else t.buckets) s = 0
  split
  · rfl
  next hroot =>
    by_contra hne
    obtain ⟨id, hid⟩ := Nat.exists_eq_succ_of_ne_zero hne
    obtain ⟨hone, hlt⟩ := h.chained.of_bucket s hs id hid
    rw [length_edges] at hlt
    omega

/-- A reset tree is valid. -/
theorem Valid.reset (h : t.Valid) : t.reset.Valid := by
  have hclear := h.buckets_reset
  rw [h.reset_eq] at hclear ⊢
  exact valid_of_root h.buckets_valid h.capacity_pos rfl hclear

end StackTree

end CboxTelemetry.Profiler
