import CboxTelemetry.Profiler.Frames
import CboxTelemetry.Profiler.StackTree

/-!
# What the tables have room for

Two conditions on the tables as they stand, in terms of counts and lengths: the frame table has these
identities or takes them (`FrameTable.Takes`), and the tree has the nodes of this path or takes them
(`StackTree.Takes`). Interning one identity after the other and descending along a path come to an end
exactly under these (`Interned.takes_iff`, `StackTree.Valid.descend_takes`).
-/

namespace CboxTelemetry.Profiler

/-! ## Frames -/

/-- The identities of a list that are not `known`, each once, in the order in which they are met. -/
def newKeys (known : List FrameKey) : List FrameKey → List FrameKey
  | [] => []
  | key :: keys =>
    if key ∈ known then newKeys known keys else key :: newKeys (known ++ [key]) keys

/-- Every key is known or new. -/
theorem subset_newKeys (known keys : List FrameKey) : keys ⊆ known ++ newKeys known keys := by
  induction keys generalizing known with
  | nil => exact List.nil_subset _
  | cons key keys ih =>
    unfold newKeys
    split
    next hknown => exact List.cons_subset.mpr ⟨List.mem_append_left _ hknown, ih known⟩
    next hnew =>
      have hrest := ih (known ++ [key])
      rw [List.append_assoc, List.singleton_append] at hrest
      exact List.cons_subset.mpr ⟨List.mem_append_right _ List.mem_cons_self, hrest⟩

namespace FrameTable

/-- The table has all these identities, or room for those that it has not: every one has a name, there
are as many free frames as there are new ones, and the arena holds the strings of these, in the order
of the list. -/
structure Takes (t : FrameTable) (arena : Arena) (keys : List FrameKey) : Prop where
  named : ∀ key ∈ keys, key.name ≠ []
  table : t.frames.length + (newKeys (t.keys arena) keys).length ≤ t.capacity
  arena : Arena.filled arena.used ((newKeys (t.keys arena) keys).flatMap FrameKey.strings) ≤ arena.size

section takes
variable {t t' : FrameTable} {arena arena' : Arena} {key : FrameKey} {keys : List FrameKey}

theorem length_keys (t : FrameTable) (arena : Arena) : (t.keys arena).length = t.frames.length :=
  List.length_map _

/-- A valid table takes nothing at all. -/
theorem Valid.takes_nil (h : t.Valid arena) : t.Takes arena [] :=
  ⟨nofun, h.count_le, h.arena_valid.used_le⟩

/-- Identities that a table takes are no more than its frames. -/
theorem Takes.length_le (h : t.Takes arena keys) (hnodup : keys.Nodup) : keys.length ≤ t.capacity := by
  have hle := (hnodup.subperm (subset_newKeys (t.keys arena) keys)).length_le
  rw [List.length_append, length_keys] at hle
  exact hle.trans h.table

/-- An identity that is there takes no room. -/
theorem takes_cons_known (hmem : key ∈ t.keys arena) :
    t.Takes arena (key :: keys) ↔ key.name ≠ [] ∧ t.Takes arena keys := by
  have hnew : newKeys (t.keys arena) (key :: keys) = newKeys (t.keys arena) keys := if_pos hmem
  constructor
  · rintro ⟨hnamed, htable, harena⟩
    rw [hnew] at htable harena
    exact ⟨hnamed key List.mem_cons_self, fun k hk => hnamed k (List.mem_cons_of_mem _ hk), htable, harena⟩
  · rintro ⟨hname, hnamed, htable, harena⟩
    refine ⟨List.forall_mem_cons.mpr ⟨hname, hnamed⟩, ?_, ?_⟩
    · rw [hnew]
      exact htable
    · rw [hnew]
      exact harena

/-- A new identity takes the room of one frame. -/
theorem Takes.hasRoom (h : t.Takes arena (key :: keys)) (hnew : key ∉ t.keys arena) :
    t.HasRoom arena key := by
  obtain ⟨-, htable, harena⟩ := h
  rw [newKeys, if_neg hnew] at htable harena
  rw [List.length_cons] at htable
  rw [List.flatMap_cons, Arena.filled_append] at harena
  exact ⟨by omega, (Arena.le_filled _ _).trans harena⟩

/-- Room for one frame is room for a new identity alone. -/
theorem HasRoom.takes (h : t.HasRoom arena key) (hname : key.name ≠ []) (hnew : key ∉ t.keys arena) :
    t.Takes arena [key] := by
  have hkeys : newKeys (t.keys arena) [key] = [key] := if_neg hnew
  refine ⟨?_, ?_, ?_⟩
  · intro key' hkey'
    rw [List.mem_singleton.mp hkey']
    exact hname
  · rw [hkeys]
    exact h.table
  · rw [hkeys, List.flatMap_singleton]
    exact h.arena

/-- What is left for the others once a new identity has taken its frame. -/
theorem takes_cons_new (hnew : key ∉ t.keys arena) (hcap : t'.capacity = t.capacity)
    (hsize : arena'.size = arena.size) (hkeys : t'.keys arena' = t.keys arena ++ [key])
    (hused : arena'.used = Arena.filled arena.used key.strings) :
    t.Takes arena (key :: keys) ↔ key.name ≠ [] ∧ t'.Takes arena' keys := by
  have hlength : t'.frames.length = t.frames.length + 1 := by
    rw [← t'.length_keys arena', hkeys, List.length_append, List.length_singleton, length_keys]
  have hcons : newKeys (t.keys arena) (key :: keys) = key :: newKeys (t'.keys arena') keys := by
    rw [hkeys]
    exact if_neg hnew
  -- The new key takes one place of the table, and the others need as many as before.
  have htable : t.frames.length + (newKeys (t.keys arena) (key :: keys)).length =
      t'.frames.length + (newKeys (t'.keys arena') keys).length := by
    rw [hcons, hlength, List.length_cons]
    omega
  have harena : Arena.filled arena.used ((newKeys (t.keys arena) (key :: keys)).flatMap FrameKey.strings) =
      Arena.filled arena'.used ((newKeys (t'.keys arena') keys).flatMap FrameKey.strings) := by
    rw [hcons, List.flatMap_cons, Arena.filled_append, hused]
  constructor
  · rintro ⟨hnamed, ht, ha⟩
    rw [htable, ← hcap] at ht
    rw [harena, ← hsize] at ha
    exact ⟨hnamed key List.mem_cons_self, fun k hk => hnamed k (List.mem_cons_of_mem _ hk), ht, ha⟩
  · rintro ⟨hname, hnamed, ht, ha⟩
    rw [← htable, hcap] at ht
    rw [← harena, hsize] at ha
    exact ⟨List.forall_mem_cons.mpr ⟨hname, hnamed⟩, ht, ha⟩

/-- **Interning one identity after another**: the table takes `key` and then all of `keys` exactly when
`key` is not refused and the table that this leaves takes `keys`. -/
theorem Interned.takes_iff {r : Option Nat} (hinterned : Interned t arena key (r, t', arena'))
    (hname : key.name ≠ []) : t.Takes arena (key :: keys) ↔ r.isSome = true ∧ t'.Takes arena' keys := by
  cases hinterned with
  | refused hits _ _ hrefused =>
    obtain ⟨hnew, hfull⟩ := hrefused hname
    exact iff_of_false (fun htakes => hfull (htakes.hasRoom hnew)) nofun
  | found id hid =>
    rw [takes_cons_known (List.mem_of_getElem? hid)]
    exact and_congr_left fun _ => iff_of_true hname rfl
  | added _ _ hnew _ hgrows hcap hkeys hused =>
    rw [takes_cons_new hnew hcap hgrows.size_eq hkeys hused]
    exact and_congr_left fun _ => iff_of_true hname rfl

end takes

end FrameTable

/-! ## Nodes -/

namespace StackTree
variable {t t' : StackTree} {node id frameId : Nat} {base path : List Nat}

/-- The tree has the nodes of the first `d` frames of the path, and room for a node for each of the
others. -/
def Takes (t : StackTree) (base path : List Nat) : Prop :=
  ∃ d ≤ path.length, (∃ id, IsPath t id (base ++ path.take d)) ∧
    t.nodes.length + (path.length - d) ≤ t.capacity

/-- The last step to a node. -/
theorem IsPath.edge_of_concat (h : IsPath t id (base ++ [frameId])) :
    1 ≤ id ∧ ∃ parent, IsPath t parent base ∧ t.edges[id]? = some (parent, frameId) := by
  generalize hcat : base ++ [frameId] = whole at h
  cases h with
  | root => exact absurd hcat (List.concat_ne_nil _ _)
  | step hpos hget hparent =>
    obtain ⟨hbase, hframe⟩ := List.append_inj' hcat rfl
    subst hbase
    rw [List.head_eq_of_cons_eq hframe]
    exact ⟨hpos, _, hparent, edges_get hget⟩

/-- A longer path needs the nodes of a shorter one. -/
theorem IsPath.first (h : IsPath t id (base ++ path)) (hne : path ≠ []) :
    ∃ mid, IsPath t mid (base ++ [path.head hne]) := by
  cases path with
  | nil => exact absurd rfl hne
  | cons frameId path =>
    rw [List.append_cons] at h
    exact h.of_append

/-- An edge that is in the tree takes no room. -/
theorem takes_cons_found (hchild : IsPath t id (base ++ [frameId])) :
    t.Takes base (frameId :: path) ↔ t.Takes (base ++ [frameId]) path := by
  have htake : ∀ d, base ++ (frameId :: path).take (d + 1) = base ++ [frameId] ++ path.take d := by
    intro d
    rw [List.take_succ_cons, List.append_cons]
  constructor
  · rintro ⟨d, hd, hpath, hroom⟩
    rw [List.length_cons] at hd hroom
    cases d with
    | zero =>
      refine ⟨0, Nat.zero_le _, ⟨id, ?_⟩, by omega⟩
      rw [List.take_zero, List.append_nil]
      exact hchild
    | succ d =>
      rw [htake] at hpath
      exact ⟨d, by omega, hpath, by omega⟩
  · rintro ⟨d, hd, hpath, hroom⟩
    refine ⟨d + 1, by rw [List.length_cons]; omega, ?_, by rw [List.length_cons]; omega⟩
    rw [htake]
    exact hpath

/-- Below a node that is not there, each frame of the path needs a new one. -/
theorem takes_cons_new (hbase : IsPath t node base) (hnew : ¬∃ id, IsPath t id (base ++ [frameId])) :
    t.Takes base (frameId :: path) ↔ t.nodes.length + (path.length + 1) ≤ t.capacity := by
  constructor
  · rintro ⟨d, -, ⟨id, hpath⟩, hroom⟩
    cases d with
    | zero => exact hroom
    | succ d =>
      rw [List.take_succ_cons] at hpath
      exact absurd (hpath.first (List.cons_ne_nil _ _)) hnew
  · intro hroom
    refine ⟨0, Nat.zero_le _, ⟨node, ?_⟩, hroom⟩
    rw [List.take_zero, List.append_nil]
    exact hbase

/-- The last node of a tree has no children. -/
theorem Valid.takes_last (h : t.Valid) (hlast : IsPath t id base) (hid : id + 1 = t.nodes.length) :
    t.Takes base path ↔ t.nodes.length + path.length ≤ t.capacity := by
  cases path with
  | nil =>
    refine iff_of_true ⟨0, Nat.le_refl _, ⟨id, ?_⟩, h.count_le⟩ h.count_le
    rw [List.take_nil, List.append_nil]
    exact hlast
  | cons frameId path =>
    refine takes_cons_new hlast ?_
    rintro ⟨child, hchild⟩
    obtain ⟨hpos, parent, hparent, hedge⟩ := hchild.edge_of_concat
    have hlt := h.parent_lt child _ hpos hedge
    have hsame := h.path_inj hparent hlast
    have hinside := hchild.lt h
    omega

/-- The end of an edge is on the path of its beginning and one frame more. -/
theorem IsPath.child (hbase : IsPath t node base) (hid : 1 ≤ id)
    (hedge : t.edges[id]? = some (node, frameId)) : IsPath t id (base ++ [frameId]) := by
  obtain ⟨n, hget, hn⟩ : ∃ n, t.nodes[id]? = some n ∧ n.edge = (node, frameId) := by
    rwa [edges, List.getElem?_map, Option.map_eq_some_iff] at hedge
  obtain ⟨hparent, hframe⟩ := Prod.mk.inj hn
  rw [← hframe]
  exact .step hid hget (hparent ▸ hbase)

/-- Without the edge, no node is on the longer path. -/
theorem Valid.not_path_of_no_edge (h : t.Valid) (hbase : IsPath t node base)
    (hnew : ∀ id, 1 ≤ id → t.edges[id]? ≠ some (node, frameId)) :
    ¬∃ id, IsPath t id (base ++ [frameId]) := by
  rintro ⟨id, hpath⟩
  obtain ⟨hpos, parent, hother, hedge⟩ := hpath.edge_of_concat
  rw [h.path_inj hother hbase] at hedge
  exact hnew id hpos hedge

/-- The node that an edge is added for is on the longer path. -/
theorem Valid.child_new_path (h : t.Valid) (hbase : IsPath t node base)
    (hroom : t.nodes.length < t.capacity)
    (hnew : ∀ id, 1 ≤ id → t.edges[id]? ≠ some (node, frameId)) :
    ∃ t', t.child node frameId = some (some t.nodes.length, t') ∧ t'.Valid ∧
      IsPath t' t.nodes.length (base ++ [frameId]) ∧ t'.nodes.length = t.nodes.length + 1 ∧
      t'.capacity = t.capacity := by
  obtain ⟨t', hchild, hvalid, hnodes, htotal, hcap⟩ := h.child_new (hbase.lt h) hroom hnew
  have hlength : t'.nodes.length = t.nodes.length + 1 := by
    rw [hnodes, List.length_append, List.length_singleton]
  have hget : t'.nodes[t.nodes.length]? = some ⟨node, frameId, 0⟩ := by
    rw [hnodes, List.getElem?_concat_length]
  have hgrows : Grows t t' := by
    refine ⟨⟨_, hnodes, fun n hn => ?_⟩, htotal, hcap⟩
    rw [List.mem_singleton.mp hn]
  exact ⟨t', hchild, hvalid, .step h.length_pos hget (hbase.grows hgrows), hlength, hcap⟩

/-- **Descending along a path** gets to its end exactly when the tree takes the path. -/
theorem Valid.descend_takes (h : t.Valid) (hbase : IsPath t node base) (path : List Nat) :
    ∃ r t', t.descend node path = some (r, t') ∧ (r.isSome = true ↔ t.Takes base path) := by
  induction path generalizing t node base with
  | nil =>
    refine ⟨_, _, rfl, iff_of_true rfl ⟨0, Nat.le_refl _, ⟨node, ?_⟩, h.count_le⟩⟩
    rw [List.take_nil, List.append_nil]
    exact hbase
  | cons frameId path ih =>
    -- The root of the path is found, or has to be added, and behind an added node everything is new.
    have hparent := hbase.lt h
    unfold StackTree.descend
    by_cases hmem : ∃ id, 1 ≤ id ∧ t.edges[id]? = some (node, frameId)
    · obtain ⟨id, hid, hedge⟩ := hmem
      have hchild := hbase.child hid hedge
      simp only [h.child_found hparent hid hedge]
      obtain ⟨r, t', hdescend, htakes⟩ := ih h hchild
      exact ⟨r, t', hdescend, htakes.trans (takes_cons_found hchild).symm⟩
    · have hnew : ∀ id, 1 ≤ id → t.edges[id]? ≠ some (node, frameId) :=
        fun id hid hedge => hmem ⟨id, hid, hedge⟩
      rw [takes_cons_new hbase (h.not_path_of_no_edge hbase hnew)]
      rcases Nat.lt_or_ge t.nodes.length t.capacity with hroom | hfull
      · obtain ⟨t₁, hchild, hvalid, hlast, hlength, hcap⟩ := h.child_new_path hbase hroom hnew
        simp only [hchild]
        obtain ⟨r, t', hdescend, htakes⟩ := ih hvalid hlast
        refine ⟨r, t', hdescend, htakes.trans ((hvalid.takes_last hlast hlength.symm).trans ?_)⟩
        rw [hlength, hcap]
        omega
      -- The tree is full, and the path needs a node.
      · obtain ⟨hits, hchild⟩ := h.child_full hparent hfull hnew
        simp only [hchild]
        exact ⟨_, _, rfl, iff_of_false Bool.false_ne_true (by omega)⟩

end StackTree

end CboxTelemetry.Profiler
