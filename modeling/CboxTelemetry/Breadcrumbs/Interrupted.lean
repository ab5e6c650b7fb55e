import CboxTelemetry.Breadcrumbs.Ring

/-!
# The breadcrumb ring between two stores

A crash lands between two stores of a push, and the snapshot for its record is taken there. What the ring
is at each point is said once (`Phase`). The entry at `head` is retracted while it is written, so a
snapshot never has half an entry (`whole_of_snapshot`). Its order is another matter: between the store
that publishes the entry and the one that advances `head` a full ring still takes the newest entry for
its oldest (`inOrder_iff`).
-/

namespace CboxTelemetry.Breadcrumbs

open Crash (Crumb)
open Profiler (u32 u64 u64_of_lt)
open RingBuffer (HoldsLast)

/-! ## The points of a push -/

/-- A store that comes before the one that publishes. -/
def Store.unpublished : Store → Bool
  | .publish | .head | .written => false
  | _ => true

/-- What the ring `r` is after the first `k` stores of a push. -/
inductive Phase (r : CrumbRing) (p : Push) : Nat → CrumbRing → Prop
  | before : Phase r p 0 r
  | writing (k : Nat) (e : Crumb) (seq : UInt32) : 0 < k → k < 55 → e.seq = 0 →
      Phase r p k { r with entries := r.entries.set r.head e, seq := seq }
  | published : Phase r p 55 { r with
      entries := r.entries.set r.head (p.crumb (r.seq + 1)), seq := r.seq + 1 }
  | advanced : Phase r p 56 { r with
      entries := r.entries.set r.head (p.crumb (r.seq + 1)), seq := r.seq + 1
      head := u32 (r.head + 1) &&& r.mask }
  | done (k : Nat) : 57 ≤ k → Phase r p k (r.push p)

theorem length_fieldStores : fieldStores.length = 52 := by
  rw [fieldStores, List.length_append, List.length_map, List.length_finRange]
  rfl

/-- No store before the publication publishes. -/
theorem unpublished_fieldStores : ∀ s ∈ Store.retract :: fieldStores ++ [Store.ringSeq], s.unpublished := by
  intro s hs
  simp only [fieldStores, List.mem_append, List.mem_cons, List.mem_map, List.not_mem_nil, or_false] at hs
  rcases hs with (rfl | (rfl | rfl | rfl | rfl) | ⟨i, _, rfl⟩) | rfl <;> rfl

namespace CrumbRing
variable {r : CrumbRing} {p : Push} {ps : List Push}

/-- Before the publication only the entry at `head` and the ring's sequence number change, and the entry
stays retracted. -/
theorem store_unpublished (hhead : r.head < r.entries.length) {e : Crumb} (he : e.seq = 0) (seq : UInt32)
    {s : Store} (hs : s.unpublished) : ∃ (e' : Crumb) (seq' : UInt32), e'.seq = 0 ∧
      store p { r with entries := r.entries.set r.head e, seq := seq } s =
        { r with entries := r.entries.set r.head e', seq := seq' } := by
  -- Every store of a field changes the entry at the head and nothing else.
  have hset : ∀ f : Crumb → Crumb,
      setEntry { r with entries := r.entries.set r.head e, seq := seq } f =
        { r with entries := r.entries.set r.head (f e), seq := seq } := by
    intro f
    have hget : (r.entries.set r.head e)[r.head]? = some e := List.getElem?_set_self hhead
    show { r with entries := (r.entries.set r.head e).modify r.head f, seq := seq } = _
    rw [List.modify_eq_set_getElem?, hget]
    show { r with entries := (r.entries.set r.head e).set r.head (f e), seq := seq } = _
    rw [List.set_set]
  cases s with
  | retract => exact ⟨{ e with seq := 0 }, seq, rfl, hset _⟩
  | tsNs => exact ⟨{ e with tsNs := p.nowNs }, seq, he, hset fun e => { e with tsNs := p.nowNs }⟩
  | type => exact ⟨{ e with type := p.type }, seq, he, hset fun e => { e with type := p.type }⟩
  | flags => exact ⟨{ e with flags := p.flags }, seq, he, hset fun e => { e with flags := p.flags }⟩
  | labelLen =>
    exact ⟨{ e with labelLen := .ofNat p.cutLabel.length }, seq, he,
      hset fun e => { e with labelLen := .ofNat p.cutLabel.length }⟩
  | label i =>
    exact ⟨{ e with label := e.label.set i p.padLabel[i] }, seq, he,
      hset fun e => { e with label := e.label.set i p.padLabel[i] }⟩
  | ringSeq => exact ⟨e, seq + 1, he, rfl⟩
  -- These three come behind the publication.
  | publish => exact absurd hs Bool.false_ne_true
  | head => exact absurd hs Bool.false_ne_true
  | written => exact absurd hs Bool.false_ne_true

/-- Stores before the publication leave the entry unpublished. -/
theorem foldl_unpublished (hhead : r.head < r.entries.length) (stores : List Store)
    (hstores : ∀ s ∈ stores, s.unpublished) {e : Crumb} (he : e.seq = 0) (seq : UInt32) :
    ∃ (e' : Crumb) (seq' : UInt32), e'.seq = 0 ∧
      stores.foldl (store p) { r with entries := r.entries.set r.head e, seq := seq } =
        { r with entries := r.entries.set r.head e', seq := seq' } := by
  induction stores generalizing e seq with
  | nil => exact ⟨e, seq, he, rfl⟩
  | cons s stores ih =>
    obtain ⟨e', seq', he', heq⟩ := store_unpublished (p := p) hhead he seq (hstores s List.mem_cons_self)
    rw [List.foldl_cons, heq]
    exact ih (fun t ht => hstores t (List.mem_cons_of_mem _ ht)) he' seq'

/-- The points after the retraction and before the publication. -/
theorem interrupted_writing (hhead : r.head < r.entries.length) (p : Push) {k : Nat} (hpos : 0 < k)
    (hk : k < 55) : ∃ (e : Crumb) (seq : UInt32), e.seq = 0 ∧
      r.interrupted p k = { r with entries := r.entries.set r.head e, seq := seq } := by
  -- The push is the retraction and the stores up to the number, then the three that publish.
  have hsplit : pushStores =
      (Store.retract :: (fieldStores ++ [Store.ringSeq])) ++ [Store.publish, Store.head, Store.written] := by
    rw [pushStores, List.cons_append, List.cons_append, List.append_assoc]
    rfl
  have hlength : (Store.retract :: (fieldStores ++ [Store.ringSeq])).length = 54 := by
    rw [List.length_cons, List.length_append, length_fieldStores]
    rfl
  obtain ⟨j, rfl⟩ := Nat.exists_eq_succ_of_ne_zero (Nat.ne_of_gt hpos)
  have hretract : store p r .retract =
      { r with entries := r.entries.set r.head { r.entries[r.head] with seq := 0 }, seq := r.seq } := by
    rw [store, setEntry, List.modify_eq_set_getElem?, List.getElem?_eq_getElem hhead]
    rfl
  rw [interrupted, hsplit, List.take_append_of_le_length (by omega), List.take_succ_cons, List.foldl_cons,
    hretract]
  refine foldl_unpublished hhead _ (fun s hs => ?_) rfl r.seq
  exact unpublished_fieldStores s (List.mem_cons_of_mem _ (List.mem_of_mem_take hs))

/-- **Where a push can be.** -/
theorem phase_interrupted (hhead : r.head < r.entries.length) (p : Push) (k : Nat) :
    Phase r p k (r.interrupted p k) := by
  have hentries : r.entries ≠ [] := List.ne_nil_of_length_pos (by omega)
  have hsplit : pushStores =
      (Store.retract :: fieldStores ++ [Store.ringSeq, Store.publish]) ++ [Store.head, Store.written] := by
    rw [pushStores, List.append_assoc]
    rfl
  have hlength : (Store.retract :: fieldStores ++ [Store.ringSeq, Store.publish]).length = 55 := by
    rw [List.length_append, List.length_cons, length_fieldStores]
    rfl
  rcases Nat.lt_or_ge k 55 with hk | hk
  -- Nothing has been stored, or the entry is being written.
  · rcases Nat.eq_zero_or_pos k with rfl | hpos
    · exact .before
    · obtain ⟨e, seq, he, heq⟩ := interrupted_writing hhead p hpos hk
      rw [heq]
      exact .writing k e seq hpos hk he
  · obtain ⟨j, rfl⟩ := Nat.exists_eq_add_of_le hk
    have hrest : r.interrupted p (55 + j) = ([Store.head, Store.written].take j).foldl (store p)
        { r with entries := r.entries.set r.head (p.crumb (r.seq + 1)), seq := r.seq + 1 } := by
      rw [interrupted, hsplit, List.take_append, hlength, Nat.add_sub_cancel_left,
        List.take_of_length_le (by rw [hlength]; exact hk), List.foldl_append, foldl_publish,
        modify_head_eq_set hhead]
    rw [hrest]
    -- Three phases: published, head advanced, count stored.
    match j with
    | 0 => exact .published
    | 1 => exact .advanced
    | j + 2 =>
      have hdone : r.push p = (([Store.head, Store.written].take (j + 2)).foldl (store p)
          { r with entries := r.entries.set r.head (p.crumb (r.seq + 1)), seq := r.seq + 1 }) := by
        rw [push_eq r p hentries, modify_head_eq_set hhead, List.take_of_length_le (Nat.le_add_left 2 j)]
        rfl
      rw [← hdone]
      exact .done (55 + (j + 2)) (by omega)

/-! ## No half entries -/

/-- What the entries of a ring at any point of a push can be. -/
theorem Holds.whole_phase (h : r.Holds ps) {k : Nat} {r' : CrumbRing} (hphase : Phase r p k r') :
    ∀ e ∈ r'.entries, e.seq ≠ 0 → e ∈ crumbs (ps ++ [p]) := by
  have hold : ∀ e ∈ r.entries, e.seq ≠ 0 → e ∈ crumbs (ps ++ [p]) := fun e he hne => by
    rw [crumbs_append]
    exact List.mem_append_left _ (h.whole e he hne)
  -- The new entry is whole from its publication on.
  have hnew : p.crumb (r.seq + 1) ∈ crumbs (ps ++ [p]) := by
    rw [crumbs_append, h.next_seq]
    exact List.mem_append_right _ (List.mem_singleton_self _)
  have hset : ∀ e ∈ r.entries.set r.head (p.crumb (r.seq + 1)), e.seq ≠ 0 → e ∈ crumbs (ps ++ [p]) := by
    intro e he hne
    rcases List.mem_or_eq_of_mem_set he with hmem | rfl
    · exact hold e hmem hne
    · exact hnew
  cases hphase with
  | before => exact hold
  | writing k e' seq _ _ hretracted =>
    intro e he hne
    rcases List.mem_or_eq_of_mem_set he with hmem | rfl
    · exact hold e hmem hne
    · exact absurd hretracted hne
  | published => exact hset
  | advanced => exact hset
  | done k _ => exact (h.push p).whole

/-- A snapshot copies published entries of the ring. -/
theorem mem_entries_of_mem_snapshot {max : Nat} {e : Crumb} (he : e ∈ r.snapshot max) :
    e ∈ r.entries ∧ e.seq ≠ 0 := by
  unfold snapshot at he
  split at he
  · exact absurd he List.not_mem_nil
  · obtain ⟨i, _, hi⟩ := List.mem_filterMap.mp he
    split at hi
    · next e' hget =>
      split at hi
      · exact absurd hi nofun
      · next hne =>
        obtain rfl : e' = e := Option.some.inj hi
        exact ⟨List.mem_of_getElem? hget, hne⟩
    · exact absurd hi nofun

end CrumbRing

/-- **No torn entries.** Wherever a push is interrupted, every entry a snapshot returns is the whole entry
of one push, the one under way or one before it. -/
theorem whole_of_snapshot {capacity : Nat} {r : CrumbRing} (hinit : CrumbRing.init capacity true = (true, r))
    (history : List RingOp) (p : Push) (k max : Nat) :
    ∀ e ∈ ((r.after history).interrupted p k).snapshot max,
      ∃ (i : Nat) (q : Push), (pushesSince history ++ [p])[i]? = some q ∧ e = q.crumb (.ofNat (i + 1)) := by
  intro e he
  have hholds := CrumbRing.holds_after hinit history
  obtain ⟨hmem, hne⟩ := CrumbRing.mem_entries_of_mem_snapshot he
  have hwhole := hholds.whole_phase (CrumbRing.phase_interrupted hholds.head_lt p k) e hmem hne
  obtain ⟨i, hi, rfl⟩ := List.mem_mapIdx.mp hwhole
  exact ⟨i, _, List.getElem?_eq_getElem hi, rfl⟩

/-- In a ring that has wrapped, the entry of an interrupted push is that push's once it is
published. -/
theorem whole_of_snapshot_published :
    ∃ (i : Nat) (q : Push), (pushesSince (List.replicate 20 (.push ⟨3, 0, some (ascii "PDO::query"), 7⟩)) ++
      [⟨5, 1, none, 8⟩])[i]? = some q ∧
        (⟨5, 1, none, 8⟩ : Push).crumb 21 = q.crumb (.ofNat (i + 1)) :=
  -- The ring is full, and the entry of the push under way is published.
  whole_of_snapshot (rfl : CrumbRing.init 16 true = (true, (CrumbRing.init 16 true).2))
    (List.replicate 20 (.push ⟨3, 0, some (ascii "PDO::query"), 7⟩)) ⟨5, 1, none, 8⟩ 55 32 _
    (by decide +kernel)

/-! ## Order -/

/-- The entries `out` of a ring of `cap` slots, taken during push `n + 1`, are in strictly increasing
sequence order. A number that is missing between two of them is the slot being written: the entry it takes,
or the one it had. -/
structure InOrder (n cap : Nat) (out : List Crumb) : Prop where
  increasing : out.Pairwise fun e e' => e.seq.toNat < e'.seq.toNat
  gapless : ∀ a ∈ out, ∀ b ∈ out, ∀ s, a.seq.toNat < s → s < b.seq.toNat →
    (∃ e ∈ out, e.seq.toNat = s) ∨ s = n + 1 ∨ s + cap = n + 1

/-- The entries from number `m + 1` on. -/
theorem mem_drop_crumbs {ps : List Push} (hfew : ps.length < 2 ^ 32) {m : Nat} {e : Crumb}
    (he : e ∈ (crumbs ps).drop m) : m < e.seq.toNat ∧ e.seq.toNat ≤ ps.length := by
  obtain ⟨i, hi, rfl⟩ := List.mem_iff_getElem.mp he
  have hlength : i < ps.length - m := by rwa [List.length_drop, length_crumbs] at hi
  have hseq : ((crumbs ps).drop m)[i].seq.toNat = m + i + 1 := by
    simp only [crumbs, List.getElem_drop, List.getElem_mapIdx]
    show (UInt32.ofNat (m + i + 1)).toNat = _
    rw [UInt32.toNat_ofNat', Nat.mod_eq_of_lt (by omega)]
  rw [hseq]
  omega

/-- Every number in the range has its entry. -/
theorem exists_seq_drop_crumbs (ps : List Push) (hfew : ps.length < 2 ^ 32) {m s : Nat} (hlow : m < s)
    (hhigh : s ≤ ps.length) : ∃ e ∈ (crumbs ps).drop m, e.seq.toNat = s := by
  obtain ⟨i, rfl⟩ := Nat.exists_eq_add_of_lt hlow
  have hin : m + i < ps.length := by omega
  have hget : ((crumbs ps).drop m)[i]? = some (ps[m + i].crumb (.ofNat (m + i + 1))) := by
    rw [List.getElem?_drop, getElem?_crumbs, List.getElem?_eq_getElem hin]
    rfl
  refine ⟨_, List.mem_of_getElem? hget, ?_⟩
  show (UInt32.ofNat (m + i + 1)).toNat = _
  rw [UInt32.toNat_ofNat', Nat.mod_eq_of_lt (by omega)]

/-- The numbers grow from one entry to the next. -/
theorem pairwise_drop_crumbs {ps : List Push} (hfew : ps.length < 2 ^ 32) (m : Nat) :
    ((crumbs ps).drop m).Pairwise fun e e' => e.seq.toNat < e'.seq.toNat := by
  refine List.Pairwise.drop (List.pairwise_iff_getElem.mpr fun i j hi hj hij => ?_)
  rw [length_crumbs] at hi hj
  simp only [crumbs, List.getElem_mapIdx]
  show (UInt32.ofNat (i + 1)).toNat < (UInt32.ofNat (j + 1)).toNat
  rw [UInt32.toNat_ofNat', UInt32.toNat_ofNat', Nat.mod_eq_of_lt (by omega), Nat.mod_eq_of_lt (by omega)]
  omega

/-- The last entries of a history are in order. -/
theorem inOrder_drop {ps : List Push} (hfew : ps.length < 2 ^ 32) (m n cap : Nat) :
    InOrder n cap ((crumbs ps).drop m) where
  increasing := pairwise_drop_crumbs hfew m
  gapless a ha b hb s hlow hhigh := by
    have hm := (mem_drop_crumbs hfew ha).1
    have hn := (mem_drop_crumbs hfew hb).2
    exact .inl (exists_seq_drop_crumbs _ hfew (by omega) (by omega))

namespace CrumbRing
variable {r : CrumbRing} {p : Push} {ps : List Push}

/-- A snapshot of the window of the last `count` entries that a ring holds. -/
theorem snapshot_of_window {r' : CrumbRing} (hshape : r'.Shape) {k : Nat}
    (hlast : HoldsLast r'.capacity k r'.entries (crumbs ps)) (hfew : ps.length < 2 ^ 32)
    (hhead : r'.head = ps.length % r'.capacity) {max : Nat} (hk : r'.count max ≤ k)
    (hcount : r'.count max ≤ ps.length) :
    r'.snapshot max = (crumbs ps).drop (ps.length - r'.count max) := by
  have hwindow := hlast.window hk (r'.count_le max) (by rw [length_crumbs]; exact hcount)
  rw [length_crumbs, ← hhead] at hwindow
  rw [hshape.snapshot_eq, hwindow, filterMap_published]
  exact fun e he => seq_ne_zero_of_mem_crumbs hfew e (List.mem_of_mem_drop he)

/-- When the window is the whole ring, the slot at `head` comes first. -/
theorem snapshot_of_full {r' : CrumbRing} (hshape : r'.Shape) {e : Crumb}
    (hlast : HoldsLast r'.capacity (r'.capacity - 1) r'.entries (crumbs ps)) (hfew : ps.length < 2 ^ 32)
    (hhead : r'.head = ps.length % r'.capacity) (hslot : r'.entries[r'.head]? = some e) {max : Nat}
    (hfull : r'.count max = r'.capacity) (hn : r'.capacity ≤ ps.length) :
    r'.snapshot max = (published (some e)).toList ++ (crumbs ps).drop (ps.length - (r'.capacity - 1)) := by
  -- The window is the entry at the head, which may be the new one, and the ones behind it.
  have hcap := hshape.le_capacity
  obtain ⟨c, hc⟩ := Nat.exists_eq_add_of_le' (show 1 ≤ r'.capacity by omega)
  have hlt : r'.head < r'.capacity := by
    rw [hhead]
    exact Nat.mod_lt _ (by omega)
  have hwindow := hlast.window (Nat.le_refl _) (Nat.sub_le _ _) (by rw [length_crumbs]; omega)
  rw [length_crumbs, ← hhead] at hwindow
  have hc' : r'.capacity - 1 = c := by omega
  have hfirst : (r'.head + r'.capacity - (c + 1)) % r'.capacity = r'.head := by
    rw [← hc, Nat.add_sub_cancel, Nat.mod_eq_of_lt hlt]
  rw [hc'] at hwindow
  rw [hshape.snapshot_eq, hfull.trans hc, RingBuffer.window_succ (by omega), hfirst, hslot, hwindow, List.filterMap_cons, hc',
    filterMap_published fun e he => seq_ne_zero_of_mem_crumbs hfew e (List.mem_of_mem_drop he)]
  cases published (some e) <;> rfl

/-- The points at which a snapshot is out of order: the entry is published and `head` still at it, and the
window is the whole ring. -/
def OutOfOrder (cap n max k : Nat) : Prop := k = 55 ∧ cap ≤ n ∧ cap ≤ max

/-- The window is the whole ring, or leaves out the slot at `head`. -/
theorem count_cases (hcap : 0 < r.capacity) (hwritten : r.written = ps.length) (max : Nat) :
    (r.count max = r.capacity ∧ r.capacity ≤ ps.length ∧ r.capacity ≤ max) ∨
      (r.count max ≤ r.capacity - 1 ∧ ¬(r.capacity ≤ ps.length ∧ r.capacity ≤ max)) := by
  rw [count, hwritten]
  omega

/-- The newest entry in front of an older one. -/
theorem not_inOrder_newest {cap : Nat} (hfew : (ps ++ [p]).length < 2 ^ 32) {m : Nat} (hm : m < ps.length) :
    ¬InOrder ps.length cap (p.crumb (.ofNat (ps.length + 1)) :: (crumbs ps).drop m) := by
  intro horder
  rw [List.length_append, List.length_singleton] at hfew
  obtain ⟨e, he, _⟩ := exists_seq_drop_crumbs ps (by omega) hm (Nat.le_refl _)
  have hlt := (List.pairwise_cons.mp horder.increasing).1 e he
  have hle := (mem_drop_crumbs (by omega) he).2
  have hseq : (p.crumb (.ofNat (ps.length + 1))).seq.toNat = ps.length + 1 := by
    show (UInt32.ofNat (ps.length + 1)).toNat = _
    rw [UInt32.toNat_ofNat', Nat.mod_eq_of_lt (by omega)]
  omega

theorem count_le_written (r : CrumbRing) (max : Nat) : r.count max ≤ r.written :=
  Nat.le_trans (Nat.min_le_left _ _) (Nat.min_le_right _ _)

/-- A snapshot while `head` is still at the entry of the push, whatever the entry is by then. -/
theorem Holds.snapshot_set (h : r.Holds ps) (hfew : ps.length < 2 ^ 32) (e : Crumb) (seq : UInt32) (max : Nat) :
    { r with entries := r.entries.set r.head e, seq := seq }.snapshot max =
      if r.capacity ≤ ps.length ∧ r.capacity ≤ max then
        (published (some e)).toList ++ (crumbs ps).drop (ps.length - (r.capacity - 1))
      else (crumbs ps).drop (ps.length - r.count max) := by
  have hwritten : r.written = ps.length := by rw [h.written_eq, u64_of_lt (by omega)]
  have hcap := h.le_capacity
  have hle := r.count_le_written max
  have hlast := h.last.set_next e
  rw [length_crumbs, ← h.head_eq] at hlast
  have hshape : CrumbRing.Shape { r with entries := r.entries.set r.head e, seq := seq } :=
    ⟨h.capacity_pow, h.mask_eq, List.length_set.trans h.length_eq⟩
  have hslot : (r.entries.set r.head e)[r.head]? = some e := List.getElem?_set_self h.head_lt
  -- The window takes the entry at the head only when the ring is full and all of it is asked for.
  rcases count_cases (by omega) hwritten max with ⟨hfull, hn, hmax⟩ | ⟨hcount, hnot⟩
  · rw [if_pos ⟨hn, hmax⟩]
    exact snapshot_of_full hshape hlast hfew h.head_eq hslot hfull hn
  · rw [if_neg hnot]
    exact snapshot_of_window hshape hlast hfew h.head_eq hcount (by rw [← hwritten]; exact hle)

/-- **Order at every point of a push.** -/
theorem Holds.inOrder_phase_iff (h : r.Holds ps) (hfew : (ps ++ [p]).length < 2 ^ 32) {k : Nat}
    {r' : CrumbRing} (hphase : Phase r p k r') (max : Nat) :
    InOrder ps.length r.capacity (r'.snapshot max) ↔ ¬OutOfOrder r.capacity ps.length max k := by
  have hlength : (ps ++ [p]).length = ps.length + 1 := List.length_append
  have hold : ps.length < 2 ^ 32 := by omega
  -- Only between the publication and the store of the head is the window off by one.
  cases hphase with
  | before =>
    rw [h.snapshot_eq hold]
    exact iff_of_true (inOrder_drop hold _ _ _) fun hout => absurd hout.1 (by decide)
  | writing k e seq _ hk hretracted =>
    -- The retracted entry drops out of the window, wherever it is.
    rw [h.snapshot_set hold, published_retracted hretracted]
    refine iff_of_true ?_ fun hout => absurd hout.1 (Nat.ne_of_lt hk)
    split <;> exact inOrder_drop hold _ _ _
  -- The new entry stands at the head, where the window of a full ring starts.
  | published =>
    rw [h.snapshot_set hold, h.next_seq]
    have hcap := h.le_capacity
    split
    · next hfull =>
      have hne : (p.crumb (.ofNat (ps.length + 1))).seq ≠ 0 :=
        seq_ne_zero_of_mem_crumbs hfew _ (by rw [crumbs_append]; exact List.mem_concat_self)
      rw [published_some hne]
      -- The newest number comes first and is larger than the others.
      exact iff_of_false (not_inOrder_newest hfew (by omega)) (not_not.mpr ⟨rfl, hfull⟩)
    · next hnot => exact iff_of_true (inOrder_drop hold _ _ _) fun hout => hnot hout.2
  | advanced =>
    have hwritten : r.written = ps.length := by rw [h.written_eq, u64_of_lt (by omega)]
    have hle := r.count_le_written max
    have hshape : CrumbRing.Shape { r with
        entries := r.entries.set r.head (p.crumb (r.seq + 1)), seq := r.seq + 1
        head := u32 (r.head + 1) &&& r.mask } :=
      ⟨h.capacity_pow, h.mask_eq, List.length_set.trans h.length_eq⟩
    have hhead : u32 (r.head + 1) &&& r.mask = (ps ++ [p]).length % r.capacity := by
      rw [hlength, h.next_head]
    rw [snapshot_of_window hshape (h.last_push p) hfew hhead (count_le _ max)
      (by rw [hlength]; exact Nat.le_succ_of_le (by rw [← hwritten]; exact hle))]
    exact iff_of_true (inOrder_drop hfew _ _ _) fun hout => absurd hout.1 (by decide)
  | done k hk =>
    have hpush := h.push p
    rw [hpush.snapshot_eq hfew]
    exact iff_of_true (inOrder_drop hfew _ _ _) fun hout => absurd hout.1 (by omega)

end CrumbRing

/-- **Order of a snapshot at any interruption.** The entries are in order, oldest first and without a gap,
except exactly where the newest entry of a full ring is published and `head` has not moved past it, and
the snapshot asks for as many entries as the ring has. -/
theorem inOrder_iff {capacity : Nat} {r : CrumbRing} (hinit : CrumbRing.init capacity true = (true, r))
    (history : List RingOp) (p : Push) (hfew : (pushesSince history ++ [p]).length < 2 ^ 32) (k max : Nat) :
    InOrder (pushesSince history).length r.capacity (((r.after history).interrupted p k).snapshot max) ↔
      ¬(k = 55 ∧ r.capacity ≤ (pushesSince history).length ∧ r.capacity ≤ max) := by
  have hholds := CrumbRing.holds_after hinit history
  have hiff := hholds.inOrder_phase_iff hfew (CrumbRing.phase_interrupted hholds.head_lt p k) max
  rw [r.after_capacity history] at hiff
  exact hiff

/-- Twenty pushes into a ring of sixteen, and another one interrupted at its publication. -/
theorem inOrder_iff_published : ¬InOrder 20 16 (((CrumbRing.init 16 true).2.after
      (List.replicate 20 (.push ⟨3, 0, some (ascii "PDO::query"), 7⟩))).interrupted
        ⟨5, 1, none, 8⟩ 55 |>.snapshot 32) :=
  fun horder => (inOrder_iff (rfl : CrumbRing.init 16 true = (true, (CrumbRing.init 16 true).2))
    (List.replicate 20 (.push ⟨3, 0, some (ascii "PDO::query"), 7⟩)) ⟨5, 1, none, 8⟩ (by decide) 55 32).mp
      horder (by decide)

/-- The newest entry of a full ring comes first: 16 pushes, and the next one interrupted after its
publication. -/
theorem not_inOrder_full : ¬∀ (capacity : Nat) (r : CrumbRing),
    CrumbRing.init capacity true = (true, r) → ∀ (history : List RingOp) (p : Push),
      (pushesSince history ++ [p]).length < 2 ^ 32 → ∀ k max,
        InOrder (pushesSince history).length r.capacity
          (((r.after history).interrupted p k).snapshot max) := by
  intro horder
  have hinit : CrumbRing.init 16 true = (true, (CrumbRing.init 16 true).2) := rfl
  have hholds := CrumbRing.holds_after hinit
    (List.replicate 16 (.push ⟨3, 0, some (ascii "PDO::query"), 7⟩))
  have hphase := CrumbRing.phase_interrupted hholds.head_lt ⟨5, 1, none, 8⟩ 55
  have hbad := hholds.inOrder_phase_iff (by decide) hphase 32
  rw [CrumbRing.after_capacity] at hbad
  exact hbad.mp (horder 16 _ hinit _ _ (by decide) 55 32) ⟨rfl, by decide, by decide⟩

end CboxTelemetry.Breadcrumbs
