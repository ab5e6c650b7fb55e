import CboxTelemetry.Crash.OneKind

/-!
# Delivering exactly once

A directory of sinks of dead processes, each made of complete records, drained over and over.
`DeliversOnce` is the promise: however the drains are budgeted and whatever order the directory is
listed in, no record is handed over more often than it was written, and from some call on every
record has been handed over and a call returns nothing.

`deliversOnce_iff` says exactly when it is kept. A sink that mixes records of this version with
records of others breaks it: a drain that meets both hands the former over and then consumes nothing,
so the next drain hands them over again.
-/

namespace CboxTelemetry.Crash

open Scan (scan)

/-- The sinks of the processes `pids`, made of these records. -/
def sinksOf (pids : List Pid) (items : Pid → List Item) : Sinks := fun name =>
  (pids.find? fun p => sinkName p.toInt = name).map fun p => encode (items p)

/-- What the processes wrote in this version. -/
def written (items : Pid → List Item) (p : Pid) : List Bytes := (owns (items p)).map OwnRecord.bytes

/-- **The promise.** Over any calls in which nothing fails, that have budget and whose listings are
complete: no record of this version is handed over more often than it was written, and from some call
on every one has been handed over and the calls return 0. -/
def DeliversOnce (euid : Nat) (pids : List Pid) (items : Pid → List Item) : Prop :=
  ∀ calls : Nat → DrainCall, (∀ i, (calls i).Reliable euid) → (∀ i, 1 ≤ (calls i).max) →
    let h := after calls ((sinksOf pids items).toDir euid)
    (∀ i, (calls i).Lists (h i).dir) →
      (∀ n, ∀ p ∈ pids, (handedFrom (sinkName p.toInt) (h n).handed).Subperm (written items p)) ∧
      ∃ last, ∀ n, last ≤ n → ((calls n).run (h n).dir).returned = 0 ∧
        ∀ p ∈ pids, (handedFrom (sinkName p.toInt) (h n).handed).Perm (written items p)

variable {pids : List Pid} {items : Pid → List Item} {euid : Nat} {calls : Nat → DrainCall}

/-- The sink of one of the given pids holds that pid's records. -/
theorem sinksOf_pid {p : Pid} (hp : p ∈ pids) :
    sinksOf pids items (sinkName p.toInt) = some (encode (items p)) := by
  rw [sinksOf]
  cases hfind : pids.find? fun q => sinkName q.toInt = sinkName p.toInt with
  | none => simpa using List.find?_eq_none.mp hfind p hp
  | some q =>
    have hname := List.find?_some hfind
    rw [decide_eq_true_eq] at hname
    rw [sinkName_injective hname]
    rfl

/-- Every sink there is belongs to one of the given pids. -/
theorem exists_of_sinksOf {name : Name} (h : sinksOf pids items name ≠ none) :
    ∃ p ∈ pids, sinkName p.toInt = name := by
  rw [sinksOf, ne_eq, Option.map_eq_none_iff, List.find?_eq_none] at h
  push Not at h
  obtain ⟨p, hp, hname⟩ := h
  exact ⟨p, hp, of_decide_eq_true hname⟩

/-! ## Deliverable sinks -/

/-- How far a sink of one kind has been drained: its first records have been handed over, and the file
holds the others. -/
def Drains (items : List Item) (now : Option Bytes) (handed : List Bytes) : Prop :=
  ∃ k, handed = ((owns items).take k).map OwnRecord.bytes ∧
    ((now = none ∧ (owns items).length ≤ k) ∨
      now = some (encode (if foreigns items = [] then items.drop k else items)))

/-- A sink without records of other versions is its records of this one. -/
theorem eq_map_own {items : List Item} (h : foreigns items = []) : items = (owns items).map .own := by
  induction items with
  | nil => rfl
  | cons item items ih =>
    cases item with
    | own r =>
      rw [foreigns_own] at h
      rw [owns_own, List.map_cons, ← ih h]
    | foreign f => rw [foreigns_foreign] at h; cases h

/-- One step on a sink of one kind: it hands over what comes next, and something if there is
anything. -/
theorem Deliverable.step {items : List Item} (hok : Deliverable items) {budget : Nat}
    (hb : 0 < budget) {content : Bytes} {handed : List Bytes}
    (h : Drains items (some content) handed) :
    Drains items (sinkStep budget content).rest
        (handed ++ records (sinkStep budget content).visits) ∧
      ((sinkStep budget content).visits = [] → handed = (owns items).map OwnRecord.bytes) := by
  obtain ⟨k, rfl, ⟨hgone, -⟩ | hcontent⟩ := h
  · cases hgone
  rw [Option.some.injEq] at hcontent
  subst hcontent
  by_cases hforeign : foreigns items = []
  · -- Records of this version only.
    have hquiet : ∀ r ∈ (owns items).drop readRecords, NoForeign (r.bytes.take cutBytes) := by
      rcases hok with ⟨-, hquiet⟩ | ⟨howns, -⟩
      · exact hquiet
      · rw [howns, List.drop_nil]
        exact fun r hr => nomatch hr
    -- What is left of the file is again a list of own records, so the rule for one kind applies to it.
    have hmap : items.drop k = ((owns items).drop k).map .own := by
      conv_lhs => rw [eq_map_own hforeign]
      rw [List.map_drop]
    have hsub : ∀ r ∈ ((owns items).drop k).drop readRecords, r ∈ (owns items).drop readRecords := by
      intro r hr
      rw [List.drop_drop, Nat.add_comm, ← List.drop_drop] at hr
      exact List.mem_of_mem_drop hr
    obtain ⟨hvisits, hrest⟩ := sinkStep_own (fun r hr => hquiet r (hsub r hr)) budget
    rw [if_pos hforeign, hmap, hvisits, hrest]
    constructor
    -- The call hands over the next `min budget readRecords` records of the file.
    · refine ⟨k + min budget readRecords, ?_, ?_⟩
      · rw [List.take_add, List.map_append]
      · rw [List.length_drop]
        split
        next hall => exact .inl ⟨rfl, by omega⟩
        next hmore =>
          refine .inr ?_
          rw [List.drop_drop, List.map_drop, ← eq_map_own hforeign]
    -- A call with a budget hands over nothing only when there is nothing left.
    · intro hnone
      rw [hnone, records_nil, eq_comm, List.map_eq_nil_iff, List.take_eq_nil_iff] at hvisits
      have hread : 0 < readRecords := by decide
      have hall := hvisits.resolve_left (by omega)
      rw [List.take_of_length_le (List.drop_eq_nil_iff.mp hall)]
  · -- Records of other versions only.
    obtain ⟨howns, hquiet⟩ := hok.resolve_left fun h => hforeign h.1
    have hne : items ≠ [] := by rintro rfl; exact hforeign rfl
    obtain ⟨hvisits, hrest⟩ := sinkStep_foreign howns hne hquiet hb
    rw [if_neg hforeign, hvisits, hrest, howns]
    -- Nothing is handed over, nothing is removed, and no own record is there to wait for.
    refine ⟨⟨k, ?_, .inr ?_⟩, fun _ => ?_⟩
    · rw [records_nil, List.append_nil, howns]
    · rw [if_neg hforeign]
    · rw [List.take_nil]

section
variable (hcalls : ∀ i, (calls i).Reliable euid) (hok : ∀ p ∈ pids, Deliverable (items p))
include hcalls hok

/-- In every state that a sequence of reliable calls reaches, a sink holds the records behind those
it has handed over. -/
theorem after_drains {p : Pid} (hp : p ∈ pids) (n : Nat) :
    Drains (items p)
      (contents (after calls ((sinksOf pids items).toDir euid) n).dir (sinkName p.toInt))
      (handedFrom (sinkName p.toInt) (after calls ((sinksOf pids items).toDir euid) n).handed) := by
  refine after_sink hcalls (ours_toDir euid _) (Drains (items p)) ?_ (sinkName p.toInt) ?_ n
  · intro budget content handed hb h
    exact ((hok p hp).step hb h).1
  · rw [contents_toDir, sinksOf_pid hp]
    refine ⟨0, rfl, .inr ?_⟩
    rw [List.drop_zero, ite_self]

/-- What has been handed over of a sink is the beginning of what its process wrote. -/
theorem handedFrom_begins {p : Pid} (hp : p ∈ pids) (n : Nat) :
    handedFrom (sinkName p.toInt) (after calls ((sinksOf pids items).toDir euid) n).handed <+:
      written items p := by
  obtain ⟨k, hhanded, -⟩ := after_drains hcalls hok hp n
  rw [hhanded, written, List.map_take]
  exact List.take_prefix _ _

/-- Some call finds nothing. -/
theorem exists_idle :
    ∃ n, ((calls n).run (after calls ((sinksOf pids items).toDir euid) n).dir).visits = [] := by
  -- Only the sinks of the given pids can ever hand over a record, so their records bound all calls.
  have hnames : ∀ name, contents ((sinksOf pids items).toDir euid) name ≠ none →
      name ∈ (pids.map fun p => sinkName p.toInt).toFinset := by
    intro name hname
    rw [contents_toDir] at hname
    obtain ⟨p, hp, rfl⟩ := exists_of_sinksOf hname
    exact List.mem_toFinset.mpr (List.mem_map.mpr ⟨p, hp, rfl⟩)
  obtain ⟨n, -, hn⟩ := exists_idle_call calls ((sinksOf pids items).toDir euid) fun n => by
    refine after_length_le hcalls (ours_toDir euid _) hnames (fun name =>
      (pids.find? fun p => sinkName p.toInt = name).elim 0 fun p => (written items p).length) n ?_
    intro name
    cases hfind : pids.find? fun p => sinkName p.toInt = name with
    | none =>
      have hnone : contents ((sinksOf pids items).toDir euid) name = none := by
        rw [contents_toDir, sinksOf, hfind, Option.map_none]
      rw [(after_none hcalls (ours_toDir euid _) hnone n).2]
      exact Nat.zero_le _
    | some p =>
      have hname : sinkName p.toInt = name := by simpa using List.find?_some hfind
      rw [← hname]
      exact (handedFrom_begins hcalls hok (List.mem_of_find?_eq_some hfind) n).length_le
  exact ⟨n, hn⟩

/-- When a call finds nothing, every record has been handed over. -/
theorem handedFrom_of_idle {n : Nat}
    (hidle : ((calls n).run (after calls ((sinksOf pids items).toDir euid) n).dir).visits = [])
    (hmax : 1 ≤ (calls n).max)
    (hlists : (calls n).Lists (after calls ((sinksOf pids items).toDir euid) n).dir) {p : Pid}
    (hp : p ∈ pids) :
    handedFrom (sinkName p.toInt) (after calls ((sinksOf pids items).toDir euid) n).handed =
      written items p := by
  have hours := after_ours hcalls (ours_toDir euid (sinksOf pids items)) n
  rw [(DrainCall.run_eq (hcalls n) hours).1] at hidle
  have hdrains := after_drains hcalls hok hp n
  cases hnow : contents (after calls ((sinksOf pids items).toDir euid) n).dir (sinkName p.toInt) with
  | none =>
    -- The file is gone: its last own record was handed over before it was deleted.
    rw [hnow] at hdrains
    obtain ⟨k, hhanded, ⟨-, hall⟩ | hcontent⟩ := hdrains
    · rw [hhanded, List.take_of_length_le hall, written]
    · cases hcontent
  | some content =>
    rw [hnow] at hdrains
    -- The file is listed and its share of an idle call is empty, so it holds no own record.
    have hlisted := hlists (sinkName p.toInt) (by rw [hnow]; exact Option.some_ne_none _)
    have hnone := drainAll_visits_nil hmax hidle hlisted hnow
    exact (Deliverable.step (hok p hp) hmax hdrains).2 hnone

/-- **Sinks of one kind are delivered exactly once.** -/
theorem deliversOnce_of_deliverable (hmax : ∀ i, 1 ≤ (calls i).max)
    (hlists : ∀ i, (calls i).Lists (after calls ((sinksOf pids items).toDir euid) i).dir) :
    ∃ last, ∀ n, last ≤ n →
      ((calls n).run (after calls ((sinksOf pids items).toDir euid) n).dir).visits = [] ∧
        ∀ p ∈ pids, handedFrom (sinkName p.toInt)
          (after calls ((sinksOf pids items).toDir euid) n).handed = written items p := by
  obtain ⟨idle, hidle⟩ := exists_idle hcalls hok
  have hall : ∀ n, idle ≤ n → ∀ p ∈ pids, handedFrom (sinkName p.toInt)
      (after calls ((sinksOf pids items).toDir euid) n).handed = written items p := by
    intro n hn p hp
    -- All was handed over at the idle call, and a later call can only add to that. As nothing comes
    -- twice, it adds nothing.
    have hbefore := handedFrom_of_idle hcalls hok hidle (hmax idle) (hlists idle) hp
    obtain ⟨more, hmore⟩ := after_handed_prefix calls ((sinksOf pids items).toDir euid) hn
    have hafter := handedFrom_begins hcalls hok hp n
    rw [← hmore, handedFrom_append, hbefore] at hafter ⊢
    obtain ⟨others, hothers⟩ := hafter
    rw [List.append_assoc, List.append_right_eq_self, List.append_eq_nil_iff] at hothers
    rw [hothers.1, List.append_nil]
  refine ⟨idle, fun n hn => ⟨?_, hall n hn⟩⟩
  by_contra hsome
  obtain ⟨v, hv⟩ := List.exists_mem_of_ne_nil _ hsome
  -- A record handed over now comes from a sink of which everything has been handed over.
  have hthere : contents ((sinksOf pids items).toDir euid) v.1 ≠ none := by
    intro hnone
    have hempty := (after_none hcalls (ours_toDir euid _) hnone (n + 1)).2
    exact handedFrom_eq_nil.mp hempty (v.1, v.2.record)
      (List.mem_append_right _ (List.mem_map_of_mem hv)) rfl
  rw [contents_toDir] at hthere
  obtain ⟨p, hp, hname⟩ := exists_of_sinksOf hthere
  have hnext := hall (n + 1) (by omega) p hp
  rw [after, History.next, handedFrom_append, hall n hn p hp, List.append_right_eq_self] at hnext
  exact handedFrom_eq_nil.mp hnext (v.1, v.2.record) (List.mem_map_of_mem hv) hname.symm

end

/-! ## Sinks that are not

Calls that drain one sink first, one record at a time up to a point and with a larger budget from
then on. -/

section
variable (d : CrashDir) (self p : Pid) (pids : List Pid)

/-- The listing with `p` in front. -/
def pidsFrom : List Pid := p :: pids.filter fun q => q ≠ p

/-- `k` calls with budget 1, then calls with budget `m`. -/
def callsFrom (k m : Nat) (i : Nat) : DrainCall :=
  callOver d self (if i < k then 1 else m) (pidsFrom p pids)

theorem callsFrom_reliable (k m i : Nat) : (callsFrom d self p pids k m i).Reliable d.uid :=
  callOver_reliable d self _ _

variable {d self p pids}

/-- The drained sink comes first, the others behind it. -/
theorem callsFrom_targets (hself : self ∉ pids) (hp : p ∈ pids) (k m i : Nat) :
    (callsFrom d self p pids k m i).targets =
      sinkName p.toInt :: (pids.filter fun q => q ≠ p).map fun q => sinkName q.toInt := by
  rw [callsFrom, callOver_targets, pidsFrom, List.map_cons]
  rw [pidsFrom, List.mem_cons, not_or]
  refine ⟨fun h => hself (h ▸ hp), fun h => hself (List.mem_of_mem_filter h)⟩

/-- The sink drained first is not drained a second time in the same call. -/
theorem sinkName_not_mem_others :
    sinkName p.toInt ∉ (pids.filter fun q => q ≠ p).map fun q => sinkName q.toInt := by
  intro h
  obtain ⟨q, hq, hname⟩ := List.mem_map.mp h
  exact of_decide_eq_true (List.mem_filter.mp hq).2 (sinkName_injective hname)

/-- These calls list every sink there is at the time. -/
theorem callsFrom_lists (hself : self ∉ pids) (hp : p ∈ pids) (items : Pid → List Item)
    (k m i : Nat) : (callsFrom d self p pids k m i).Lists
      (after (callsFrom d self p pids k m) ((sinksOf pids items).toDir d.uid) i).dir := by
  intro name hname
  -- A sink that is there now was there at the start, for a drain makes no file.
  have hthere : sinksOf pids items name ≠ none := by
    intro hnone
    rw [← contents_toDir d.uid (sinksOf pids items)] at hnone
    exact hname (after_none (callsFrom_reliable d self p pids k m) (ours_toDir d.uid _) hnone i).1
  obtain ⟨q, hq, rfl⟩ := exists_of_sinksOf hthere
  rw [callsFrom_targets hself hp]
  by_cases hqp : q = p
  · rw [hqp]
    exact List.mem_cons_self
  · refine List.mem_cons_of_mem _ (List.mem_map.mpr ⟨q, ?_, rfl⟩)
    exact List.mem_filter.mpr ⟨hq, decide_eq_true hqp⟩

/-- One of these calls is one step on the sink of `p`. -/
theorem callsFrom_step (hself : self ∉ pids) (hp : p ∈ pids) {k m i : Nat} (hm : 1 ≤ m) {dir : Dir}
    (hours : Ours d.uid dir) {content : Bytes}
    (hcontent : contents (after (callsFrom d self p pids k m) dir i).dir (sinkName p.toInt) =
      some content) :
    let o := sinkStep (if i < k then 1 else m) content
    contents (after (callsFrom d self p pids k m) dir (i + 1)).dir (sinkName p.toInt) = o.rest ∧
      handedFrom (sinkName p.toInt) (after (callsFrom d self p pids k m) dir (i + 1)).handed =
        handedFrom (sinkName p.toInt) (after (callsFrom d self p pids k m) dir i).handed ++
          records o.visits := by
  have hnow := after_ours (callsFrom_reliable d self p pids k m) hours i
  have hmax : 1 ≤ (callsFrom d self p pids k m i).max := by
    show 1 ≤ if i < k then 1 else m
    split <;> omega
  -- The sink is listed first and only once, so the whole budget is for it.
  obtain ⟨hhanded, hrest⟩ := DrainCall.run_first (callsFrom_reliable d self p pids k m i)
    (callsFrom_targets hself hp k m i) sinkName_not_mem_others hcontent hmax
  rw [← hnow] at hhanded hrest
  refine ⟨hrest, ?_⟩
  rw [after, History.next, handedFrom_append, DrainResult.handedFrom_eq, DrainResult.handedFrom,
    hhanded]
  rfl

variable {items : Pid → List Item} {rs : List OwnRecord} {others : List Item}

/-- One record at a time, the records in front of the sink are handed over. -/
theorem after_callsFrom (hself : self ∉ pids) (hp : p ∈ pids)
    (hitems : items p = rs.map .own ++ others) (hne : others ≠ []) {m : Nat} (hm : 1 ≤ m) {i : Nat}
    (hi : i ≤ rs.length) :
    let h := after (callsFrom d self p pids rs.length m) ((sinksOf pids items).toDir d.uid) i
    contents h.dir (sinkName p.toInt) = some (encode ((rs.drop i).map .own ++ others)) ∧
      (handedFrom (sinkName p.toInt) h.handed).length = i := by
  -- By induction on the calls: each of the first ones hands over one record, and the file stays,
  -- because `others` is not empty.
  induction i with
  | zero =>
    refine ⟨?_, rfl⟩
    show contents ((sinksOf pids items).toDir d.uid) (sinkName p.toInt) = _
    rw [contents_toDir, sinksOf_pid hp, hitems, List.drop_zero]
  | succ i ih =>
    obtain ⟨hcontent, hlen⟩ := ih (by omega)
    -- The file now holds the records from the `i`-th on, and the call's budget is one record.
    obtain ⟨hrest, hhanded⟩ := callsFrom_step hself hp hm (ours_toDir d.uid _) hcontent
    have hcons : (rs.drop i).map Item.own ++ others =
        .own rs[i] :: ((rs.drop (i + 1)).map .own ++ others) := by
      rw [List.drop_eq_getElem_cons hi]
      rfl
    have hmore : (rs.drop (i + 1)).map Item.own ++ others ≠ [] :=
      List.append_ne_nil_of_right_ne_nil _ hne
    obtain ⟨hvisits, hleft⟩ := sinkStep_one rs[i] hmore
    rw [if_pos (by omega), hcons] at hrest hhanded
    rw [hleft] at hrest
    rw [hvisits] at hhanded
    refine ⟨hrest, ?_⟩
    rw [hhanded, List.length_append, hlen]
    rfl

/-- From then on the sink is stuck, and every call hands the same records over. -/
theorem after_callsFrom_stuck (hself : self ∉ pids) (hp : p ∈ pids)
    (hitems : items p = rs.map .own ++ others) (hne : others ≠ []) {m : Nat} (hm : 1 ≤ m)
    (hskip : (scan (sinkInput (readBuffer (encode others))) m 0).skipped = true) (j : Nat) :
    let h := after (callsFrom d self p pids rs.length m) ((sinksOf pids items).toDir d.uid)
      (rs.length + j)
    contents h.dir (sinkName p.toInt) = some (encode others) ∧
      (handedFrom (sinkName p.toInt) h.handed).length =
        rs.length + j * (sinkStep m (encode others)).visits.length := by
  -- By induction on the calls behind the first ones: the drain steps over something, so the file is
  -- left as it is and hands over the same records again.
  induction j with
  | zero =>
    obtain ⟨hcontent, hlen⟩ := after_callsFrom hself hp hitems hne hm le_rfl
    rw [List.drop_length, List.map_nil, List.nil_append] at hcontent
    refine ⟨hcontent, ?_⟩
    rw [Nat.zero_mul]
    exact hlen
  | succ j ih =>
    obtain ⟨hcontent, hlen⟩ := ih
    obtain ⟨hrest, hhanded⟩ := callsFrom_step hself hp hm (ours_toDir d.uid _) hcontent
    rw [if_neg (by omega)] at hrest hhanded
    refine ⟨hrest.trans (sinkStep_stuck hskip), ?_⟩
    rw [← Nat.add_assoc, hhanded, List.length_append, hlen, records, List.length_map, Nat.succ_mul,
      Nat.add_assoc]

/-- With the records in front handed over one at a time, some budget makes a drain of the sink step
over a record of another version, and there is something it can hand over or still has to. -/
def Sticks (items : List Item) : Prop :=
  ∃ (rs : List OwnRecord) (others : List Item) (m : Nat),
    items = rs.map .own ++ others ∧ others ≠ [] ∧ 1 ≤ m ∧
      (scan (sinkInput (readBuffer (encode others))) m 0).skipped = true ∧
      ((sinkStep m (encode others)).visits ≠ [] ∨ rs.length < (owns items).length)

/-- **A sink that sticks breaks the promise**: what it hands over then it hands over again and again,
and what it does not it never does. -/
theorem not_deliversOnce (hself : self ∉ pids) (hp : p ∈ pids) (hsticks : Sticks (items p)) :
    -- The calls drain one record at a time until the sink sticks, and then leave the file forever.
    ¬DeliversOnce d.uid pids items := by
  obtain ⟨rs, others, m, hitems, hne, hm, hskip, hmore⟩ := hsticks
  intro hpromise
  have hmax : ∀ i, 1 ≤ (callsFrom d self p pids rs.length m i).max := by
    intro i
    show 1 ≤ if i < rs.length then 1 else m
    split <;> omega
  obtain ⟨honce, last, hall⟩ := hpromise (callsFrom d self p pids rs.length m)
    (callsFrom_reliable d self p pids rs.length m) hmax (callsFrom_lists hself hp items rs.length m)
  have hstuck := after_callsFrom_stuck (d := d) hself hp hitems hne hm hskip
  by_cases hvisits : (sinkStep m (encode others)).visits = []
  -- Nothing more comes, but records of this version are still in the file.
  · have hlen := (hstuck last).2
    have hperm := ((hall (rs.length + last) (by omega)).2 p hp).length_eq
    rw [hvisits, List.length_nil, Nat.mul_zero] at hlen
    rw [written, List.length_map] at hperm
    have := hmore.resolve_left (not_not.mpr hvisits)
    omega
  -- One call for each record and one more, and something has been handed over twice.
  · have hlen := (hstuck ((owns (items p)).length + 1)).2
    have hsub := (honce (rs.length + ((owns (items p)).length + 1)) p hp).length_le
    rw [written, List.length_map] at hsub
    have hmul := Nat.le_mul_of_pos_right ((owns (items p)).length + 1)
      (List.length_pos_of_ne_nil hvisits)
    omega

end

/-! ## Exactly when -/

/-- The first record of another version. -/
theorem exists_first_foreign {items : List Item} (h : foreigns items ≠ []) :
    ∃ (rs : List OwnRecord) (f : ForeignRecord) (others : List Item),
      items = rs.map .own ++ .foreign f :: others := by
  induction items with
  | nil => exact absurd rfl h
  | cons item items ih =>
    cases item with
    | own r =>
      obtain ⟨rs, f, others, rfl⟩ := ih h
      exact ⟨r :: rs, f, others, rfl⟩
    | foreign f => exact ⟨[], f, items, rfl⟩

/-- A sink with records of this version and of others sticks, at the latest on the last record of
this version before the first of another. -/
theorem sticks_of_mixed {items : List Item} (hforeign : foreigns items ≠ [])
    (howns : owns items ≠ []) : Sticks items := by
  -- The drain sticks at the first foreign record: with no own record in front of it at once,
  -- otherwise when that foreign record and the own one in front of it are read together.
  obtain ⟨rs, f, others, rfl⟩ := exists_first_foreign hforeign
  rcases List.eq_nil_or_concat rs with rfl | ⟨front, r, rfl⟩
  · refine ⟨[], .foreign f :: others, 1, rfl, by simp, le_rfl, ?_,
      .inr (List.length_pos_of_ne_nil howns)⟩
    have hfit : (encode [.foreign f]).length ≤ crashDrainMaxBytes := by
      rw [encode_cons, encode_nil, List.append_nil]
      exact Item.length_le (.foreign f)
    exact skipped_of_scanItems hfit rfl
  · refine ⟨front, .own r :: .foreign f :: others, 2, by simp, by simp, by omega, ?_,
      .inr (by simp)⟩
    have hfit : (encode [.own r, .foreign f]).length ≤ crashDrainMaxBytes := by
      have hforeign := Item.length_lt (.foreign f)
      rw [encode_cons, encode_cons, encode_nil, List.append_nil, List.length_append, Item.bytes,
        r.length_eq]
      simp only [recordSize, crashDrainMaxBytes]
      omega
    exact skipped_of_scanItems hfit rfl

/-- So does a long sink of this version, once the read ends in a record in which something passes for
a record of another version. -/
theorem sticks_of_loud_own {items : List Item} (hforeign : foreigns items = []) {r : OwnRecord}
    (hr : r ∈ (owns items).drop readRecords) (hloud : ¬NoForeign (r.bytes.take cutBytes)) :
    Sticks items := by
  obtain ⟨front, more, hsplit⟩ := List.append_of_mem hr
  have hdrop : ((owns items).drop front.length).drop readRecords = r :: more := by
    rw [List.drop_drop, Nat.add_comm, ← List.drop_drop, hsplit, List.drop_left]
  have hlen := congrArg List.length hdrop
  rw [List.length_drop, List.length_drop, List.length_cons] at hlen
  -- One record a call up to `front`. From there the read ends within the loud record, and its cut
  -- tail is taken for a foreign one.
  refine ⟨(owns items).take front.length, ((owns items).drop front.length).map .own,
    readRecords + 1, ?_, ?_, by omega, ?_, .inr ?_⟩
  · rw [← List.map_append, List.take_append_drop]
    exact eq_map_own hforeign
  · intro hnil
    rw [List.map_eq_nil_iff] at hnil
    rw [hnil] at hdrop
    cases hdrop
  · exact (scan_readBuffer_own hdrop (readRecords + 1)).2.2.2 hloud (by omega)
  · rw [List.length_take]
    omega

/-- And a long sink of other versions, when the read ends in a record in which the walk finds one of
this version. -/
theorem sticks_of_loud_foreign {items : List Item} (howns : owns items = []) (hne : items ≠ [])
    (hloud : ¬Scan.QuietBetween (sinkInput (cutTail items crashDrainMaxBytes)) 0 []) :
    Sticks items :=
  ⟨[], items, 1, rfl, hne, le_rfl, (scan_readBuffer_foreign howns Nat.one_pos).2 hne,
    .inl (sinkStep_foreign_loud howns hloud Nat.one_pos)⟩

/-- A sink that cannot be drained exactly once sticks: it mixes versions, or a read can cut one of
its records so that the tail looks foreign. -/
theorem sticks_of_not_deliverable {items : List Item} (h : ¬Deliverable items) : Sticks items := by
  obtain ⟨hown, hother⟩ := not_or.mp h
  by_cases hforeign : foreigns items = []
  · have hsome : ¬∀ r ∈ (owns items).drop readRecords, NoForeign (r.bytes.take cutBytes) :=
      fun hquiet => hown ⟨hforeign, hquiet⟩
    push Not at hsome
    obtain ⟨r, hr, hloud⟩ := hsome
    exact sticks_of_loud_own hforeign hr hloud
  · by_cases howns : owns items = []
    · have hne : items ≠ [] := fun h => hforeign (by rw [h]; rfl)
      exact sticks_of_loud_foreign howns hne fun h => hother ⟨howns, h⟩
    · exact sticks_of_mixed hforeign howns

/-- **Exactly-once delivery holds of deliverable sinks, and of no others.** -/
theorem deliversOnce_iff (d : CrashDir) {self : Pid} {pids : List Pid} (hself : self ∉ pids)
    (items : Pid → List Item) :
    DeliversOnce d.uid pids items ↔ ∀ p ∈ pids, Deliverable (items p) := by
  constructor
  -- A sink that is not deliverable sticks, and one sequence of calls then breaks the promise.
  · intro hpromise p hp
    by_contra hbad
    exact not_deliversOnce hself hp (sticks_of_not_deliverable hbad) hpromise
  · intro hok calls hcalls hmax h hlists
    refine ⟨fun n p hp => (handedFrom_begins hcalls hok hp n).sublist.subperm, ?_⟩
    obtain ⟨last, hlast⟩ := deliversOnce_of_deliverable hcalls hok hmax hlists
    refine ⟨last, fun n hn => ⟨?_, fun p hp => .of_eq ((hlast n hn).2 p hp)⟩⟩
    have hours := after_ours hcalls (ours_toDir d.uid (sinksOf pids items)) n
    rw [DrainCall.returned_eq (hcalls n) hours (hmax n), (hlast n hn).1]
    rfl

/-- Another process that is gone. -/
def goneToo : Pid := ⟨6, by decide, by decide⟩

/-- Three records of this version, and a record of the version before in another sink. -/
def threeAndOld (p : Pid) : List Item :=
  if p = gone then [.own blankRecord, .own blankRecord, .own blankRecord] else [.foreign oldRecord]

/-- The promise is kept of these sinks. With a budget of two the first call splits the first of them. -/
theorem deliversOnce_iff_split :
    DeliversOnce tmpDir.uid [gone, goneToo] threeAndOld ∧
    let h := after (fun _ => callOver tmpDir drainer 2 [gone, goneToo])
      ((sinksOf [gone, goneToo] threeAndOld).toDir tmpDir.uid) 1
    handedFrom (sinkName gone.toInt) h.handed = [blankRecord.bytes, blankRecord.bytes] ∧
      contents h.dir (sinkName gone.toInt) = some blankRecord.bytes := by
  have hnew : drainer ∉ [gone, goneToo] := by decide
  constructor
  -- The first sink has three own records, which fit into one read; the other holds one old record.
  · refine (deliversOnce_iff tmpDir hnew threeAndOld).mpr fun p hp => ?_
    rcases List.mem_cons.mp hp with rfl | hp
    · exact .inl ⟨rfl, nofun⟩
    · obtain rfl := List.mem_singleton.mp hp
      refine .inr ⟨rfl, ?_⟩
      -- The old record is read whole, and nothing is behind it.
      have hcut : cutTail (threeAndOld goneToo) crashDrainMaxBytes = [] := by decide
      rw [hcut]
      rintro o' - ⟨hroom, -⟩
      simp only [sinkInput_header, sinkInput_size, headerProbeSize, List.length_nil] at hroom
      omega
  -- One call with the budget two takes two of the three and leaves the last in the file.
  · have hlength := blankRecord.length_eq
    obtain ⟨hhanded, hleft⟩ := after_first (fun _ => callOver tmpDir drainer 2 [gone, goneToo])
      (callOver_reliable tmpDir drainer 2 [gone, goneToo]) (callOver_targets tmpDir 2 hnew) (by decide)
      (c := sinksOf [gone, goneToo] threeAndOld) rfl (by decide)
    obtain ⟨hrecords, hrest⟩ := @sinkStep_encode [.own blankRecord, .own blankRecord, .own blankRecord]
      (by simp only [encode_cons, encode_nil, Item.bytes, List.length_append, hlength]; decide) 2
    exact ⟨hhanded.trans hrecords, (hleft.trans hrest).trans (congrArg some (List.append_nil _))⟩

/-- A record of this version next to one of the version before is handed over again and again. -/
theorem not_deliversOnce_mixed :
    ¬DeliversOnce tmpDir.uid [gone] (fun _ => [.own blankRecord, .foreign oldRecord]) :=
  not_deliversOnce (by decide : drainer ∉ [gone]) List.mem_cons_self
    (sticks_of_mixed (List.cons_ne_nil _ _) (List.cons_ne_nil _ _))

end CboxTelemetry.Crash
