import CboxTelemetry.Crash.Drain
import Mathlib.Algebra.BigOperators.Group.Finset.Piecewise
import Mathlib.Algebra.Order.BigOperators.Group.Finset

/-!
# Sequences of drain calls

One call of `cbox_crash_drain` is a `DrainCall`: the answers of the system during it, the budget and
the listing. `after calls dir n` is the directory after the first `n` calls together with everything
they handed over, so a property of repeated drains is a property of `after calls dir n` for all `n`.

What every step on one sink preserves, a call preserves of that sink (`History.next_sink`): a call
steps a sink any number of times, with any part of the budget.
-/

namespace CboxTelemetry.Crash

/-- `cbox_drain_visit` keeps every record and never asks the drain to stop. -/
def drainVisit (_record : Bytes) : Bool := true

theorem drainVisit_eq (record : Bytes) : drainVisit record = true := rfl

/-- The records of these visitor calls. -/
def records (visits : List Visit) : List Bytes := visits.map Visit.record

@[simp] theorem records_nil : records [] = [] := rfl

/-! ## One call -/

/-- One call of `cbox_crash_drain`. -/
structure DrainCall where
  env : DrainEnv
  max : Nat
  entries : List DirEntry

def DrainCall.run (call : DrainCall) (dir : Dir) : DrainResult :=
  crashDrain call.env drainVisit call.max call.entries dir

/-- The sinks the listing leads to, in its order. -/
def DrainCall.targets (call : DrainCall) : List Name :=
  match call.env.owned with
  | none => []
  | some owned => call.entries.filterMap (drainTarget call.env owned)

/-- No system call fails, and `euid` is the effective user of the process. -/
structure DrainCall.Reliable (euid : Nat) (call : DrainCall) : Prop where
  euid : call.env.euid = euid
  owned : call.env.owned.isSome
  opendir : call.env.opendir = .ok
  entries : ∀ e ∈ call.entries, e.Reliable

/-- The contents of the files of a directory. -/
def contents (dir : Dir) : Sinks := fun name => (dir name).map SinkFile.content

/-- What a directory of given sinks holds is these sinks. -/
@[simp] theorem contents_toDir (euid : Nat) (c : Sinks) : contents (c.toDir euid) = c := by
  funext name
  rw [contents, Sinks.toDir, Option.map_map]
  exact Option.map_id' (x := c name)

/-- Every file is a plain file of the user's. -/
def Ours (euid : Nat) (dir : Dir) : Prop := dir = (contents dir).toDir euid

theorem ours_toDir (euid : Nat) (c : Sinks) : Ours euid (c.toDir euid) := by
  rw [Ours, contents_toDir]

variable {euid : Nat} {call : DrainCall} {dir : Dir}

/-- A call is a walk over the sinks its listing leads to. -/
theorem DrainCall.run_eq (hcall : call.Reliable euid) (hours : Ours euid dir) :
    (call.run dir).visits = (drainAll call.max call.targets (contents dir)).visits ∧
      (call.run dir).dir = (drainAll call.max call.targets (contents dir)).files.toDir euid := by
  obtain ⟨owned, howned⟩ := Option.isSome_iff_exists.mp hcall.owned
  rcases Nat.eq_zero_or_pos call.max with hzero | hmax
  · rw [DrainCall.run, crashDrain, if_pos hzero, hzero, drainAll_zero]
    exact ⟨rfl, hours⟩
  · have hrun := crashDrain_eq drainVisit_eq howned hcall.opendir hmax
      hcall.entries (contents dir)
    rw [hcall.euid, ← hours] at hrun
    rw [DrainCall.run, hrun, DrainCall.targets, howned]
    exact ⟨rfl, rfl⟩

/-- A call with a positive budget returns the number of records it handed over. -/
theorem DrainCall.returned_eq (hcall : call.Reliable euid) (hours : Ours euid dir)
    (hmax : 1 ≤ call.max) : (call.run dir).returned = (call.run dir).visits.length := by
  obtain ⟨owned, howned⟩ := Option.isSome_iff_exists.mp hcall.owned
  have hrun := crashDrain_eq drainVisit_eq howned hcall.opendir hmax
    hcall.entries (contents dir)
  rw [hcall.euid, ← hours] at hrun
  rw [DrainCall.run, hrun]

/-- The default directory, for one user. -/
def tmpDir : CrashDir := ⟨"/tmp/cbox-telemetry".toList, 1000, by decide, by decide⟩

/-- A process that drains, and one that is gone. -/
def drainer : Pid := ⟨1, by decide, by decide⟩
def gone : Pid := ⟨7, by decide, by decide⟩

/-- The entry of a process that is gone, in a call in which nothing fails. -/
def deadEntry (p : Pid) : DirEntry := ⟨sinkName p.toInt, fun _ => .esrch, .ok, true, .ok⟩

/-- A call in which nothing fails, whose listing is the sinks of these dead processes. -/
def callOver (d : CrashDir) (self : Pid) (max : Nat) (pids : List Pid) : DrainCall where
  env := ⟨self.toInt, d.uid, some d.owned, .ok⟩
  max := max
  entries := pids.map deadEntry

/-- A call over such a listing meets no failure. -/
theorem callOver_reliable (d : CrashDir) (self : Pid) (max : Nat) (pids : List Pid) :
    (callOver d self max pids).Reliable d.uid where
  euid := rfl
  owned := rfl
  opendir := rfl
  entries e he := by
    obtain ⟨p, -, rfl⟩ := List.mem_map.mp he
    exact ⟨rfl, rfl, rfl⟩

/-- Its targets are the sinks of the listed processes, as the draining process is none of them. -/
theorem callOver_targets (d : CrashDir) {self : Pid} (max : Nat) {pids : List Pid}
    (hself : self ∉ pids) :
    (callOver d self max pids).targets = pids.map fun p => sinkName p.toInt := by
  rw [DrainCall.targets, callOver]
  dsimp only
  rw [List.filterMap_map, ← List.filterMap_eq_map]
  refine List.filterMap_congr fun p hp => ?_
  refine drainTarget_dead (p := p) rfl ?_ rfl
  intro h
  obtain rfl : p = self := by cases p; cases self; cases h; rfl
  exact hself hp

/-! ## Many calls -/

/-- The directory, and every record handed over so far with the name of its sink. -/
structure History where
  dir : Dir
  handed : List (Name × Bytes)

def History.next (h : History) (call : DrainCall) : History :=
  { dir := (call.run h.dir).dir
    handed := h.handed ++ (call.run h.dir).visits.map fun v => (v.1, v.2.record) }

/-- After the first `n` calls. -/
def after (calls : Nat → DrainCall) (dir : Dir) : Nat → History
  | 0 => ⟨dir, []⟩
  | n + 1 => (after calls dir n).next (calls n)

/-- The records handed over from the sink `name`, in order. -/
def handedFrom (name : Name) (handed : List (Name × Bytes)) : List Bytes :=
  (handed.filter fun v => v.1 = name).map Prod.snd

theorem handedFrom_append (name : Name) (a b : List (Name × Bytes)) :
    handedFrom name (a ++ b) = handedFrom name a ++ handedFrom name b := by
  rw [handedFrom, List.filter_append, List.map_append]; rfl

theorem handedFrom_eq_nil {name : Name} {handed : List (Name × Bytes)} :
    handedFrom name handed = [] ↔ ∀ v ∈ handed, v.1 ≠ name := by
  simp [handedFrom]

/-- The visits of one sink come from that sink alone. -/
theorem handedFrom_visits (name n : Name) (visits : List Visit) :
    handedFrom name ((visits.map (n, ·)).map fun v => (v.1, v.2.record)) =
      if n = name then records visits else [] := by
  split
  next h => subst h; simp [handedFrom, records, List.filter_map, Function.comp_def]
  next h => simp [handedFrom_eq_nil, h]

/-- **One call, one sink.** What every step on a sink preserves of its contents and of the records
handed over from it, a call preserves. -/
theorem History.next_sink (inv : Option Bytes → List Bytes → Prop)
    (hstep : ∀ budget content handed, 0 < budget → inv (some content) handed →
      inv (sinkStep budget content).rest (handed ++ records (sinkStep budget content).visits))
    {h : History} (hcall : call.Reliable euid) (hours : Ours euid h.dir) (name : Name)
    (hinv : inv (contents h.dir name) (handedFrom name h.handed)) :
    inv (contents (h.next call).dir name) (handedFrom name (h.next call).handed) := by
  obtain ⟨hvisits, hdir⟩ := DrainCall.run_eq hcall hours
  -- What is to hold of every sink while the call goes over the listing, with what it handed over so far.
  let all (c : Sinks) (visits : List (Name × Visit)) : Prop :=
    inv (c name) (handedFrom name (h.handed ++ visits.map fun v => (v.1, v.2.record)))
  have hall : all (drainAll call.max call.targets (contents h.dir)).files
      ([] ++ (drainAll call.max call.targets (contents h.dir)).visits) := by
    -- The loop over the listing takes one step for each sink it drains.
    refine drainAll_invariant all ?_ call.max call.targets (contents h.dir) [] ?_
    · intro budget n content c visits hb hc hinv
      simp only [all, List.map_append, ← List.append_assoc] at hinv ⊢
      rw [handedFrom_append, handedFrom_visits]
      by_cases hn : n = name
      · subst hn
        rw [hc] at hinv
        rw [if_pos rfl, Function.update_self]
        exact hstep budget content _ hb hinv
      · rw [if_neg hn, List.append_nil, Function.update_of_ne (Ne.symm hn)]
        exact hinv
    · simpa [all] using hinv
  rw [History.next, hdir, contents_toDir, hvisits]
  simpa [all] using hall

/-- A call leaves only files of the draining user behind. -/
theorem History.next_ours {h : History} (hcall : call.Reliable euid) (hours : Ours euid h.dir) :
    Ours euid (h.next call).dir := by
  rw [History.next, (DrainCall.run_eq hcall hours).2]
  exact ours_toDir euid _

section
variable {calls : Nat → DrainCall} (hcalls : ∀ i, (calls i).Reliable euid) (hours : Ours euid dir)
include hcalls hours

/-- So does every sequence of calls. -/
theorem after_ours (n : Nat) : Ours euid (after calls dir n).dir := by
  induction n with
  | zero => exact hours
  | succ n ih => exact History.next_ours (hcalls n) ih

/-- What every step on a sink preserves holds of it after any number of calls. -/
theorem after_sink (inv : Option Bytes → List Bytes → Prop)
    (hstep : ∀ budget content handed, 0 < budget → inv (some content) handed →
      inv (sinkStep budget content).rest (handed ++ records (sinkStep budget content).visits))
    (name : Name) (hinit : inv (contents dir name) []) (n : Nat) :
    inv (contents (after calls dir n).dir name) (handedFrom name (after calls dir n).handed) := by
  induction n with
  | zero => exact hinit
  | succ n ih => exact History.next_sink inv hstep (hcalls n) (after_ours hcalls hours n) name ih

/-- A name without a sink never gets one, and nothing is handed over from it. -/
theorem after_none {name : Name} (hname : contents dir name = none) (n : Nat) :
    contents (after calls dir n).dir name = none ∧
      handedFrom name (after calls dir n).handed = [] :=
  after_sink hcalls hours (fun content handed => content = none ∧ handed = [])
    (fun _ _ _ _ h => nomatch h.1) name ⟨hname, rfl⟩ n

end

/-- The listing shows every sink there is, and its owner is gone. -/
def DrainCall.Lists (call : DrainCall) (dir : Dir) : Prop :=
  ∀ name, contents dir name ≠ none → name ∈ call.targets

/-- A later call only adds to what has been handed over. -/
theorem after_handed_prefix (calls : Nat → DrainCall) (dir : Dir) {m n : Nat} (h : m ≤ n) :
    (after calls dir m).handed <+: (after calls dir n).handed := by
  induction n, h using Nat.le_induction with
  | base => exact List.prefix_rfl
  | succ n _ ih =>
    rw [after, History.next]
    exact ih.trans (List.prefix_append _ _)

/-! ## Some call hands nothing over -/

/-- Counting what was handed over sink by sink. -/
theorem length_eq_sum_handedFrom {handed : List (Name × Bytes)} {names : Finset Name}
    (h : ∀ v ∈ handed, v.1 ∈ names) :
    handed.length = ∑ name ∈ names, (handedFrom name handed).length := by
  induction handed with
  | nil => simp [handedFrom]
  | cons v handed ih =>
    have hv : v.1 ∈ names := h v List.mem_cons_self
    -- The first record counts for the sink that handed it over, and for no other.
    have hcons : ∀ name, (handedFrom name (v :: handed)).length =
        (if v.1 = name then 1 else 0) + (handedFrom name handed).length := by
      intro name
      have hsplit := handedFrom_append name [v] handed
      rw [List.singleton_append] at hsplit
      rw [hsplit, List.length_append]
      congr 1
      by_cases hn : v.1 = name <;> simp [handedFrom, hn]
    simp only [hcons, Finset.sum_add_distrib, Finset.sum_ite_eq, if_pos hv,
      ← ih fun w hw => h w (List.mem_cons_of_mem _ hw), List.length_cons]
    omega

/-- A bound for every sink bounds everything that was handed over. -/
theorem after_length_le {calls : Nat → DrainCall} (hcalls : ∀ i, (calls i).Reliable euid)
    (hours : Ours euid dir) {names : Finset Name}
    (hnames : ∀ name, contents dir name ≠ none → name ∈ names) (bound : Name → Nat) (n : Nat)
    (hbound : ∀ name, (handedFrom name (after calls dir n).handed).length ≤ bound name) :
    (after calls dir n).handed.length ≤ ∑ name ∈ names, bound name := by
  have hmem : ∀ v ∈ (after calls dir n).handed, v.1 ∈ names := by
    intro v hv
    refine hnames v.1 fun hnone => ?_
    exact handedFrom_eq_nil.mp (after_none hcalls hours hnone n).2 v hv rfl
  rw [length_eq_sum_handedFrom hmem]
  exact Finset.sum_le_sum fun name _ => hbound name

/-- While the total is bounded, one of the first calls hands nothing over. -/
theorem exists_idle_call (calls : Nat → DrainCall) (dir : Dir) {total : Nat}
    (hbound : ∀ n, (after calls dir n).handed.length ≤ total) :
    ∃ n, n ≤ total ∧ ((calls n).run (after calls dir n).dir).visits = [] := by
  by_contra hnone
  -- Otherwise each of these calls hands over a record, more than there are in all.
  have hbusy : ∀ n, n ≤ total → ((calls n).run (after calls dir n).dir).visits ≠ [] :=
    fun n hn hvisits => hnone ⟨n, hn, hvisits⟩
  have hgrow : ∀ n, n ≤ total + 1 → n ≤ (after calls dir n).handed.length := by
    intro n
    induction n with
    | zero => exact fun _ => Nat.zero_le _
    | succ n ih =>
      intro hn
      have hpos := List.length_pos_of_ne_nil (hbusy n (by omega))
      have := ih (by omega)
      simp only [after, History.next, List.length_append, List.length_map]
      omega
  have := hgrow (total + 1) le_rfl
  have := hbound (total + 1)
  omega

end CboxTelemetry.Crash
