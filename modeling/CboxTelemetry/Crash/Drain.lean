import CboxTelemetry.Crash.DrainFile
import CboxTelemetry.Crash.Compact
import CboxTelemetry.Crash.SinkName
import Mathlib.Logic.Function.Basic

/-!
# Draining the directory

`crashDrain` goes through the entries `readdir` lists and drains the sinks whose owner is gone: it
reads each one, removes it when every byte has been read and every record handed over, and else
discards the part that was handed over.

Everything the operating system answers during one iteration is carried by that iteration's
`DirEntry`, the name that `readdir` returned included, so the order of the listing, the liveness of
a process at the moment it is asked for, and every I/O failure are inputs.

`sinkStep` is the same thing seen from one sink when nothing fails: the records handed over and what
is left of the file.
-/

namespace CboxTelemetry.Crash

/-! ## The loop over the directory -/

/-- The files of the sink directory. -/
abbrev Dir := Name → Option SinkFile

/-- One iteration: what `readdir`, `kill` and the calls on the file answer in it. -/
structure DirEntry where
  name : Name
  kill : Int → KillAnswer
  read : ReadIo
  unlinks : Bool
  compact : CompactIo

/-- What `opendir` answers. -/
inductive OpendirAnswer
  | ok
  | enoent
  | error
  deriving DecidableEq, Repr

/-- What stays the same during one drain: `getpid()`, `geteuid()`, the directory that
`cbox_crash_prepare_directory` produced (if it did), and how `opendir` answered. -/
structure DrainEnv where
  self : Int
  euid : Nat
  owned : Option (List Char)
  opendir : OpendirAnswer

/-- The state of the loop: the directory, the records handed over so far with the name of their sink,
their number, and whether the visitor asked to stop. -/
structure DrainState where
  dir : Dir
  visits : List (Name × Visit)
  visited : Nat
  stop : Bool

/-- Remove a sink that was read to its end, or discard what was handed over of it. -/
def reclaim (e : DirEntry) (name : Name) (r : DrainFileResult) (dir : Dir) : Dir :=
  if r.consumable then
    if e.unlinks then Function.update dir name none else dir
  else if 0 < r.consumedBytes then
    Function.update dir name ((dir name).map fun f =>
      { f with content := crashCompact e.compact f.content r.consumedBytes })
  else dir

/-- The body of the loop for the sink `name` of a dead process. -/
def drainSink (euid : Nat) (visit : Bytes → Bool) (max : Nat) (e : DirEntry) (name : Name)
    (s : DrainState) : DrainState :=
  let r := crashDrainFile e.read euid visit (max - s.visited) s.stop (s.dir name)
  match r.found with
  | none => { s with stop := r.stop }
  | some found =>
    { dir := reclaim e name r s.dir
      visits := s.visits ++ r.visits.map (name, ·)
      visited := s.visited + found
      stop := r.stop }

/-- The sink an entry leads to: its name has the form of a sink's, its owner is neither this process
nor alive, and the path fits. -/
def drainTarget (env : DrainEnv) (owned : List Char) (e : DirEntry) : Option Name :=
  match sinkOwner e.name with
  | none => none
  | some owner =>
    if toPid owner == env.self || crashProcessAlive e.kill (toPid owner) then none
    else crashSinkName owned (toPid owner)

/-- One iteration of the loop of `cbox_crash_drain`. -/
def crashDrainEntry (env : DrainEnv) (owned : List Char) (visit : Bytes → Bool) (max : Nat)
    (e : DirEntry) (s : DrainState) : DrainState :=
  match drainTarget env owned e with
  | none => s
  | some name => drainSink env.euid visit max e name s

/-- The loop of `cbox_crash_drain` over what `readdir` lists. -/
def crashDrainLoop (env : DrainEnv) (owned : List Char) (visit : Bytes → Bool) (max : Nat) :
    List DirEntry → DrainState → DrainState
  | [], s => s
  | e :: es, s =>
    if s.stop || decide (max ≤ s.visited) then s
    else crashDrainLoop env owned visit max es (crashDrainEntry env owned visit max e s)

/-- What `cbox_crash_drain` returns, the calls it made of the visitor, and the directory it leaves. -/
structure DrainResult where
  returned : Int
  visits : List (Name × Visit)
  dir : Dir

/-- Drain every sink except this process's own, and only those whose owning process is gone. -/
def crashDrain (env : DrainEnv) (visit : Bytes → Bool) (max : Nat) (entries : List DirEntry)
    (dir : Dir) : DrainResult :=
  if max = 0 then ⟨-1, [], dir⟩
  else match env.owned, env.opendir with
    | none, _ => ⟨0, [], dir⟩
    | some _, .enoent => ⟨0, [], dir⟩
    | some _, .error => ⟨-1, [], dir⟩
    | some owned, .ok =>
      let s := crashDrainLoop env owned visit max entries ⟨dir, [], 0, false⟩
      ⟨s.visited, s.visits, s.dir⟩

/-! ## One sink, no I/O failure -/

/-- What a drain does to one sink: the records it hands over, and what is left of the file (`none`
when it has been removed). -/
structure SinkOutcome where
  visits : List Visit
  rest : Option Bytes
  deriving DecidableEq, Repr

/-- One drain of a sink with the given contents and budget, when no call fails. -/
def sinkStep (max : Nat) (content : Bytes) : SinkOutcome :=
  let buffer := readBuffer content
  let r := Scan.scan (sinkInput buffer) max 0
  { visits := r.frames.map (visitAt buffer)
    rest :=
      if !r.skipped && decide (content.length ≤ crashDrainMaxBytes)
          && decide (buffer.length < r.offset + headerProbeSize) then none
      else if r.skipped then some content
      else some (content.drop (consumedAfter 0 r.frames)) }

/-- No call of this iteration fails. -/
structure DirEntry.Reliable (e : DirEntry) : Prop where
  read : e.read = .ok
  unlinks : e.unlinks = true
  compact : e.compact = .ok

/-- What is left of a sink, from the verdict on it. -/
def leftOf (consumable : Bool) (consumedBytes : Nat) (content : Bytes) : Option Bytes :=
  if consumable then none else some (content.drop consumedBytes)

theorem reclaim_eq {e : DirEntry} (he : e.Reliable) {euid : Nat} {name : Name} {dir : Dir}
    {content : Bytes} (hfile : dir name = some (sinkFile euid content)) (r : DrainFileResult) :
    reclaim e name r dir =
      Function.update dir name
        ((leftOf r.consumable r.consumedBytes content).map (sinkFile euid)) := by
  have hsame : Function.update dir name (some (sinkFile euid content)) = dir := by
    rw [← hfile, Function.update_eq_self]
  unfold reclaim leftOf
  split
  · rw [if_pos he.unlinks, Option.map_none]
  · split
    · rw [hfile, Option.map_some, he.compact, crashCompact_ok]
      rfl
    · have hzero : r.consumedBytes = 0 := by omega
      rw [hzero, List.drop_zero, Option.map_some, hsame]

/-- A drain of one sink is a `sinkStep` of its contents. -/
theorem drainSink_eq {visit : Bytes → Bool} (hvisit : ∀ r, visit r = true) (max : Nat)
    {e : DirEntry} (he : e.Reliable) {euid : Nat} {name : Name} {s : DrainState} {content : Bytes}
    (hstop : s.stop = false) (hfile : s.dir name = some (sinkFile euid content)) :
    drainSink euid visit max e name s =
      let o := sinkStep (max - s.visited) content
      { dir := Function.update s.dir name (o.rest.map (sinkFile euid))
        visits := s.visits ++ o.visits.map (name, ·)
        visited := s.visited + o.visits.length
        stop := false } := by
  have hread := crashDrainFile_ok hvisit euid (max - s.visited) content
  simp only [drainSink, he.read, hstop, hfile, hread, reclaim_eq he hfile, sinkStep,
    List.length_map, leftOf]
  congr 3
  split
  · rfl
  · split <;> simp_all

/-! ## All sinks, no I/O failure

With every file readable and ours, a drain is a walk over the sinks its listing leads to. -/

/-- The contents of a sink directory. -/
abbrev Sinks := Name → Option Bytes

/-- The directory that holds these sinks, all of them ours. -/
def Sinks.toDir (euid : Nat) (c : Sinks) : Dir := fun name => (c name).map (sinkFile euid)

/-- The sinks after a drain and the records it handed over. -/
structure Drained where
  files : Sinks
  visits : List (Name × Visit)

/-- Drain the named sinks in order until the budget is spent. -/
def drainAll : Nat → List Name → Sinks → Drained
  | _, [], c => ⟨c, []⟩
  | budget, name :: names, c =>
    if budget = 0 then ⟨c, []⟩
    else match c name with
      | none => drainAll budget names c
      | some content =>
        let o := sinkStep budget content
        let r := drainAll (budget - o.visits.length) names (Function.update c name o.rest)
        ⟨r.files, o.visits.map (name, ·) ++ r.visits⟩

@[simp] theorem drainAll_zero (names : List Name) (c : Sinks) : drainAll 0 names c = ⟨c, []⟩ := by
  cases names <;> rfl

theorem Sinks.toDir_update (euid : Nat) (c : Sinks) (name : Name) (content : Option Bytes) :
    Function.update (c.toDir euid) name (content.map (sinkFile euid)) =
      Sinks.toDir euid (Function.update c name content) := by
  funext n
  by_cases h : n = name
  · subst h; simp [Sinks.toDir]
  · simp [Sinks.toDir, h]

/-- The loop over the listing is the walk over the sinks it leads to. -/
theorem crashDrainLoop_eq {visit : Bytes → Bool} (hvisit : ∀ r, visit r = true) (env : DrainEnv)
    (owned : List Char) (max : Nat) (entries : List DirEntry) (hok : ∀ e ∈ entries, e.Reliable)
    (c : Sinks) (visits : List (Name × Visit)) (visited : Nat) (hle : visited ≤ max) :
    crashDrainLoop env owned visit max entries ⟨c.toDir env.euid, visits, visited, false⟩ =
      let r := drainAll (max - visited) (entries.filterMap (drainTarget env owned)) c
      ⟨r.files.toDir env.euid, visits ++ r.visits, visited + r.visits.length, false⟩ := by
  induction entries generalizing c visits visited with
  | nil => simp [crashDrainLoop, drainAll]
  | cons e es ih =>
    have hes : ∀ e ∈ es, e.Reliable := fun e' h => hok e' (List.mem_cons_of_mem _ h)
    rw [crashDrainLoop]
    by_cases hfull : max ≤ visited
    · have hzero : max - visited = 0 := by omega
      simp [hfull, hzero]
    · rw [if_neg (by simpa using hfull)]
      cases ht : drainTarget env owned e with
      | none => rw [crashDrainEntry, ht, List.filterMap_cons_none ht]; exact ih hes c visits visited hle
      | some name =>
        rw [crashDrainEntry, ht, List.filterMap_cons_some ht, drainAll, if_neg (by omega)]
        cases hc : c name with
        | none =>
          have hfile : c.toDir env.euid name = none := by rw [Sinks.toDir, hc, Option.map_none]
          have hskip : drainSink env.euid visit max e name
              ⟨c.toDir env.euid, visits, visited, false⟩ = ⟨c.toDir env.euid, visits, visited, false⟩ := by
            simp [drainSink, hfile, crashDrainFile, DrainFileResult.failed]
          simp only [hskip]
          exact ih hes c visits visited hle
        | some content =>
          have hfile : c.toDir env.euid name = some (sinkFile env.euid content) := by
            rw [Sinks.toDir, hc, Option.map_some]
          have hbudget : (sinkStep (max - visited) content).visits.length ≤ max - visited := by
            rw [sinkStep, List.length_map, Scan.scan_frames]
            exact List.length_take_le _ _
          have hstep := drainSink_eq hvisit max (hok e List.mem_cons_self)
            (s := ⟨c.toDir env.euid, visits, visited, false⟩) rfl hfile
          simp only [hstep, Sinks.toDir_update]
          rw [ih hes _ _ _ (by omega)]
          simp [Nat.sub_sub, Nat.add_assoc]

/-- **A drain is a walk over sinks.** Without I/O failures `cbox_crash_drain` hands over what
`drainAll` does, leaves the same files, and returns the number of records. -/
theorem crashDrain_eq {visit : Bytes → Bool} (hvisit : ∀ r, visit r = true) {env : DrainEnv}
    {owned : List Char} (howned : env.owned = some owned) (hopen : env.opendir = .ok) {max : Nat}
    (hmax : 1 ≤ max) {entries : List DirEntry} (hok : ∀ e ∈ entries, e.Reliable) (c : Sinks) :
    crashDrain env visit max entries (c.toDir env.euid) =
      let r := drainAll max (entries.filterMap (drainTarget env owned)) c
      ⟨r.visits.length, r.visits, r.files.toDir env.euid⟩ := by
  rw [crashDrain, if_neg (by omega), howned, hopen]
  simp only [crashDrainLoop_eq hvisit env owned max entries hok c [] 0 (Nat.zero_le _)]
  simp

/-- A dead process's sink is where its entry leads. -/
theorem drainTarget_dead {env : DrainEnv} {d : CrashDir} {e : DirEntry} {p : Pid}
    (hname : e.name = sinkName p.toInt) (hself : p.toInt ≠ env.self)
    (hdead : e.kill p.toInt = .esrch) :
    drainTarget env d.owned e = some (sinkName p.toInt) := by
  have halive : crashProcessAlive e.kill p.toInt = false := by
    rw [crashProcessAlive, hdead]; exact ite_self _
  rw [drainTarget, hname, sinkOwner_sinkName]
  simp only [toPid_of_pid, halive, beq_eq_false_iff_ne.mpr hself, Bool.or_false,
    Bool.false_eq_true, if_false]
  exact crashSinkName_pid d p

/-! ## What a walk does, sink by sink -/

/-- What every step on a sink preserves, a whole walk preserves. -/
theorem drainAll_invariant (inv : Sinks → List (Name × Visit) → Prop)
    (hstep : ∀ budget name content c visits, 0 < budget → c name = some content → inv c visits →
      inv (Function.update c name (sinkStep budget content).rest)
        (visits ++ (sinkStep budget content).visits.map (name, ·)))
    (budget : Nat) (names : List Name) (c : Sinks) (visits : List (Name × Visit))
    (h : inv c visits) :
    inv (drainAll budget names c).files (visits ++ (drainAll budget names c).visits) := by
  induction names generalizing budget c visits with
  | nil => simpa [drainAll] using h
  | cons name names ih =>
    rcases Nat.eq_zero_or_pos budget with rfl | hb
    · simpa using h
    · rw [drainAll, if_neg (by omega)]
      cases hc : c name with
      | none => exact ih budget c visits h
      | some content =>
        have := ih (budget - (sinkStep budget content).visits.length) _ _
          (hstep budget name content c visits hb hc h)
        simpa only [List.append_assoc] using this

/-- A walk leaves the sinks alone that it is not led to. -/
theorem drainAll_of_not_mem {name : Name} {names : List Name} (h : name ∉ names) (budget : Nat)
    (c : Sinks) :
    (drainAll budget names c).files name = c name ∧
      ∀ v ∈ (drainAll budget names c).visits, v.1 ≠ name := by
  induction names generalizing budget c with
  | nil => exact ⟨rfl, fun v hv => nomatch hv⟩
  | cons n names ih =>
    obtain ⟨hn, hnames⟩ := not_or.mp (mt List.mem_cons.mpr h)
    rcases Nat.eq_zero_or_pos budget with rfl | hb
    · rw [drainAll_zero]
      exact ⟨rfl, fun v hv => nomatch hv⟩
    · rw [drainAll, if_neg (by omega)]
      cases hc : c n with
      | none => exact ih hnames budget c
      | some content =>
        obtain ⟨hfile, hvisits⟩ := ih hnames (budget - (sinkStep budget content).visits.length)
          (Function.update c n (sinkStep budget content).rest)
        refine ⟨by rw [hfile, Function.update_of_ne hn], fun v hv => ?_⟩
        rcases List.mem_append.mp hv with hv | hv
        · obtain ⟨visit, -, rfl⟩ := List.mem_map.mp hv
          exact Ne.symm hn
        · exact hvisits v hv

/-- A walk with budget left over that hands nothing over has found nothing in any sink it was led
to. -/
theorem drainAll_visits_nil {budget : Nat} (hb : 0 < budget) {names : List Name} {c : Sinks}
    (h : (drainAll budget names c).visits = []) {name : Name} (hname : name ∈ names)
    {content : Bytes} (hc : c name = some content) : (sinkStep budget content).visits = [] := by
  induction names generalizing c with
  | nil => cases hname
  | cons n names ih =>
    rw [drainAll, if_neg (by omega)] at h
    by_cases hn : name = n
    · subst hn
      rw [hc] at h
      simp only [List.append_eq_nil_iff, List.map_eq_nil_iff] at h
      exact h.1
    · have hmem : name ∈ names := (List.mem_cons.mp hname).resolve_left hn
      cases hcn : c n with
      | none =>
        rw [hcn] at h
        exact ih h hmem hc
      | some other =>
        rw [hcn] at h
        simp only [List.append_eq_nil_iff, List.map_eq_nil_iff] at h
        rw [h.1, List.length_nil, Nat.sub_zero] at h
        exact ih h.2 hmem (by rw [Function.update_of_ne hn]; exact hc)

/-- A sink that is gone stays gone. -/
theorem drainAll_none {name : Name} (budget : Nat) (names : List Name) {c : Sinks}
    (hc : c name = none) : (drainAll budget names c).files name = none := by
  refine drainAll_invariant (fun c _ => c name = none) ?_ budget names c [] hc
  intro budget n content c _ _ hn hc
  have hne : name ≠ n := by
    rintro rfl
    rw [hc] at hn
    cases hn
  rwa [Function.update_of_ne hne]

/-- A walk with budget left over that hands nothing over removes every sink it was led to and whose
step removes it. -/
theorem drainAll_removes {budget : Nat} (hb : 0 < budget) {names : List Name} {c : Sinks}
    (h : (drainAll budget names c).visits = []) {name : Name} (hname : name ∈ names)
    (hgone : ∀ content, c name = some content → (sinkStep budget content).visits = [] →
      (sinkStep budget content).rest = none) : (drainAll budget names c).files name = none := by
  induction names generalizing c with
  | nil => cases hname
  | cons n names ih =>
    rw [drainAll, if_neg (by omega)] at h ⊢
    cases hcn : c n with
    | none =>
      rw [hcn] at h
      by_cases hn : name = n
      · exact drainAll_none budget names (hn ▸ hcn)
      · exact ih h ((List.mem_cons.mp hname).resolve_left hn) hgone
    | some other =>
      rw [hcn] at h
      simp only [List.append_eq_nil_iff, List.map_eq_nil_iff] at h
      obtain ⟨hnone, hrest⟩ := h
      simp only [hnone, List.length_nil, Nat.sub_zero] at hrest ⊢
      by_cases hn : name = n
      · subst hn
        refine drainAll_none budget names ?_
        rw [Function.update_self]
        exact hgone other hcn hnone
      · refine ih hrest ((List.mem_cons.mp hname).resolve_left hn) fun content hc => ?_
        rw [Function.update_of_ne hn] at hc
        exact hgone content hc

end CboxTelemetry.Crash
