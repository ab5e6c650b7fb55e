import CboxTelemetry.Crash.Drain

/-!
# The files a drain touches

The drain takes a number out of a directory entry's name, narrows it, asks whether a process has it, and
prints it again. `crashDrainTouches` lists what it then does, path by path, next to the answers of that
iteration; it leads to the sinks of processes that are gone, whatever the entries are called.
-/

namespace CboxTelemetry.Crash

/-! ## Uses of a path -/

/-- What the drain does to a file. -/
inductive PathUse
  | opened
  | rewritten
  | unlinked
  deriving DecidableEq

/-- One use of a path, in the iteration of an entry. -/
structure Touch where
  entry : DirEntry
  path : Name
  use : PathUse

/-- The uses of the sink `name`: it is opened to be read, and then removed or rewritten, or left. -/
def sinkTouches (euid : Nat) (visit : Bytes → Bool) (max : Nat) (e : DirEntry) (name : Name)
    (s : DrainState) : List Touch :=
  let r := crashDrainFile e.read euid visit (max - s.visited) s.stop (s.dir name)
  ⟨e, name, .opened⟩ ::
    match r.found with
    | none => []
    | some _ =>
      if r.consumable then [⟨e, name, .unlinked⟩]
      else if 0 < r.consumedBytes then [⟨e, name, .rewritten⟩]
      else []

/-- The uses of paths in one iteration. -/
def entryTouches (env : DrainEnv) (owned : List Char) (visit : Bytes → Bool) (max : Nat) (e : DirEntry)
    (s : DrainState) : List Touch :=
  match drainTarget env owned e with
  | none => []
  | some name => sinkTouches env.euid visit max e name s

/-- The uses of paths in the loop. -/
def loopTouches (env : DrainEnv) (owned : List Char) (visit : Bytes → Bool) (max : Nat) :
    List DirEntry → DrainState → List Touch
  | [], _ => []
  | e :: es, s =>
    if s.stop || decide (max ≤ s.visited) then []
    else entryTouches env owned visit max e s ++
      loopTouches env owned visit max es (crashDrainEntry env owned visit max e s)

/-- The uses of paths in `cbox_crash_drain`. -/
def crashDrainTouches (env : DrainEnv) (visit : Bytes → Bool) (max : Nat) (entries : List DirEntry)
    (dir : Dir) : List Touch :=
  if max = 0 then []
  else match env.owned, env.opendir with
    | some owned, .ok => loopTouches env owned visit max entries ⟨dir, [], 0, false⟩
    | _, _ => []

/-- A process that `kill(pid, 0)` reports as alive, or as not ours to signal. A number that is not
positive is no process's. -/
def ProcessExists (kill : Int → KillAnswer) (pid : Int) : Prop :=
  0 < pid ∧ (kill pid = .ok ∨ kill pid = .eperm)

/-- The path is the sink of a number that was free when it was checked. -/
def Touch.Free (t : Touch) (env : DrainEnv) : Prop :=
  ∃ pid, t.path = sinkName pid ∧ pid ≠ env.self ∧ ¬ProcessExists t.entry.kill pid

section
variable {env : DrainEnv} {owned : List Char} {visit : Bytes → Bool} {max : Nat} {e : DirEntry}
  {s : DrainState} {name : Name} {t : Touch}

/-- A process that is not reported alive does not exist. -/
theorem not_processExists {kill : Int → KillAnswer} {pid : Int} (h : crashProcessAlive kill pid = false) :
    ¬ProcessExists kill pid := by
  rintro ⟨hpos, hanswer⟩
  rw [crashProcessAlive, if_neg (by omega)] at h
  rcases hanswer with hok | heperm
  · rw [hok] at h
    cases h
  · rw [heperm] at h
    cases h

/-- **The sink that an entry leads to is a free one**, however its name is spelled. -/
theorem drainTarget_free (h : drainTarget env owned e = some name) :
    ∃ pid, name = sinkName pid ∧ pid ≠ env.self ∧ ¬ProcessExists e.kill pid := by
  unfold drainTarget at h
  split at h
  · cases h
  next owner _ =>
    split at h
    · cases h
    next hfree =>
      simp only [Bool.or_eq_true, beq_iff_eq, not_or, Bool.not_eq_true] at hfree
      refine ⟨toPid owner, ?_, hfree.1, not_processExists hfree.2⟩
      -- The path is printed from the number that has been checked.
      unfold crashSinkName at h
      split at h
      · cases h
        rfl
      · cases h

/-- Everything done for one sink is done to the entry's own path. -/
theorem mem_sinkTouches (h : t ∈ sinkTouches env.euid visit max e name s) :
    t.entry = e ∧ t.path = name := by
  unfold sinkTouches at h
  rcases List.mem_cons.mp h with rfl | hrest
  · exact ⟨rfl, rfl⟩
  · split at hrest
    · cases hrest
    · split at hrest
      · cases List.mem_singleton.mp hrest
        exact ⟨rfl, rfl⟩
      · split at hrest
        · cases List.mem_singleton.mp hrest
          exact ⟨rfl, rfl⟩
        · cases hrest

/-- What is done for an entry is done to that entry, and its process is gone. -/
theorem mem_entryTouches (h : t ∈ entryTouches env owned visit max e s) : t.entry = e ∧ t.Free env := by
  unfold entryTouches at h
  split at h
  · cases h
  next name htarget =>
    obtain ⟨hentry, hpath⟩ := mem_sinkTouches h
    obtain ⟨pid, hname, hself, hfree⟩ := drainTarget_free htarget
    refine ⟨hentry, pid, hpath.trans hname, hself, ?_⟩
    rw [hentry]
    exact hfree

/-- So it is for every entry the loop comes to. -/
theorem mem_loopTouches {entries : List DirEntry} (h : t ∈ loopTouches env owned visit max entries s) :
    t.entry ∈ entries ∧ t.Free env := by
  induction entries generalizing s with
  | nil => cases h
  | cons e es ih =>
    unfold loopTouches at h
    split at h
    · cases h
    · rcases List.mem_append.mp h with hnow | hlater
      · obtain ⟨hentry, hfree⟩ := mem_entryTouches hnow
        exact ⟨hentry ▸ List.mem_cons_self, hfree⟩
      · obtain ⟨hmem, hfree⟩ := ih hlater
        exact ⟨List.mem_cons_of_mem _ hmem, hfree⟩

/-! ## Nothing else is touched -/

/-- The records that one iteration hands over come from a file it opens. -/
theorem visits_crashDrainEntry {v : Name × Visit} (h : v ∈ (crashDrainEntry env owned visit max e s).visits) :
    v ∈ s.visits ∨ ∃ t ∈ entryTouches env owned visit max e s, t.path = v.1 ∧ t.use = .opened := by
  unfold crashDrainEntry at h
  unfold entryTouches
  cases htarget : drainTarget env owned e with
  | none =>
    simp only [htarget] at h
    exact .inl h
  | some name =>
    simp only [htarget, drainSink] at h ⊢
    split at h
    · exact .inl h
    · rcases List.mem_append.mp h with hold | hnew
      · exact .inl hold
      · obtain ⟨w, -, rfl⟩ := List.mem_map.mp hnew
        exact .inr ⟨⟨e, name, .opened⟩, List.mem_cons_self, rfl, rfl⟩

/-- A file that one iteration changes is one that it removes or rewrites. -/
theorem dir_crashDrainEntry (h : (crashDrainEntry env owned visit max e s).dir name ≠ s.dir name) :
    ∃ t ∈ entryTouches env owned visit max e s, t.path = name ∧ (t.use = .rewritten ∨ t.use = .unlinked) := by
  unfold crashDrainEntry at h
  unfold entryTouches
  cases htarget : drainTarget env owned e with
  | none =>
    simp only [htarget] at h
    exact absurd rfl h
  | some target =>
    simp only [htarget, drainSink, sinkTouches] at h ⊢
    -- The sink could not be drained, and the directory is as it was.
    cases hfound : (crashDrainFile e.read env.euid visit (max - s.visited) s.stop (s.dir target)).found with
    | none =>
      simp only [hfound] at h
      exact absurd rfl h
    | some found =>
      simp only [hfound, reclaim] at h ⊢
      -- Deleted when consumable, rewritten when something was consumed, otherwise as it was.
      split at h
      next hconsumable =>
        split at h
        · obtain rfl : name = target := by
            by_contra hne
            exact h (Function.update_of_ne hne _ _)
          refine ⟨⟨e, name, .unlinked⟩, ?_, rfl, .inr rfl⟩
          simp [hconsumable]
        · exact absurd rfl h
      next hconsumable =>
        split at h
        next hconsumed =>
          obtain rfl : name = target := by
            by_contra hne
            exact h (Function.update_of_ne hne _ _)
          refine ⟨⟨e, name, .rewritten⟩, ?_, rfl, .inl rfl⟩
          simp [hconsumable, hconsumed]
        · exact absurd rfl h

/-- Whatever a loop hands over comes from a sink it opened. -/
theorem visits_crashDrainLoop {entries : List DirEntry} {v : Name × Visit}
    (h : v ∈ (crashDrainLoop env owned visit max entries s).visits) :
    v ∈ s.visits ∨ ∃ t ∈ loopTouches env owned visit max entries s, t.path = v.1 ∧ t.use = .opened := by
  induction entries generalizing s with
  | nil => exact .inl h
  | cons e es ih =>
    unfold crashDrainLoop at h
    unfold loopTouches
    split at h
    next hdone =>
      exact .inl h
    next hgoing =>
      rw [if_neg hgoing]
      -- Handed over for a later entry, or for this one, or before.
      rcases ih h with hbefore | ⟨t, ht, huse⟩
      · rcases visits_crashDrainEntry hbefore with hold | ⟨t, ht, huse⟩
        · exact .inl hold
        · exact .inr ⟨t, List.mem_append_left _ ht, huse⟩
      · exact .inr ⟨t, List.mem_append_right _ ht, huse⟩

/-- Whatever a loop changes in the directory it rewrote or unlinked. -/
theorem dir_crashDrainLoop {entries : List DirEntry}
    (h : (crashDrainLoop env owned visit max entries s).dir name ≠ s.dir name) :
    ∃ t ∈ loopTouches env owned visit max entries s,
      t.path = name ∧ (t.use = .rewritten ∨ t.use = .unlinked) := by
  induction entries generalizing s with
  | nil => exact absurd rfl h
  | cons e es ih =>
    unfold crashDrainLoop at h
    unfold loopTouches
    split at h
    · exact absurd rfl h
    next hgoing =>
      rw [if_neg hgoing]
      -- A change by this entry, or by a later one.
      by_cases hnow : (crashDrainEntry env owned visit max e s).dir name = s.dir name
      · rw [← hnow] at h
        obtain ⟨t, ht, huse⟩ := ih h
        exact ⟨t, List.mem_append_right _ ht, huse⟩
      · obtain ⟨t, ht, huse⟩ := dir_crashDrainEntry hnow
        exact ⟨t, List.mem_append_left _ ht, huse⟩

end

/-- **The drain never touches the sink of a process that exists.** Every path that it opens, rewrites or
unlinks is the sink of a number that was neither its own nor a process's when the entry was looked at;
what it hands over comes from these files, and only these change. -/
theorem crashDrain_touches (env : DrainEnv) (visit : Bytes → Bool) (max : Nat) (entries : List DirEntry)
    (dir : Dir) :
    (∀ t ∈ crashDrainTouches env visit max entries dir, t.entry ∈ entries ∧ t.Free env) ∧
      (∀ v ∈ (crashDrain env visit max entries dir).visits,
        ∃ t ∈ crashDrainTouches env visit max entries dir, t.path = v.1 ∧ t.use = .opened) ∧
      ∀ name, (crashDrain env visit max entries dir).dir name ≠ dir name →
        ∃ t ∈ crashDrainTouches env visit max entries dir,
          t.path = name ∧ (t.use = .rewritten ∨ t.use = .unlinked) := by
  -- The function returns before the loop on a zero budget, without a directory, and when it cannot open it.
  unfold crashDrainTouches crashDrain
  by_cases hmax : max = 0
  · simp [hmax]
  · rw [if_neg hmax, if_neg hmax]
    cases howned : env.owned with
    | none => simp
    | some owned =>
      cases hopens : env.opendir with
      | enoent => simp
      | error => simp
      | ok =>
        refine ⟨fun t ht => mem_loopTouches ht, ?_, fun name hname => dir_crashDrainLoop hname⟩
        intro v hv
        rcases visits_crashDrainLoop hv with hnone | htouch
        · cases hnone
        · exact htouch

end CboxTelemetry.Crash
