import CboxTelemetry.Extension.Driver
import CboxTelemetry.Profiler.Faithful
import CboxTelemetry.Profiler.Shallow

/-!
# What a unit can cost

A unit can be opened with any context, and `finish` can be asked for everything. What it reports of the profile is
limited all the same, by settings that were clamped at module startup (`Bounded`): the numbers of functions and of
paths, the length of each path, the period, and the ticks that are accounted for. That is so of every worker,
whatever has happened in it (`finish_bounded`).
-/

namespace CboxTelemetry.Extension

open Profiler (Drives AskedSteps RootPath)

/-- A profile is within the limits that the settings say, and reports no more than the `ticks` that there were. -/
structure Bounded (ini : Ini) (io : StartupIo) (ticks : Nat) (profile : Profiler.Profile) : Prop where
  frames_le : profile.frames.length ≤ (setup ini io).maxFrames
  functions_le : profile.topFunctions.length ≤ Profiler.topFunctionsMax
  stacks_lt : ∀ stackList, profile.stackList = some stackList → stackList.length < (setup ini io).maxNodes
  path_le : ∀ stackList id path, profile.stackList = some stackList → RootPath stackList id path →
    path.length ≤ depthMax.toNat + 1
  period_ge : periodUsMin.toNat * 1000 ≤ profile.periodNs
  period_le : profile.periodNs ≤ periodUsMax.toNat * 1000
  ticks_le : ticks < 2 ^ 32 → profile.sampleCount + profile.dropped ≤ ticks

variable {ini : Ini} {io : StartupIo} {pid : Int} {as : List Action} {w : Worker} {s : Profiler.State}

/-- The tables that module startup asks for are the ones that it gets, if it gets any. -/
theorem setup_sizes (c : Profiler.Setup) (hready : c.prof.ready = true) :
    c.prof.frames.capacity = c.maxFrames ∧ c.prof.tree.capacity = c.maxNodes := by
  have hblank : ({ Profiler.State.blank with timer := c.timer } : Profiler.State).ready = false := rfl
  unfold Profiler.Setup.prof at hready ⊢
  obtain hnothing | ⟨bytes, ft, tree, -, hft, htree, heq⟩ :=
    Profiler.State.init_cases hblank c.maxFrames c.maxNodes c.slab c.frames c.nodes
  · rw [hnothing] at hready
    cases hready
  · rw [heq]
    unfold Profiler.FrameTable.init at hft
    unfold Profiler.StackTree.init at htree
    split at hft
    · cases hft
    · split at htree
      · cases htree
      · cases hft
        cases htree
        exact ⟨rfl, rfl⟩

/-- The profile of a profiler that has samples and is within the limits. -/
theorem bounded_profileInto {c : Profiler.Setup} (hframes : c.maxFrames = (setup ini io).maxFrames)
    (hnodes : c.maxNodes = (setup ini io).maxNodes) (h : Profiler.Confined Startable c.prof s)
    (hsamples : 0 < s.samples) {ticks : Nat} (hticks : ticks < 2 ^ 32 → s.samples + s.dropped ≤ ticks)
    (includeStacks : Bool) : Bounded ini io ticks (s.profileInto includeStacks) := by
  have hready : s.ready = true := by
    cases hready : s.ready with
    | true => rfl
    | false =>
      obtain ⟨-, -, hnone, -⟩ := h.sound.nothing hready
      exact absurd hsamples (Nat.not_lt.mpr hnone.le)
  have hready₀ : c.prof.ready = true := h.sized.ready_eq.symm.trans hready
  have hstored := h.sound.stored hready
  obtain ⟨-, hframesCap, htreeCap⟩ := h.sized.sizes hready₀
  obtain ⟨hframes₀, hnodes₀⟩ := setup_sizes c hready₀
  obtain ⟨maxDepth, maxDurationNs, hasked, hlimit⟩ := h.paced (.inr hsamples)
  have hstacks : ∀ stackList, (s.profileInto includeStacks).stackList = some stackList → stackList = s.stackList := by
    intro stackList hlist
    exact (Option.some.inj (Option.ite_none_right_eq_some.mp hlist).2).symm
  constructor
  -- The tables, the list and the stacks have the room that was set up. The path has its depth from the start.
  · show (s.frames.frames.map _).length ≤ _
    rw [List.length_map, ← hframes, ← hframes₀, ← hframesCap]
    exact hstored.frames.count_le
  · exact List.length_take_le _ _
  · intro stackList hlist
    rw [hstacks stackList hlist, Profiler.State.stackList, List.length_map, List.length_drop, ← hnodes, ← hnodes₀,
      ← htreeCap]
    have hroot := hstored.tree.length_pos
    have hle := hstored.tree.count_le
    omega
  · intro stackList id path hlist hpath
    rw [hstacks stackList hlist, Profiler.rootPath_iff] at hpath
    have hle := h.shallow id path hpath
    have hdepth := hasked.depth_le
    omega
  · exact hasked.period_ge
  · exact hasked.period_le
  · exact hticks

/-- What the functions of the profiler make of the profiler of a worker is within the limits, and has booked no more
than the ticks of the worker. -/
theorem confined_of_drives (hrun : Run WorkerSteps (startedWorker ini io pid) as w)
    (hdrives : Drives Startable 0 w.globals.prof s) : ∃ c : Profiler.Setup,
      c.maxFrames = (setup ini io).maxFrames ∧ c.maxNodes = (setup ini io).maxNodes ∧
      Profiler.Confined Startable c.prof s ∧ ((as.map Action.delivered).sum < 2 ^ 32 →
        s.samples + s.dropped ≤ (as.map Action.delivered).sum) := by
  obtain ⟨c, hframes, hnodes, hprof⟩ := exists_setup ini io pid
  -- The profiler's own run, in the machine that the worker drives.
  obtain ⟨bs, l, hmachine, hdelivered⟩ :=
    ((drives_run (booted_minit ini io pid).steady hrun).trans hdrives) .empty
  have hticks : l.delivered = (as.map Action.delivered).sum := by
    rw [hdelivered]
    exact Nat.zero_add _
  have hrun' : Run (AskedSteps Startable) c.machine bs ⟨s, .idle, l⟩ := by
    rw [Profiler.Setup.machine, ← hprof]
    exact hmachine
  refine ⟨c, hframes, hnodes, Profiler.confined_of_run (fun _ _ _ h => h.depth_pos) hrun', fun hsmall => ?_⟩
  have hbalanced := Profiler.balanced_of_run hrun'.of_guarded (by rw [hticks]; exact hsmall)
  have hnow := hbalanced.conserved.bookedNow_eq
  have hbooked := hbalanced.bookedNow_le
  have hall := hbalanced.conserved.delivered_eq
  simp only at hnow hbooked hall
  rw [← hticks]
  omega

/-- **The limits of a result.** Whatever a worker has been through, the profile that `finish` returns is within the
limits of the settings. -/
theorem finish_bounded (hrun : Run WorkerSteps (startedWorker ini io pid) as w) (handle : Int)
    (includeProfile includeStacks : Bool) (env : CallEnv) {result : FinishResult} {profile : Profiler.Profile}
    (hresult : (w.globals.finish handle includeProfile includeStacks (w.env env)).1 = some result)
    (hprofile : result.profile = some profile) : Bounded ini io (as.map Action.delivered).sum profile := by
  unfold Globals.finish Globals.finishUnit at hresult
  split at hresult
  · cases hresult
  · split at hresult
    · cases hresult
    · cases hresult
      obtain ⟨hsome, hinto⟩ := Option.ite_none_right_eq_some.mp hprofile
      simp only [Bool.and_eq_true, decide_eq_true_eq] at hsome
      cases hinto
      have hdrives : Drives Startable 0 w.globals.prof (w.globals.detectFork (w.env env)).prof.stop :=
        (drives_detectFork _ _).followedBy (Profiler.drives_stop _)
      obtain ⟨c, hframes, hnodes, hconfined, hticks⟩ := confined_of_drives hrun hdrives
      exact bounded_profileInto hframes hnodes hconfined hsome.2 hticks includeStacks

theorem finish_bounded_sampled : ∃ w, Run WorkerSteps (startedWorker autoIni plainStartup 100) sampledUnit w ∧
    ∃ result profile, (w.globals.finish 0 true true (w.env (callAt 10))).1 = some result ∧
      result.profile = some profile ∧ profile.sampleCount = 3 ∧ Bounded autoIni plainStartup 3 profile := by
  have hsampled : (takes (fun _ _ => True) Worker.step (startedWorker autoIni plainStartup 100) sampledUnit).bind
      (fun w => (w.globals.finish 0 true true (w.env (callAt 10))).1.bind fun result =>
        result.profile.map fun profile => profile.sampleCount) = some 3 := by decide +kernel
  obtain ⟨w, hw, hfinish⟩ := Option.bind_eq_some_iff.mp hsampled
  obtain ⟨result, hresult, hprofile⟩ := Option.bind_eq_some_iff.mp hfinish
  obtain ⟨profile, hprofile, hcount⟩ := Option.map_eq_some_iff.mp hprofile
  have hrun : Run WorkerSteps (startedWorker autoIni plainStartup 100) sampledUnit w :=
    (Run.of_takes hw).of_guarded
  exact ⟨w, hrun, result, profile, hresult, hprofile, hcount,
    finish_bounded hrun 0 true true (callAt 10) hresult hprofile⟩

end CboxTelemetry.Extension
