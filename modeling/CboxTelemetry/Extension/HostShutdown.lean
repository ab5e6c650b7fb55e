import CboxTelemetry.Extension.HostSound

/-!
# The end of the module among signals

`MSHUTDOWN` gives the fatal signals back, then the timer's, and lets go of the alternate stack last, so that a
signal that comes in the middle finds either the module's handler with all it needs, or what was there before
the module (`leads_mshutdown`).
-/

namespace CboxTelemetry.Extension

open Profiler (Timer)
open Signals (Signal crashSignals)
open StraightLine (after)

namespace Host

variable {alone : Prop} {s t : Host}

/-! ## Uninstalling -/

/-- What the signals do that were given back, and the others. -/
theorem current_giveBack (s : Host) (signals : List Signal) (x : Taken) :
    (after perform s (signals.map fun signal => .giveBack (.crash signal))).current x =
      if x ∈ signals.map .crash then some (s.saved x) else s.current x := by
  induction signals generalizing s with
  | nil => rfl
  | cons signal signals ih =>
    rw [List.map_cons, StraightLine.after_cons, ih]
    simp only [perform, saved_setCurrent, current_setCurrent, List.map_cons, List.mem_cons]
    by_cases hrest : x ∈ signals.map .crash
    · simp [hrest]
    · by_cases heq : x = .crash signal
      · simp [heq]
      · simp [hrest, heq]

/-- What the crash handlers leave in the slots. -/
theorem current_crashUninstall (s : Host) (x : Taken) : (after perform s s.crashUninstall).current x =
    if s.crash.installed = true ∧ x ≠ .timer then some (s.saved x) else s.current x := by
  unfold crashUninstall
  split
  next hinstalled =>
    rw [StraightLine.after_append]
    show (after perform s (crashSignals.map fun signal => .giveBack (.crash signal))).current x = _
    rw [current_giveBack]
    cases x with
    | crash signal =>
      have hmem : Taken.crash signal ∈ crashSignals.map Taken.crash :=
        List.mem_map.mpr ⟨signal, mem_crashSignals signal, rfl⟩
      simp [hmem, hinstalled]
    | timer => simp
  next hout => simp [hout]

/-- `cbox_crash_uninstall` has no business with the timer and the stack. -/
theorem crashUninstall_frame {β : Type*} (view : Host → β) (s : Host)
    (hback : ∀ signal (s : Host), view (s.perform (.giveBack (.crash signal))) = view s)
    (hnote : ∀ s : Host, view (s.perform (.setCrashInstalled false)) = view s) :
    view (after perform s s.crashUninstall) = view s := by
  apply StraightLine.after_frame view
  intro i hi t
  unfold crashUninstall at hi
  split at hi
  · rcases List.mem_append.mp hi with hmem | hmem
    · obtain ⟨signal, -, rfl⟩ := List.mem_map.mp hmem
      exact hback signal t
    · obtain rfl := List.mem_singleton.mp hmem
      exact hnote t
  · cases hi

/-- They are not installed any more. -/
theorem crashInstalled_crashUninstall (s : Host) : (after perform s s.crashUninstall).crash.installed = false := by
  unfold crashUninstall
  split
  · rw [StraightLine.after_append]
    rfl
  next hout =>
    rw [Bool.not_eq_true] at hout
    exact hout

/-- The uninstallation of the crash handlers leads from sound to sound. -/
theorem leads_crashUninstall (h : s.Sound alone []) : Leads alone [] s s.crashUninstall := by
  unfold crashUninstall
  split
  next hinstalled =>
    have hback : Leads alone [] s (crashSignals.map fun signal => .giveBack (.crash signal)) :=
      leads_giveBack h (by simp)
    apply hback.append
    apply Leads.cons hback.2.safe
    apply Leads.nil
    have hgone : ∀ signal, (after perform s (crashSignals.map fun signal => .giveBack (.crash signal))).current
        (.crash signal) ≠ none := by
      intro signal
      rw [current_giveBack, if_pos (List.mem_map.mpr ⟨signal, mem_crashSignals signal, rfl⟩)]
      simp
    have hsound := hback.2
    generalize after perform s _ = u at hsound hgone
    -- With the handlers gone, nothing asks for the alternate stack but the timer.
    exact {
      hsound with
      installed := by
        intro x hnone
        cases x with
        | crash signal => exact absurd hnone (hgone signal)
        | timer => exact hsound.installed .timer hnone
      ready := by
        intro x hx hstack
        cases x with
        | crash signal =>
          rcases hx with hno | hno
          · cases hno
          · cases hno
        | timer => exact hsound.ready .timer hx hstack }
  · exact .nil h

/-- A disarm leaves the timer created or not. -/
theorem created_timerDisarm (s : Host) :
    (after perform s s.timerDisarm).sampler.timer.created = s.sampler.timer.created := by
  apply StraightLine.after_frame fun s : Host => s.sampler.timer.created
  intro i hi t
  unfold timerDisarm at hi
  split at hi <;> simp at hi
  · rcases hi with rfl | rfl <;> rfl
  · subst hi
    rfl

/-- What `cbox_timer_shutdown` does to the timer before it gives the signal back. -/
def timerEnd (s : Host) : List HostInstr :=
  s.timerDisarm ++ if s.sampler.timer.created then [.timerDelete, .setCreated false] else []

/-- The end of the timer is code on the timer. -/
theorem onTimer_timerEnd (s : Host) : ∀ i ∈ s.timerEnd, onTimer i = true := by
  intro i hi
  rcases List.mem_append.mp hi with hdisarm | hdelete
  · exact onTimer_timerDisarm s i hdisarm
  · split at hdelete <;> simp at hdelete
    rcases hdelete with rfl | rfl <;> rfl

/-- The timer is stopped and deleted. -/
theorem leads_timerEnd (h : s.Sound alone []) :
    Leads alone [] s s.timerEnd ∧ (after perform s s.timerEnd).sampler.timer.kernel = .none := by
  have hdisarm := leads_timerDisarm h
  have hcreated := created_timerDisarm s
  unfold timerEnd
  rw [StraightLine.after_append]
  split
  · have hdeleted : (perform (after perform s s.timerDisarm) .timerDelete).Sound alone [] := by
      rw [perform]
      apply hdisarm.2.mapTimer rfl <;> simp
    have hforgotten : (perform (perform (after perform s s.timerDisarm) .timerDelete)
        (.setCreated false)).Sound alone [] := by
      rw [perform]
      apply hdeleted.mapTimer rfl <;> simp [perform, Host.mapTimer]
    -- Disarmed, deleted and then forgotten, in this order.
    refine ⟨hdisarm.append ?_, rfl⟩
    exact .cons hdisarm.2.safe (.cons hdeleted.safe (.nil hforgotten))
  next hnot =>
    refine ⟨hdisarm.append (.nil hdisarm.2), ?_⟩
    by_contra hkernel
    have hyes := hdisarm.2.created hkernel
    rw [hcreated] at hyes
    exact hnot hyes

/-- What `cbox_timer_shutdown` leaves. -/
structure TimerShut (s t : Host) : Prop where
  current : ∀ x, t.current x =
    if s.sampler.timer.installed = true ∧ x = .timer then some (s.saved x) else s.current x
  installed : t.sampler.timer.installed = false
  crashInstalled : t.crash.installed = s.crash.installed
  kernel : t.sampler.timer.kernel = .none
  stack : t.stack = s.stack

/-- The signal of a timer that is not there is given back. -/
theorem leads_giveBackTimer (h : s.Sound alone []) (hkernel : s.sampler.timer.kernel = .none) :
    Leads alone [] s [.giveBack .timer, .setTimerInstalled false] := by
  apply Leads.cons h.safe
  apply Leads.cons
  · constructor
    · simpa [perform] using h.alive
    · intro x hnone hstack
      rw [perform, current_setCurrent] at hnone
      split at hnone
      · cases hnone
      · simpa [perform] using h.safe.stack x hnone (by simpa [perform] using hstack)
    · simp [perform, hkernel]
    · simp [perform, hkernel]
  · apply Leads.nil
    constructor
    · intro x hnone
      cases x with
      | crash signal =>
        have hx := h.installed (.crash signal) (by simpa [perform] using hnone)
        simpa [perform, Host.installed, mapTimer] using hx
      | timer => simp [perform] at hnone
    · intro x hx hstack
      cases x with
      | crash signal =>
        have hyes := h.ready (.crash signal) (by simpa [perform, Host.installed, mapTimer] using hx)
          (by simpa [perform] using hstack)
        simpa [perform, mapTimer] using hyes
      | timer =>
        rcases hx with hno | hno
        · cases hno
        · cases hno
    · simpa [perform, mapTimer] using h.blocks
    · simpa [perform, mapTimer] using h.memory
    · simpa [perform, mapTimer] using h.alive
    · simp [perform, mapTimer, hkernel]
    · simp [perform, mapTimer, hkernel]
    · simp [perform, mapTimer]
    · simp [perform, mapTimer, hkernel]

/-- The shutdown of the timer leads from sound to sound, and shuts it. -/
theorem leads_timerShutdown (h : s.Sound alone []) : Leads alone [] s s.timerShutdown ∧
    TimerShut s (after perform s s.timerShutdown) := by
  obtain ⟨hend, hkernel⟩ := leads_timerEnd h
  obtain ⟨f, hafter, hf⟩ := after_onTimer (onTimer_timerEnd s) s
  have hcode : s.timerShutdown =
      s.timerEnd ++ if s.sampler.timer.installed then [.giveBack .timer, .setTimerInstalled false] else [] := rfl
  rw [hcode, StraightLine.after_append]
  cases hinstalled : s.sampler.timer.installed with
  | true =>
    refine ⟨hend.append (leads_giveBackTimer hend.2 hkernel), ?_⟩
    rw [hafter] at hkernel ⊢
    constructor
    · intro x
      by_cases heq : x = .timer
      · simp [perform, heq, hinstalled]
      · simp [perform, heq]
    · rfl
    · simp [perform, mapTimer]
    · simpa [perform, mapTimer] using hkernel
    · simp [perform, mapTimer]
  | false =>
    refine ⟨hend.append (.nil hend.2), ?_⟩
    rw [hafter] at hkernel ⊢
    constructor
    · intro x
      simp [hinstalled]
    · exact (hf _).trans hinstalled
    · rfl
    · exact hkernel
    · rfl

/-! ## The end of the module -/

/-- The stack is let go of when no handler of the module is left. -/
theorem leads_sigstackRelease (h : s.Sound alone []) (hgone : ∀ x, s.current x ≠ none)
    (hout : ∀ x, s.installed x = false) : Leads alone [] s s.sigstackRelease := by
  -- No handler of the module is left to run on the stack.
  have hsafe : ∀ stack : SigStack, stack.altStack.isLive stack.blocks = true →
      Safe alone { s with stack := stack } := by
    intro stack halive
    constructor
    · exact halive
    · intro x hnone
      exact absurd hnone (hgone x)
    · exact h.safe.created
    · exact h.safe.sampler
  have hsound : ∀ stack : SigStack, stack.blocks = [] → stack.memory = none →
      stack.altStack.isLive [] = true → Sound alone [] { s with stack := stack } := by
    intro stack hblocks hmemory halive
    constructor
    · intro x hnone
      exact absurd hnone (hgone x)
    · intro x hx
      rcases hx with hinstalled | hnil
      · have hno : s.installed x = true := hinstalled
        rw [hout x] at hno
        cases hno
      · cases hnil
    · simp [hblocks, hmemory]
    · simp [hmemory]
    · simpa [hblocks] using halive
    · exact h.created
    · exact h.ticking
    · exact h.sampler
    · exact h.strayed
  unfold sigstackRelease
  cases hmemory : s.stack.memory with
  | none =>
    have hblocks : s.stack.blocks = [] := by
      rw [h.blocks, hmemory]
      rfl
    apply Leads.cons h.safe
    apply Leads.nil
    apply hsound
    · exact hblocks
    · exact hmemory
    · have halive := h.alive
      rw [hblocks] at halive
      exact halive
  | some block =>
    -- the kernel is told before the block is freed
    apply Leads.cons h.safe
    apply Leads.cons (hsafe _ rfl)
    apply Leads.cons (hsafe _ rfl)
    apply Leads.cons (hsafe _ rfl)
    apply Leads.nil
    apply hsound
    · simp [h.blocks, hmemory]
    · rfl
    · rfl

/-! ## `MSHUTDOWN` -/

/-- What `MSHUTDOWN` leaves. -/
structure Unloaded (s t : Host) : Prop where
  current : ∀ x, t.current x = if s.installed x then some (s.saved x) else s.current x
  installed : ∀ x, t.installed x = false
  kernel : t.sampler.timer.kernel = .none
  blocks : t.stack.blocks = []
  altStack : t.stack.altStack = if s.stack.memory = none then s.stack.altStack else .disabled

/-- A disarm reads one thing. -/
theorem timerDisarm_congr (h : t.sampler.timer.created = s.sampler.timer.created) :
    s.timerDisarm = t.timerDisarm := by
  unfold timerDisarm
  rw [h]

/-- A shutdown reads two. -/
theorem timerShutdown_congr (hcreated : t.sampler.timer.created = s.sampler.timer.created)
    (hinstalled : t.sampler.timer.installed = s.sampler.timer.installed) :
    s.timerShutdown = t.timerShutdown := by
  unfold timerShutdown
  rw [hcreated, hinstalled, timerDisarm_congr hcreated]

theorem sigstackRelease_congr (h : t.stack = s.stack) : s.sigstackRelease = t.sigstackRelease := by
  unfold sigstackRelease
  rw [h]

/-- What the release of the stack leaves. -/
theorem after_sigstackRelease (h : s.Sound alone []) : after perform s s.sigstackRelease =
    { s with stack := ⟨if s.stack.memory = none then s.stack.altStack else .disabled, [], none, false⟩ } := by
  obtain ⟨crash, sampler, ⟨altStack, blocks, memory, ready⟩, recorderOnStack, samplerOnStack, strayed, todo⟩ := s
  have hblocks : blocks = memory.toList := h.blocks
  subst hblocks
  cases memory with
  | none => simp [sigstackRelease, perform]
  | some block => simp [sigstackRelease, perform]

/-- What `cbox_crash_uninstall` leaves. -/
structure CrashGone (s t : Host) : Prop where
  current : ∀ x, t.current x = if s.crash.installed = true ∧ x ≠ .timer then some (s.saved x) else s.current x
  crashInstalled : t.crash.installed = false
  timer : t.sampler.timer = s.sampler.timer
  saved : t.saved .timer = s.saved .timer
  stack : t.stack = s.stack

/-- What the uninstallation leaves. -/
theorem after_crashUninstall (s : Host) : CrashGone s (after perform s s.crashUninstall) where
  current := current_crashUninstall s
  crashInstalled := crashInstalled_crashUninstall s
  timer := crashUninstall_frame (fun s => s.sampler.timer) s (fun _ _ => rfl) (fun _ => rfl)
  saved := crashUninstall_frame (fun s => s.saved .timer) s (fun _ _ => by simp [perform]) (fun _ => rfl)
  stack := crashUninstall_frame (fun s => s.stack) s (fun _ _ => rfl) (fun _ => rfl)

/-- What `cbox_profiler_stop` leaves. -/
structure TimerStopped (s t : Host) : Prop where
  current : ∀ x, t.current x = s.current x
  crashInstalled : t.crash.installed = s.crash.installed
  installed : t.sampler.timer.installed = s.sampler.timer.installed
  created : t.sampler.timer.created = s.sampler.timer.created
  saved : ∀ x, t.saved x = s.saved x
  stack : t.stack = s.stack

/-- What a disarm leaves. -/
theorem after_timerDisarm (s : Host) : TimerStopped s (after perform s s.timerDisarm) := by
  obtain ⟨f, hafter, hf⟩ := after_onTimer (onTimer_timerDisarm s) s
  have hcreated := created_timerDisarm s
  rw [hafter] at hcreated ⊢
  exact ⟨by simp, rfl, hf _, hcreated, by simp, rfl⟩

/-- A profiler that runs is stopped. -/
theorem leads_stop (h : s.Sound alone []) (running : Bool) :
    Leads alone [] s (if running then s.timerDisarm else []) ∧
      TimerStopped s (after perform s (if running then s.timerDisarm else [])) := by
  cases running with
  | true => exact ⟨leads_timerDisarm h, after_timerDisarm s⟩
  | false => exact ⟨.nil h, ⟨fun _ => rfl, rfl, rfl, rfl, fun _ => rfl, rfl⟩⟩

/-- The unload leads from sound to sound, and leaves nothing. -/
theorem leads_mshutdown (h : s.Sound alone []) (running : Bool) : Leads alone [] s (s.mshutdown running) ∧
    Unloaded s (after perform s (s.mshutdown running)) := by
  have hcrash := leads_crashUninstall h
  have hgone := after_crashUninstall s
  have hstop := leads_stop hcrash.2 running
  rw [← timerDisarm_congr (congrArg Timer.created hgone.timer)] at hstop
  have hfirst := hcrash.append hstop.1
  have hstopped := hstop.2
  rw [← StraightLine.after_append] at hstopped
  have htimer := leads_timerShutdown hfirst.2
  rw [← timerShutdown_congr (s := s) (hstopped.created.trans (congrArg Timer.created hgone.timer))
    (hstopped.installed.trans (congrArg Timer.installed hgone.timer))] at htimer
  have hsecond := hfirst.append htimer.1
  have hshut := htimer.2
  rw [← StraightLine.after_append] at hshut
  unfold mshutdown
  generalize hu₂ : after perform s (s.crashUninstall ++ if running then s.timerDisarm else []) = u₂ at *
  generalize hu₃ : after perform s
    (s.crashUninstall ++ (if running then s.timerDisarm else []) ++ s.timerShutdown) = u₃ at *
  -- The slots as they are before the stack goes: what was installed has been given back.
  have hcurrent : ∀ x, u₃.current x = if s.installed x then some (s.saved x) else s.current x := by
    intro x
    rw [hshut.current, hstopped.current, hstopped.saved, hstopped.installed, hgone.timer, hgone.current]
    cases x with
    | crash signal => cases hi : s.crash.installed <;> simp [installed, hi]
    | timer => cases hi : s.sampler.timer.installed <;> simp [installed, hi, hgone.saved]
  have hout : ∀ x, u₃.installed x = false := by
    intro x
    cases x with
    | crash signal => exact hshut.crashInstalled.trans (hstopped.crashInstalled.trans hgone.crashInstalled)
    | timer => exact hshut.installed
  have hnone : ∀ x, u₃.current x ≠ none := by
    intro x hx
    rw [hcurrent] at hx
    split at hx
    · cases hx
    next hnot => exact (h.installed x hx).elim hnot List.not_mem_nil
  have hstack : u₃.stack = s.stack := hshut.stack.trans (hstopped.stack.trans hgone.stack)
  have hsound := hsecond.2
  rw [hu₃] at hsound
  have hrelease := leads_sigstackRelease hsound hnone hout
  rw [← sigstackRelease_congr hstack] at hrelease
  have hafter := after_sigstackRelease hsound
  rw [← sigstackRelease_congr hstack, hstack] at hafter
  rw [← hu₃] at hrelease
  refine ⟨hsecond.append hrelease, ?_⟩
  rw [StraightLine.after_append, hu₃, hafter]
  exact ⟨hcurrent, hout, hshut.kernel, rfl, rfl⟩

end Host

end CboxTelemetry.Extension
