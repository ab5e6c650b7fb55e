import CboxTelemetry.Extension.HostShutdown

/-!
# Runs of the process

A run goes through the code of one call of the module after the other. Deliveries come between any two
instructions, and others change the dispositions and the alternate stack between two calls. What each call
leads to from where it begins (`leads_call`), and others keep (`Sound.outside`), a whole run keeps
(`going_of_run`, `going_sound`).
-/

namespace CboxTelemetry.Extension

open Profiler (Timer TimerIo TimerDelivery)
open Signals (Signal Sigaction Delivery)
open StraightLine (after Throughout Halfway)

namespace Host

variable {alone : Prop} {s t : Host}

/-! ## Runs -/

/-- The state is on its way through code that keeps `I` and ends with `J`. -/
def Going (I J : Host → Prop) (s : Host) : Prop :=
  ∃ s₀ code, Throughout perform I s₀ code ∧ J (after perform s₀ code) ∧ Halfway perform Worn s₀ code s s.todo

section
variable {I J : Host → Prop} {ok : HostAction → Prop} {a : HostAction} {as : List HostAction} {c : HostCall}

/-- Between calls, nothing is under way. -/
theorem Going.of_idle (hs : J s) (hJI : ∀ s, J s → I s) (hidle : s.todo = []) : Going I J s := by
  refine ⟨s, [], hJI s hs, hs, ?_⟩
  rw [hidle]
  exact .start (.refl s)

/-- At the end of a call, what it promised holds, up to wear. -/
theorem Going.idle (h : Going I J s) (hJ : ∀ {s t}, Worn s t → J s → J t) (hidle : s.todo = []) : J s := by
  obtain ⟨s₀, code, -, hlast, hhalf⟩ := h
  rw [hidle] at hhalf
  exact hJ hhalf.finish hlast

theorem Going.now (h : Going I J s) (hI : ∀ {s t}, Worn s t → I s → I t) : I s := by
  obtain ⟨s₀, code, hcode, -, hhalf⟩ := h
  exact hhalf.of_throughout hI hcode

theorem todo_of_between {u : Host} (h : s.between u = some t) : s.todo = [] ∧ t = u := by
  unfold between at h
  split at h
  next hidle =>
    cases h
    exact ⟨hidle, rfl⟩
  · cases h

/-- What a call begins with. -/
theorem begin_cases (h : s.begin c = some t) : s.todo = [] ∧ ∃ strayed,
    t = { s with strayed := strayed, todo := c.code s } ∧
      (strayed = s.strayed ∨ c = .afterFork ∧ strayed = false) ∧
      (∀ periodNs io, c = .arm periodNs io → strayed = false) ∧ (c = .afterFork → s.strayed = true) := by
  -- An arming is refused in a child that has not looked, and a look is one only there.
  unfold begin at h
  split at h
  next periodNs io =>
    split at h
    · cases h
    next hhere =>
      rw [Bool.not_eq_true] at hhere
      obtain ⟨hidle, rfl⟩ := todo_of_between h
      refine ⟨hidle, s.strayed, rfl, .inl rfl, fun _ _ _ => hhere, ?_⟩
      intro hc
      cases hc
  · split at h
    next hstrayed =>
      obtain ⟨hidle, rfl⟩ := todo_of_between h
      refine ⟨hidle, false, rfl, .inr ⟨rfl, rfl⟩, ?_, fun _ => hstrayed⟩
      intro _ _ _
      rfl
    · cases h
  next harm hfork =>
    obtain ⟨hidle, rfl⟩ := todo_of_between h
    refine ⟨hidle, s.strayed, rfl, .inl rfl, ?_, ?_⟩
    · intro periodNs io hc
      exact absurd hc (harm periodNs io)
    · intro hc
      exact absurd hc hfork

/-- A fault leaves what is to do. -/
theorem todo_deliverCrash {d : Delivery} (h : s.deliverCrash d = some t) : t.todo = s.todo := by
  unfold deliverCrash at h
  split at h
  · cases h
  · cases h
    rfl

/-- So does a signal. -/
theorem todo_deliverTimer {d : TimerDelivery} (h : s.deliverTimer d = some t) : t.todo = s.todo := by
  unfold deliverTimer at h
  split at h
  · cases h
  · cases h
    rfl

/-- What one step keeps: the code of a call is gone through, deliveries do not spoil it, and what others do
between two calls does not. -/
theorem Going.step (h : Going I J s)
    (hJ : ∀ {s t}, Worn s t → J s → J t) (hJI : ∀ s, J s → I s)
    (hcall : ∀ {s t c}, J s → ok (.call c) → s.begin c = some t →
      Throughout perform I t t.todo ∧ J (after perform t t.todo))
    (hother : ∀ {s t a}, J s → ok a → a.isOutside = true → s.step a = some t → J t)
    (hok : ok a) (hstep : HostSteps s a t) : Going I J t := by
  have hinterrupt : s.Worn t → t.todo = s.todo → Going I J t := by
    intro hworn htodo
    obtain ⟨s₀, code, hcode, hlast, hhalf⟩ := h
    rw [← htodo] at hhalf
    exact ⟨s₀, code, hcode, hlast, hhalf.interrupt Worn.trans hworn⟩
  have houtside : ∀ u, a.isOutside = true → s.between u = some t → u.todo = s.todo → Going I J t := by
    intro u ha hbetween htodo
    obtain ⟨hidle, rfl⟩ := todo_of_between hbetween
    exact .of_idle (hother (h.idle hJ hidle) hok ha hstep) hJI (htodo.trans hidle)
  unfold HostSteps at hstep
  cases a with
  -- A call begins between two calls, and an instruction of its code is the next.
  | call c =>
    obtain ⟨hidle, -⟩ := begin_cases hstep
    obtain ⟨hcode, hlast⟩ := hcall (h.idle hJ hidle) hok hstep
    exact ⟨t, t.todo, hcode, hlast, .start (.refl t)⟩
  | instr =>
    obtain ⟨s₀, code, hcode, hlast, hhalf⟩ := h
    simp only [Host.step] at hstep
    split at hstep
    · cases hstep
    next i rest htodo =>
      cases hstep
      rw [htodo] at hhalf
      refine ⟨s₀, code, hcode, hlast, ?_⟩
      exact (hhalf.next respects_worn).interrupt Worn.trans { Worn.refl _ with }
  | crash d =>
    exact hinterrupt (worn_deliverCrash hstep) (todo_deliverCrash hstep)
  | signal d =>
    simp only [Host.step] at hstep
    split at hstep
    · cases hstep
    · exact hinterrupt (worn_deliverTimer hstep) (todo_deliverTimer hstep)
  | expire overrun =>
    simp only [Host.step] at hstep
    split at hstep
    · exact hinterrupt (worn_deliverTimer hstep) (todo_deliverTimer hstep)
    · cases hstep
  | fork => exact houtside _ rfl hstep rfl
  | setAction x b =>
    apply houtside _ rfl hstep
    cases x <;> rfl
  | putBack x =>
    simp only [Host.step] at hstep
    split at hstep
    · apply houtside _ rfl hstep
      cases x <;> rfl
    · cases hstep
  | setAltStack stack =>
    simp only [Host.step] at hstep
    split at hstep
    · exact houtside _ rfl hstep rfl
    · cases hstep

/-- What holds between two calls of every run, and what at every moment of it. -/
theorem going_of_run (hJ : ∀ {s t}, Worn s t → J s → J t) (hJI : ∀ s, J s → I s)
    (hcall : ∀ {s t c}, J s → ok (.call c) → s.begin c = some t →
      Throughout perform I t t.todo ∧ J (after perform t t.todo))
    (hother : ∀ {s t a}, J s → ok a → a.isOutside = true → s.step a = some t → J t)
    (hs : Going I J s) (h : Run (Guarded (fun _ a => ok a) HostSteps) s as t) : Going I J t := by
  apply h.invariant _ hs
  intro s a t hs hstep
  exact hs.step hJ hJI hcall hother hstep.1 hstep.2

end

/-! ## What every run keeps -/

section
variable {as : List HostAction} {c : HostCall} {a : HostAction}

theorem crashInstall_congr (h : s.Worn t) (io : CrashStart) : s.crashInstall io = t.crashInstall io := by
  simp only [crashInstall, sigstackEnsure, h.crashInstalled, h.stack]

/-- What `MINIT` does is not changed by deliveries, and does not depend on what it has to do. -/
theorem minit_congr (h : s.Worn t) (timer : Option TimerStart) (crash : Option CrashStart) :
    s.minit timer crash = t.minit timer crash := by
  have hfirst : timer.elim [] s.timerInit = timer.elim [] t.timerInit := by
    cases timer with
    | none => rfl
    | some io => simp only [Option.elim, timerInit, sigstackEnsure, h.timer, h.stack]
  have hlater : (after perform s (timer.elim [] t.timerInit)).Worn (after perform t (timer.elim [] t.timerInit)) :=
    respects_worn.after h
  unfold minit
  rw [hfirst]
  cases crash with
  | none => rfl
  | some io =>
    show _ ++ (after perform s (timer.elim [] t.timerInit)).crashInstall io = _ ++ _
    rw [crashInstall_congr hlater]
    rfl

/-- The load has the code of the load to do. -/
theorem todo_minit {timer : Option TimerStart} {crash : Option CrashStart}
    (hbegin : s.begin (.minit timer crash) = some t) : t.todo = t.minit timer crash := by
  obtain ⟨-, rfl⟩ := todo_of_between hbegin
  have hworn : s.Worn { s with todo := HostCall.code s (.minit timer crash) } := { Worn.refl s with }
  exact minit_congr hworn timer crash

/-- Each call leads from a sound state to a sound one. -/
theorem leads_call (h : s.Sound alone []) (hbegin : s.begin c = some t) : Leads alone [] t t.todo := by
  obtain ⟨-, strayed, rfl, hstill, harm, hfork⟩ := begin_cases hbegin
  have ht : Sound alone [] { s with strayed := strayed, todo := c.code s } :=
    { h with
      strayed := by
        intro hyes
        rcases hstill with rfl | ⟨-, rfl⟩
        · exact h.strayed hyes
        · cases hyes }
  cases c with
  | minit timer crash =>
    have htodo := todo_minit hbegin
    rw [htodo]
    exact leads_minit ht timer crash
  | arm periodNs io => exact leads_timerArm ht periodNs io (harm periodNs io rfl)
  | disarm => exact leads_timerDisarm ht
  | afterFork => exact leads_timerAfterFork ht (h.strayed (hfork rfl))
  | mshutdown running => exact (leads_mshutdown ht running).1

/-- A step of others keeps the host sound. -/
theorem Sound.outside (h : s.Sound alone []) (hok : alone → ∀ b, a ≠ .setAction .timer b)
    (hout : a.isOutside = true) (hstep : s.step a = some t) : t.Sound alone [] := by
  cases a with
  | call c => cases hout
  | instr => cases hout
  | crash d => cases hout
  | signal d => cases hout
  | expire overrun => cases hout
  | fork =>
    obtain ⟨-, rfl⟩ := todo_of_between hstep
    have hchild : (s.mapTimer Timer.fork).Sound alone [] := by
      apply h.mapTimer rfl <;> simp [Timer.fork]
    exact { hchild with strayed := fun _ => rfl }
  -- An action that others put in is theirs, so fewer slots have the module's.
  | setAction x b =>
    obtain ⟨-, rfl⟩ := todo_of_between hstep
    constructor
    · intro y hnone
      rw [current_setCurrent] at hnone
      split at hnone
      · cases hnone
      · simpa using h.installed y hnone
    · intro y hy hstack
      simpa using h.ready y (by simpa using hy) (by simpa using hstack)
    · simpa using h.blocks
    · simpa using h.memory
    · simpa using h.alive
    · simpa using h.created
    · simpa using h.ticking
    · intro halone hinstalled
      have hx : Taken.timer ≠ x := by
        intro heq
        subst heq
        exact hok halone b rfl
      simpa [hx] using h.sampler halone (by simpa using hinstalled)
    · simpa using h.strayed
  | putBack x =>
    simp only [Host.step] at hstep
    split at hstep
    case isFalse => cases hstep
    next hinstalled =>
      obtain ⟨-, rfl⟩ := todo_of_between hstep
      constructor
      · intro y hnone
        by_cases heq : y = x
        · subst heq
          exact .inl (by simpa using hinstalled)
        · simpa using h.installed y (by simpa [heq] using hnone)
      · intro y hy hstack
        simpa using h.ready y (by simpa using hy) (by simpa using hstack)
      · simpa using h.blocks
      · simpa using h.memory
      · simpa using h.alive
      · simpa using h.created
      · simpa using h.ticking
      · intro halone htimer
        by_cases heq : Taken.timer = x
        · simp [heq]
        · simpa [heq] using h.sampler halone (by simpa using htimer)
      · simpa using h.strayed
  | setAltStack stack =>
    simp only [Host.step] at hstep
    split at hstep
    next hlive =>
      obtain ⟨-, rfl⟩ := todo_of_between hstep
      exact h.mapStack id h.blocks h.memory hlive
    · cases hstep

/-- The host is sound at first. -/
theorem sound_blank (previous : Signal → Sigaction) (timerAction : Sigaction) (foreign : Option Nat) :
    (blank previous timerAction foreign).Sound alone [] where
  installed x hnone := by
    cases x <;> cases hnone
  ready x hx _ := by
    rcases hx with hinstalled | hnil
    · cases x <;> cases hinstalled
    · cases hnil
  blocks := rfl
  memory hno := by cases hno
  alive := by cases foreign <;> rfl
  created hno := absurd rfl hno
  ticking hno := by cases hno
  sampler _ hno := by cases hno
  strayed hno := by cases hno

/-- Runs in which `alone` means that nobody else takes the timer's signal. -/
theorem going_sound (halone : alone → ∀ b, .setAction .timer b ∉ as) (hs : s.Sound alone []) (hidle : s.todo = [])
    (h : HostRun s as t) : Going (Safe alone) (Sound alone []) t := by
  have hguarded : Run (Guarded (fun _ a => alone → ∀ b, a ≠ .setAction .timer b) HostSteps) s as t := by
    apply h.guarded
    intro a ha hal b heq
    exact halone hal b (heq ▸ ha)
  refine going_of_run ?_ ?_ ?_ ?_ (.of_idle hs (fun s hs => hs.safe) hidle) hguarded
  · intro s t hworn hs
    exact hs.worn hworn
  · intro s hs
    exact hs.safe
  · intro s t c hs _ hbegin
    exact leads_call hs hbegin
  · intro s t a hs hok hout hstep
    exact hs.outside hok hout hstep

end

end Host

end CboxTelemetry.Extension
