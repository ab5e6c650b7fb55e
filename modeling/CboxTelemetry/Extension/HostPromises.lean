import CboxTelemetry.Extension.HostRuns

/-!
# What the process can rely on

Three promises to the process that the module is loaded into, each for every run: with signals between any two
calls of the kernel, with forks, and with other extensions that take the same signals (`stack_alive`,
`expiry_counted`, `unload_restores`).
-/

namespace CboxTelemetry.Extension

open Profiler (Timer TimerIo TimerSignal TimerDelivery TimerFate)
open Signals (Signal Sigaction Delivery crashSignals)
open StraightLine (after Throughout Halfway)

namespace Host

variable {previous : Signal → Sigaction} {timerAction : Sigaction} {foreign : Option Nat} {s t s₀ : Host}
  {as bs : List HostAction} {a : HostAction}

/-! ## The alternate stack -/

/-- A process that handles the signals itself. -/
def handled : Host := blank (fun _ => ⟨.function 4096, true, false⟩) ⟨.function 8192, true, false⟩ none

/-- `MINIT` with both parts, and a signal of somebody else before the second. -/
def loading : List HostAction :=
  .call (.minit (some ⟨⟨true, some 64, true⟩, true⟩)
      (some ⟨some (ascii "/var/crash"), ⟨true, some 64, true⟩, fun _ => true⟩)) ::
    (List.replicate 5 .instr ++ .signal ⟨false, false, 0, true⟩ :: List.replicate 5 .instr)

/-- A fault that the process survives comes between the calls of `MINIT`. -/
def faulted : List HostAction := loading.take 10 ++ [.crash ⟨.segv, true, true⟩]

/-- **No handler loses its stack.** Wherever a signal comes, the kernel's alternate stack is not one that was
freed, a handler of the module that runs on the alternate stack still has it, and between two calls there are
handlers of the module only where it is installed. -/
theorem stack_alive (h : HostRun (blank previous timerAction foreign) as s) :
    s.stack.altStack.isLive s.stack.blocks = true ∧
      (∀ x, s.current x = none → s.onStack x = true →
        s.stack.ready = true ∧ ∀ block, s.stack.memory = some block → block ∈ s.stack.blocks) ∧
      (s.todo = [] → ∀ x, s.current x = none → s.installed x = true) := by
  have hgoing : Going (Safe False) (Sound False []) s := going_sound False.elim (sound_blank _ _ _) rfl h
  have hsafe : s.Safe False := hgoing.now fun hworn hs => hs.worn hworn
  refine ⟨hsafe.alive, hsafe.stack, ?_⟩
  intro hidle x hnone
  have hsound : s.Sound False [] := hgoing.idle (fun hworn hs => hs.worn hworn) hidle
  exact (hsound.installed x hnone).resolve_right List.not_mem_nil

/-- A fault in a run, with the stacks set and the process safe. -/
theorem stack_alive_faulted : ∃ s, HostRun handled faulted s ∧ s.current (.crash .abrt) = none ∧
    s.stack.altStack.isLive s.stack.blocks = true ∧
      (∀ x, s.current x = none → s.onStack x = true →
        s.stack.ready = true ∧ ∀ block, s.stack.memory = some block → block ∈ s.stack.blocks) ∧
      (s.todo = [] → ∀ x, s.current x = none → s.installed x = true) := by
  have htakes : (takes (fun _ _ => True) Host.step handled faulted).map (fun s => s.current (.crash .abrt)) =
      some none := by
    decide +kernel
  obtain ⟨s, hs, hcurrent⟩ := Option.map_eq_some_iff.mp htakes
  have hrun := hostRun_of_takes hs
  exact ⟨s, hrun, hcurrent, stack_alive hrun⟩

/-! ## The timer -/

/-- An expiry stands for itself and its overruns. -/
theorem ticks_expired {overrun : Nat} (hrange : overrun < 2 ^ 31) : (expired overrun).ticks = 1 + overrun := by
  show (if (0 : Int) < overrun then Profiler.u32 (1 + Profiler.u32 (overrun : Int).toNat) else 1) = 1 + overrun
  by_cases hpos : 0 < overrun
  · rw [if_pos (by exact_mod_cast hpos), Int.toNat_natCast]
    simp only [Profiler.u32]
    omega
  · rw [if_neg (by exact_mod_cast hpos)]
    omega

/-- **An expired timer is counted.** Wherever the timer expires, its ticks are counted if the handler is still
the module's, and it is so unless somebody else has taken the timer's signal: no expiry is handed on as
somebody else's signal. -/
theorem expiry_counted (h : HostRun (blank previous timerAction foreign) as s)
    (hticking : s.sampler.timer.kernel = .ticking) {overrun : Nat} (hrange : overrun < 2 ^ 31) :
    ((s.sampler.deliver (expired overrun)).1 = .counted (1 + overrun) ↔ s.current .timer = none) ∧
      ((∀ b, .setAction .timer b ∉ as) → s.current .timer = none) := by
  have hsafe : s.Safe (∀ b, .setAction .timer b ∉ as) :=
    (going_sound id (sound_blank _ _ _) rfl h).now fun hworn hs => hs.worn hworn
  refine ⟨?_, fun halone => hsafe.sampler halone hticking⟩
  cases hdisposition : s.sampler.disposition with
  | action b =>
    apply iff_of_false
    · intro hcounted
      have hnever := TimerSignal.isCounted_deliverAction s.sampler b
      rw [← TimerSignal.deliver_of_action (d := expired overrun) hdisposition, hcounted] at hnever
      cases hnever
    · simp [current, hdisposition]
  | sampler =>
    apply iff_of_true
    · have hown : s.sampler.isOwn (expired overrun) = true := by
        simp [TimerSignal.isOwn, expired, hsafe.created hticking]
      rw [TimerSignal.deliver_of_sampler hdisposition, TimerSignal.handle_own hown, ticks_expired hrange]
    · simp [current, hdisposition]

/-- The timer is armed, and its signal is taken from the module and put back. -/
def arming : List HostAction :=
  [.call (.arm 1000000 ⟨true, true⟩), .instr, .instr, .instr, .instr,
    .setAction .timer ⟨.function 12288, false, false⟩, .putBack .timer]

/-- An expiry while another's handler has been put in and the module's put back. -/
theorem expiry_counted_armed : ∃ s, HostRun handled (loading ++ arming) s ∧
    s.sampler.timer.kernel = .ticking ∧
    ((s.sampler.deliver (expired 2)).1 = .counted (1 + 2) ↔ s.current .timer = none) ∧
      ((∀ b, .setAction .timer b ∉ loading ++ arming) → s.current .timer = none) := by
  have htakes : (takes (fun _ _ => True) Host.step handled (loading ++ arming)).map
      (fun s => s.sampler.timer.kernel) = some .ticking := by
    decide +kernel
  obtain ⟨s, hs, hticking⟩ := Option.map_eq_some_iff.mp htakes
  have hrun := hostRun_of_takes hs
  exact ⟨s, hrun, hticking, expiry_counted hrun hticking (by decide)⟩

/-! ## What is given back -/

/-- The signals that are installed, or `extra`, were found as they are in `base`, and the others are still as
they are there. -/
structure Took (base : Taken → Option Sigaction) (extra : List Taken) (s : Host) : Prop where
  taken : ∀ x, s.installed x = true ∨ x ∈ extra → base x = some (s.saved x)
  rest : ∀ x, s.installed x = false → x ∉ extra → s.current x = base x

variable {base : Taken → Option Sigaction} {extra : List Taken}

/-- Taking a slot saves what was there. -/
theorem Took.take (h : s.Took base extra) {x : Taken} (hbase : base x ≠ none) (hout : s.installed x = false)
    (hnew : x ∉ extra) : (s.perform (.take x)).Took base (x :: extra) where
  taken y hy := by
    by_cases heq : y = x
    · subst heq
      obtain ⟨b, hb⟩ := Option.ne_none_iff_exists'.mp hbase
      simp [perform, found, h.rest y hout hnew, hb]
    · have hbefore : s.installed y = true ∨ y ∈ extra := by
        rcases hy with hinstalled | hmem
        · exact .inl (by simpa [perform] using hinstalled)
        · exact .inr ((List.mem_cons.mp hmem).resolve_left heq)
      simpa [perform, heq] using h.taken y hbefore
  rest y hinstalled hmem := by
    have heq : y ≠ x := by
      intro heq
      exact hmem (by simp [heq])
    have hbefore := h.rest y (by simpa [perform] using hinstalled) fun hin => hmem (List.mem_cons_of_mem _ hin)
    simpa [perform, heq] using hbefore

/-- A signal is given back. -/
theorem Took.giveBack (h : s.Took base extra) {x : Taken} (hbase : base x = some (s.saved x)) :
    (s.perform (.giveBack x)).Took base (extra.filter (· ≠ x)) where
  taken y hy := by
    have hbefore : s.installed y = true ∨ y ∈ extra := by
      rcases hy with hinstalled | hin
      · exact .inl (by simpa [perform] using hinstalled)
      · exact .inr (List.mem_filter.mp hin).1
    simpa [perform] using h.taken y hbefore
  rest y hinstalled hout := by
    by_cases heq : y = x
    · subst heq
      simpa [perform] using hbase.symm
    · have hbefore : y ∉ extra := by
        intro hin
        exact hout (List.mem_filter.mpr ⟨hin, by simpa using heq⟩)
      simpa [perform, heq] using h.rest y (by simpa [perform] using hinstalled) hbefore

/-- What is given back is again what was there. -/
theorem took_giveBack (h : s.Took base extra) {signals : List Signal}
    (hextra : ∀ x ∈ extra, x ∈ signals.map .crash)
    (hbase : ∀ signal ∈ signals, base (.crash signal) = some (s.saved (.crash signal))) :
    (after perform s (signals.map fun signal => .giveBack (.crash signal))).Took base [] := by
  induction signals generalizing s extra with
  | nil =>
    obtain rfl := eq_nil_of_crash_mem hextra
    exact h
  | cons signal signals ih =>
    have hback := h.giveBack (hbase signal List.mem_cons_self)
    apply ih hback (crash_mem_of_filter hextra)
    · intro other hother
      simpa [perform] using hbase other (List.mem_cons_of_mem _ hother)

/-- Where nothing is installed, nothing has been taken. -/
theorem took_current (hout : ∀ x, s.installed x = false) : s.Took s.current [] where
  taken x hx := by
    rcases hx with hinstalled | hnil
    · rw [hout x] at hinstalled
      cases hinstalled
    · cases hnil
  rest x _ _ := rfl

theorem Took.stack (h : s.Took base extra) (stack : SigStack) : Took base extra { s with stack := stack } where
  taken := h.taken
  rest := h.rest

/-- What is left to do has no part in it. -/
theorem Took.todo (h : s.Took base extra) (todo : List HostInstr) :
    Took base extra { s with todo := todo } where
  taken := h.taken
  rest := h.rest

/-- Setting up the stack changes the stack alone. -/
theorem after_sigstackEnsure (s : Host) (io : StackIo) :
    ∃ stack, after perform s (s.sigstackEnsure io) = { s with stack := stack } := by
  unfold sigstackEnsure
  split
  · exact ⟨s.stack, rfl⟩
  · split
    · exact ⟨_, rfl⟩
    · split
      · exact ⟨_, rfl⟩
      · split
        · exact ⟨_, rfl⟩
        · exact ⟨_, rfl⟩

/-- What the timer took, it saved. -/
theorem took_timerInit (h : s.Took base []) (hbase : ∀ x, base x ≠ none) (io : TimerStart) :
    (after perform s (s.timerInit io)).Took base [] := by
  unfold timerInit
  split
  · exact h
  next hout =>
    rw [Bool.not_eq_true] at hout
    rw [StraightLine.after_append]
    obtain ⟨stack, hensure⟩ := after_sigstackEnsure s io.stack
    rw [hensure]
    split
    · have htook := (h.stack stack).take (hbase .timer) hout List.not_mem_nil
      constructor
      · intro x hx
        apply htook.taken x
        cases x with
        | crash signal => exact .inl (hx.resolve_right List.not_mem_nil)
        | timer => exact .inr (by simp)
      · intro x hinstalled _
        cases x with
        | crash signal => exact htook.rest (.crash signal) hinstalled (by simp)
        | timer => cases hinstalled
    · exact h.stack stack

/-- What the loop took, it saved, and what it gave back is not held. -/
theorem took_installLoop (ok : Signal → Bool) {done signals : List Signal}
    (h : s.Took base (done.map .crash)) (hbase : ∀ x, base x ≠ none) (hout : s.crash.installed = false)
    (hnew : (done.reverse ++ signals).Nodup) (hall : ∀ signal, signal ∈ done ∨ signal ∈ signals) :
    (after perform s (installLoop ok done signals)).Took base [] := by
  induction signals generalizing s done with
  | nil =>
    constructor
    · intro x hx
      apply h.taken x
      cases x with
      | crash signal =>
        exact .inr (List.mem_map.mpr ⟨signal, (hall signal).resolve_right List.not_mem_nil, rfl⟩)
      | timer => exact .inl (hx.resolve_right List.not_mem_nil)
    · intro x hinstalled _
      cases x with
      | crash signal => cases hinstalled
      | timer => exact h.rest .timer hinstalled (by simp)
  | cons signal signals ih =>
    unfold installLoop
    split
    · have hfresh : signal ∉ done := by
        intro hin
        exact (List.nodup_append.mp hnew).2.2 signal (List.mem_reverse.mpr hin) signal List.mem_cons_self rfl
      apply ih
      · rw [List.map_cons]
        apply h.take (x := .crash signal) (hbase _) hout
        simpa using hfresh
      · simpa [perform] using hout
      · simpa using hnew
      · exact mem_done_cons hall
    · apply took_giveBack h
      · intro x hx
        exact hx
      · intro other hother
        exact h.taken _ (.inr (List.mem_map.mpr ⟨other, hother, rfl⟩))

/-- What the crash handlers took, they saved. -/
theorem took_crashInstall (h : s.Took base []) (hbase : ∀ x, base x ≠ none) (io : CrashStart) :
    (after perform s (s.crashInstall io)).Took base [] := by
  unfold crashInstall
  split
  · exact h
  next hout =>
    rw [Bool.not_eq_true] at hout
    split
    · exact h
    · split
      · exact h
      · rw [StraightLine.after_append]
        obtain ⟨stack, hensure⟩ := after_sigstackEnsure s io.stack
        rw [hensure]
        have htook : Took base (([] : List Signal).map .crash) { s with stack := stack } := h.stack stack
        apply took_installLoop io.sigactionOk htook hbase
        · exact hout
        · decide
        · intro signal
          exact .inr (mem_crashSignals signal)

/-- What the load took, it saved. -/
theorem took_minit (h : s.Took base []) (hbase : ∀ x, base x ≠ none) (timer : Option TimerStart)
    (crash : Option CrashStart) : (after perform s (s.minit timer crash)).Took base [] := by
  unfold minit
  rw [StraightLine.after_append]
  have hfirst : (after perform s (timer.elim [] s.timerInit)).Took base [] := by
    cases timer with
    | none => exact h
    | some io => exact took_timerInit h hbase io
  cases crash with
  | none => exact hfirst
  | some io => exact took_crashInstall hfirst hbase io

/-- The module has found, of the signals that it has now, what they did in `base`. -/
def Remembers (base : Taken → Option Sigaction) (s : Host) : Prop :=
  ∀ x, s.installed x = true → ∃ b, base x = some b ∧ Later b (s.saved x)

/-- Wear leaves what is remembered. -/
theorem Remembers.worn (h : s.Remembers base) (hworn : s.Worn t) : t.Remembers base := by
  intro x hinstalled
  rw [hworn.installed] at hinstalled
  obtain ⟨b, hb, hlater⟩ := h x hinstalled
  exact ⟨b, hb, hlater.trans (hworn.saved x)⟩

/-- What is remembered is read from two things. -/
theorem Remembers.congr (h : s.Remembers base) (hinstalled : ∀ x, t.installed x = s.installed x)
    (hsaved : ∀ x, t.saved x = s.saved x) : t.Remembers base := by
  intro x hx
  rw [hinstalled] at hx
  rw [hsaved]
  exact h x hx

/-- The calls between loading and unloading are about the timer. -/
theorem onTimer_code (s : Host) {c : HostCall} (hload : ∀ timer crash, c ≠ .minit timer crash)
    (hunload : ∀ running, c ≠ .mshutdown running) : ∀ i ∈ c.code s, onTimer i = true := by
  intro i hi
  cases c with
  | minit timer crash => exact absurd rfl (hload timer crash)
  | mshutdown running => exact absurd rfl (hunload running)
  | disarm => exact onTimer_timerDisarm s i hi
  | afterFork =>
    rcases List.mem_pair.mp hi with rfl | rfl
    · rfl
    · rfl
  | arm periodNs io =>
    have hstart : ∀ j ∈ [HostInstr.timerSet true, .setArmed true], onTimer j = true := by decide
    change i ∈ s.timerArm periodNs io at hi
    unfold timerArm at hi
    split at hi
    · cases hi
    · split at hi
      · split at hi
        · cases hi
        · exact hstart i hi
      · split at hi
        · rcases List.mem_append.mp hi with hcreate | hset
          · rcases List.mem_pair.mp hcreate with rfl | rfl
            · rfl
            · rfl
          · split at hset
            · exact hstart i hset
            · cases hset
        · cases hi

/-- No call between load and unload forgets. -/
theorem Remembers.call {c : HostCall} (h : s.Remembers base) (hbegin : s.begin c = some t)
    (hload : ∀ timer crash, c ≠ .minit timer crash) (hunload : ∀ running, c ≠ .mshutdown running) :
    (after perform t t.todo).Remembers base := by
  obtain ⟨-, strayed, rfl, -⟩ := begin_cases hbegin
  have hcode := onTimer_code s hload hunload
  obtain ⟨f, hafter, hf⟩ := after_onTimer hcode { s with strayed := strayed, todo := c.code s }
  rw [hafter]
  apply h.congr
  · intro x
    cases x with
    | crash signal => rfl
    | timer => exact hf _
  · intro x
    cases x <;> rfl

/-- What somebody else does is not about what the module has found. -/
theorem Remembers.outside (h : s.Remembers base) (hout : a.isOutside = true) (hstep : s.step a = some t) :
    -- No step of others writes to what the module saved.
    t.Remembers base := by
  cases a with
  | call c => cases hout
  | instr => cases hout
  | crash d => cases hout
  | signal d => cases hout
  | expire overrun => cases hout
  | fork =>
    obtain ⟨-, rfl⟩ := todo_of_between hstep
    apply h.congr
    · intro x
      cases x <;> rfl
    · intro x
      cases x <;> rfl
  | setAction x b =>
    obtain ⟨-, rfl⟩ := todo_of_between hstep
    exact h.congr (by simp) (by simp)
  | putBack x =>
    simp only [Host.step] at hstep
    split at hstep
    case isFalse => cases hstep
    obtain ⟨-, rfl⟩ := todo_of_between hstep
    exact h.congr (by simp) (by simp)
  | setAltStack stack =>
    simp only [Host.step] at hstep
    split at hstep
    case isFalse => cases hstep
    obtain ⟨-, rfl⟩ := todo_of_between hstep
    exact h.congr (fun _ => rfl) (fun _ => rfl)

/-- From the beginning of `MINIT` on, as long as the module is not unloaded or loaded again. -/
theorem remembers_of_run (hs : s₀.Sound False []) (hout : ∀ x, s₀.installed x = false)
    {timer : Option TimerStart} {crash : Option CrashStart}
    (h : HostRun s₀ (.call (.minit timer crash) :: as) s)
    (hload : ∀ timer crash, .call (.minit timer crash) ∉ as) (hunload : ∀ running, .call (.mshutdown running) ∉ as)
    (hidle : s.todo = []) : s.Sound False [] ∧ s.Remembers s₀.current := by
  cases h with
  | @cons _ t _ _ _ hbegin hrest =>
    have hfirst : s₀.begin (.minit timer crash) = some t := hbegin
    have hleads : Leads False [] t t.todo := leads_call hs hfirst
    have htodo := todo_minit hfirst
    obtain ⟨-, hstart⟩ := todo_of_between hfirst
    have hbase : ∀ x, s₀.current x ≠ none := by
      intro x hnone
      rcases hs.installed x hnone with hinstalled | hnil
      · rw [hout x] at hinstalled
        cases hinstalled
      · cases hnil
    -- Nothing is taken before the load, so what it saves is what was there.
    have htook : t.Took s₀.current [] := by
      rw [hstart]
      exact (took_current hout).todo _
    have hlast := took_minit htook hbase timer crash
    rw [← htodo] at hlast
    have hremembers : (after perform t t.todo).Remembers s₀.current := by
      intro x hinstalled
      exact ⟨_, hlast.taken x (.inl hinstalled), .refl _⟩
    have hgoing : Going (fun _ => True) (fun u => u.Sound False [] ∧ u.Remembers s₀.current) t :=
      ⟨t, t.todo, hleads.1.mono fun _ _ => trivial, ⟨hleads.2, hremembers⟩, .start (.refl t)⟩
    have hguarded : Run (Guarded (fun _ a => (∀ timer crash, a ≠ .call (.minit timer crash)) ∧
        ∀ running, a ≠ .call (.mshutdown running)) HostSteps) t as s := by
      apply hrest.guarded
      intro a ha
      constructor
      · intro timer crash heq
        exact hload timer crash (heq ▸ ha)
      · intro running heq
        exact hunload running (heq ▸ ha)
    have hworn : ∀ {u v : Host}, Worn u v → u.Sound False [] ∧ u.Remembers s₀.current →
        v.Sound False [] ∧ v.Remembers s₀.current := fun hworn hu => ⟨hu.1.worn hworn, hu.2.worn hworn⟩
    -- From there to the unload every call leads from sound to sound, and nothing that is saved is written.
    apply (going_of_run hworn (fun _ _ => trivial) ?_ ?_ hgoing hguarded).idle hworn hidle
    · intro u v c hu hok hbegin
      have hv := leads_call hu.1 hbegin
      refine ⟨hv.1.mono fun _ _ => trivial, hv.2, ?_⟩
      apply hu.2.call hbegin
      · intro timer crash heq
        exact hok.1 timer crash (congrArg HostAction.call heq)
      · intro running heq
        exact hok.2 running (congrArg HostAction.call heq)
    · intro u v a hu _ hout hstep
      exact ⟨hu.1.outside (fun hno => hno.elim) hout hstep, hu.2.outside hout hstep⟩

/-- From the beginning of `MSHUTDOWN` to its end. -/
theorem unloaded_of_run (hs : s.Sound False []) {running : Bool}
    (h : HostRun s (.call (.mshutdown running) :: bs) t) (hinside : ∀ a ∈ bs, a.isInside = true)
    (hidle : t.todo = []) : ∃ u, Unloaded s u ∧ u.Worn t := by
  cases h with
  | @cons _ v _ _ _ hfirst hrest =>
    obtain ⟨-, rfl⟩ := todo_of_between hfirst
    have hv : Sound False [] { s with todo := HostCall.code s (.mshutdown running) } := { hs with }
    obtain ⟨hleads, hunloaded⟩ := leads_mshutdown hv running
    refine ⟨after perform { s with todo := HostCall.code s (.mshutdown running) } (s.mshutdown running), ?_, ?_⟩
    · exact ⟨hunloaded.current, hunloaded.installed, hunloaded.kernel, hunloaded.blocks, hunloaded.altStack⟩
    -- Signals inside the unload wear what it has, and no other step comes in.
    · generalize hu : after perform _ _ = u
      have hgoing : Going (fun _ => True) u.Worn { s with todo := HostCall.code s (.mshutdown running) } :=
        ⟨_, s.mshutdown running, hleads.1.mono fun _ _ => trivial, hu ▸ .refl _, .start (.refl _)⟩
      have hguarded : Run (Guarded (fun _ a => a.isInside = true) HostSteps)
          { s with todo := HostCall.code s (.mshutdown running) } bs t := hrest.guarded hinside
      apply (going_of_run (fun hv hw => hw.trans hv) (fun _ _ => trivial) ?_ ?_ hgoing hguarded).idle (fun hv hw => hw.trans hv) hidle
      · intro v w c _ hno
        cases hno
      · intro v w a _ hin hout
        cases a <;> simp [HostAction.isInside, HostAction.isOutside] at hin hout

/-- **Unloading gives back what loading has found.** Between the two the process can do anything, and others
can take the signals from the module. Afterwards every signal that the module had does what it did when the
module was loaded, and every other one what it did before the unloading, apart from handlers that are called
once. The timer is gone, nothing of the module's memory is left, and the alternate stack is the one there was,
except that it is none at all, whoever's it was, if the module had memory for one of its own. -/
theorem unload_restores {as₀ : List HostAction} (h₀ : HostRun (blank previous timerAction foreign) as₀ s₀)
    (hidle₀ : s₀.todo = []) (hout : ∀ x, s₀.installed x = false) {timer : Option TimerStart}
    {crash : Option CrashStart} (h : HostRun s₀ (.call (.minit timer crash) :: as) s)
    (hload : ∀ timer crash, .call (.minit timer crash) ∉ as) (hunload : ∀ running, .call (.mshutdown running) ∉ as)
    (hidle : s.todo = []) {running : Bool} (h' : HostRun s (.call (.mshutdown running) :: bs) t)
    (hinside : ∀ a ∈ bs, a.isInside = true) (hidle' : t.todo = []) :
    (∀ x, ∃ b b', (if s.installed x then s₀.current x else s.current x) = some b ∧ t.current x = some b' ∧
        Later b b') ∧
      (∀ x, t.installed x = false) ∧ t.sampler.timer.kernel = .none ∧ t.stack.blocks = [] ∧
      t.stack.altStack = if s.stack.memory = none then s.stack.altStack else .disabled := by
  have hsound₀ : s₀.Sound False [] :=
    (going_sound False.elim (sound_blank _ _ _) rfl h₀).idle (fun hworn hs => hs.worn hworn) hidle₀
  obtain ⟨hsound, hremembers⟩ := remembers_of_run hsound₀ hout h hload hunload hidle
  obtain ⟨u, hunloaded, hworn⟩ := unloaded_of_run hsound h' hinside hidle'
  refine ⟨?_, ?_, ?_, ?_, ?_⟩
  -- A slot that was installed has the action remembered, and one that was not is as it was.
  · intro x
    have hslot := hworn.slots x
    rw [hunloaded.current] at hslot
    cases hinstalled : s.installed x with
    | true =>
      obtain ⟨b, hb, hlater⟩ := hremembers x hinstalled
      rw [hinstalled, if_pos rfl] at hslot
      generalize ht : t.current x = o at hslot
      cases hslot with
      | @action _ b' hlater' => exact ⟨b, b', by simpa using hb, rfl, hlater.trans hlater'⟩
    | false =>
      rw [hinstalled, if_neg Bool.false_ne_true] at hslot
      cases hcurrent : s.current x with
      | none =>
        rcases hsound.installed x hcurrent with hno | hno
        · rw [hinstalled] at hno
          cases hno
        · cases hno
      | some b =>
        rw [hcurrent] at hslot
        generalize ht : t.current x = o at hslot
        cases hslot with
        | @action _ b' hlater => exact ⟨b, b', by simp, rfl, hlater⟩
  · intro x
    rw [hworn.installed]
    exact hunloaded.installed x
  · rw [hworn.timer]
    exact hunloaded.kernel
  · rw [hworn.stack]
    exact hunloaded.blocks
  · rw [hworn.stack]
    exact hunloaded.altStack

/-- `MSHUTDOWN` of a profiler that runs, with a fault after the first signal was given back. -/
def unloading : List HostAction :=
  [.instr, .crash ⟨.abrt, false, true⟩] ++ List.replicate 16 .instr

/-- A load, a unit and an unload, with signals inside both. -/
theorem unload_restores_armed : ∃ s t, HostRun handled (loading ++ arming) s ∧
    HostRun s (.call (.mshutdown true) :: unloading) t ∧ t.todo = [] ∧
    (∀ x, ∃ b b', (if s.installed x then handled.current x else s.current x) = some b ∧ t.current x = some b' ∧
        Later b b') ∧
      (∀ x, t.installed x = false) ∧ t.sampler.timer.kernel = .none ∧ t.stack.blocks = [] ∧
      t.stack.altStack = if s.stack.memory = none then s.stack.altStack else .disabled := by
  have htakes : ((takes (fun _ _ => True) Host.step handled (loading ++ arming)).bind fun s =>
      (takes (fun _ _ => True) Host.step s (.call (.mshutdown true) :: unloading)).map fun t =>
        (s.todo, t.todo)) = some ([], []) := by
    decide +kernel
  obtain ⟨s, hs, hrest⟩ := Option.bind_eq_some_iff.mp htakes
  obtain ⟨t, ht, htodo⟩ := Option.map_eq_some_iff.mp hrest
  obtain ⟨hidle, hidle'⟩ := Prod.mk.inj htodo
  have hrun := hostRun_of_takes hs
  have hrun' := hostRun_of_takes ht
  refine ⟨s, t, hrun, hrun', hidle', unload_restores (.nil _) rfl ?_ hrun ?_ ?_ hidle hrun' ?_ hidle'⟩
  · intro x
    cases x <;> rfl
  · intro timer crash hmem
    simp [arming] at hmem
  · intro running hmem
    simp [arming] at hmem
  · decide

end Host

end CboxTelemetry.Extension
