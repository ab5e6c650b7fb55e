import CboxTelemetry.Extension.HostSlots

/-!
# What holds while the module is loaded

Between two calls the statics of the module are `Sound`: they say which dispositions are the module's, whose
stack its handlers run on, and whether its timer is there. Inside a call less is true, but enough for a signal
that comes there (`Safe`). Each function is shown to lead from `Sound` to `Sound`, with `Safe` in between.
-/

namespace CboxTelemetry.Extension

open Profiler (Timer TimerIo)
open Signals (Signal Sigaction crashSignals)
open StraightLine (after Throughout)

namespace Host

/-- What a signal finds, wherever it comes. With `alone`, nobody else has ever taken the timer's signal. -/
structure Safe (alone : Prop) (s : Host) : Prop where
  /-- The kernel has no stack that was freed. -/
  alive : s.stack.altStack.isLive s.stack.blocks = true
  /-- A handler of the module that needs the alternate stack has it. -/
  stack : ∀ x, s.current x = none → s.onStack x = true →
    s.stack.ready = true ∧ ∀ block, s.stack.memory = some block → block ∈ s.stack.blocks
  /-- The handler knows the timer that it is called for. -/
  created : s.sampler.timer.kernel = .ticking → s.sampler.timer.created = true
  sampler : alone → s.sampler.timer.kernel = .ticking → s.current .timer = none

/-- What holds between two calls, and in a call that has taken the signals `extra` and has not noted that
yet. -/
structure Sound (alone : Prop) (extra : List Taken) (s : Host) : Prop where
  installed : ∀ x, s.current x = none → s.installed x = true ∨ x ∈ extra
  ready : ∀ x, s.installed x = true ∨ x ∈ extra → s.onStack x = true → s.stack.ready = true
  blocks : s.stack.blocks = s.stack.memory.toList
  memory : s.stack.memory.isSome = true → s.stack.ready = true
  alive : s.stack.altStack.isLive s.stack.blocks = true
  created : s.sampler.timer.kernel ≠ .none → s.sampler.timer.created = true
  ticking : s.sampler.timer.kernel = .ticking → s.sampler.timer.installed = true
  sampler : alone → s.sampler.timer.installed = true → s.current .timer = none
  strayed : s.strayed = true → s.sampler.timer.kernel = .none

variable {alone : Prop} {extra : List Taken} {s t : Host}

/-- Wear keeps the host safe. -/
theorem Safe.worn (h : s.Safe alone) (hworn : s.Worn t) : t.Safe alone where
  alive := by
    rw [hworn.stack]
    exact h.alive
  stack x hnone hstack := by
    rw [hworn.onStack] at hstack
    rw [hworn.stack]
    exact h.stack x (hworn.current_none hnone) hstack
  created := by
    rw [hworn.timer]
    exact h.created
  sampler := by
    rw [hworn.timer]
    intro halone hticking
    exact hworn.sampler (h.sampler halone hticking)

/-- And sound. -/
theorem Sound.worn (h : s.Sound alone extra) (hworn : s.Worn t) : t.Sound alone extra where
  installed x hnone := by
    rw [hworn.installed]
    exact h.installed x (hworn.current_none hnone)
  ready x := by
    rw [hworn.installed, hworn.onStack, hworn.stack]
    exact h.ready x
  blocks := by
    rw [hworn.stack]
    exact h.blocks
  memory := by
    rw [hworn.stack]
    exact h.memory
  alive := by
    rw [hworn.stack]
    exact h.alive
  created := by
    rw [hworn.timer]
    exact h.created
  ticking := by
    rw [hworn.timer]
    exact h.ticking
  sampler := by
    rw [hworn.timer]
    intro halone hinstalled
    exact hworn.sampler (h.sampler halone hinstalled)
  strayed := by
    rw [hworn.strayed, hworn.timer]
    exact h.strayed

/-- A sound host is safe at every moment. -/
theorem Sound.safe (h : s.Sound alone extra) : s.Safe alone where
  alive := h.alive
  stack x hnone hstack := by
    refine ⟨h.ready x (h.installed x hnone) hstack, ?_⟩
    intro block hblock
    rw [h.blocks, hblock]
    exact List.mem_singleton_self block
  created hticking := by
    apply h.created
    rw [hticking]
    intro hnone
    cases hnone
  sampler halone hticking := h.sampler halone (h.ticking hticking)

/-! ## Taking a signal and giving it back -/

section
variable (s) (x y : Taken)

@[simp] theorem installed_setCurrent (o : Option Sigaction) : (s.setCurrent x o).installed y = s.installed y := by
  cases y <;> simp [installed]

@[simp] theorem installed_save (a : Sigaction) : (s.save a x).installed y = s.installed y := by
  cases y <;> simp [installed]

@[simp] theorem installed_setOnStack (v : Bool) : (s.setOnStack v x).installed y = s.installed y := by
  cases y <;> simp [installed]

end

/-- Taking a slot adds it to those that the load has taken. -/
theorem Sound.take (h : s.Sound alone extra) (x : Taken) : (s.perform (.take x)).Sound alone (x :: extra) where
  installed y hnone := by
    by_cases heq : y = x
    · exact .inr (by simp [heq])
    -- The slot taken has no action of others any more. The rest of them are as they were.
    · simp only [perform, current_setOnStack, current_setCurrent, if_neg heq, current_save] at hnone
      rcases h.installed y hnone with hinstalled | hextra
      · exact .inl (by simpa [perform] using hinstalled)
      · exact .inr (List.mem_cons_of_mem _ hextra)
  ready y hy hstack := by
    simp only [perform, onStack_setOnStack, onStack_setCurrent, onStack_save] at hstack
    show (s.perform (.take x)).stack.ready = true
    simp only [perform, stack_setOnStack, stack_setCurrent, stack_save]
    split at hstack
    · exact hstack
    next hother =>
      apply h.ready y _ hstack
      rcases hy with hinstalled | hextra
      · exact .inl (by simpa [perform] using hinstalled)
      · rcases List.mem_cons.mp hextra with rfl | hextra
        · exact absurd rfl hother
        · exact .inr hextra
  blocks := by simpa [perform] using h.blocks
  memory := by simpa [perform] using h.memory
  alive := by simpa [perform] using h.alive
  created := by simpa [perform] using h.created
  ticking := by simpa [perform] using h.ticking
  sampler halone hinstalled := by
    by_cases heq : Taken.timer = x
    · simp [perform, heq]
    · simpa [perform, heq] using h.sampler halone (by simpa [perform] using hinstalled)
  strayed := by simpa [perform] using h.strayed

/-- Giving a signal back, when the timer's is not in use. -/
theorem Sound.giveBack (h : s.Sound alone extra) {x : Taken} (hx : x ≠ .timer) :
    (s.perform (.giveBack x)).Sound alone (extra.filter (· ≠ x)) where
  installed y hnone := by
    -- What was given back is in the list no more.
    by_cases heq : y = x
    · simp [perform, heq] at hnone
    · simp only [perform, current_setCurrent, if_neg heq] at hnone
      rcases h.installed y hnone with hinstalled | hextra
      · exact .inl (by simpa [perform] using hinstalled)
      · exact .inr (List.mem_filter.mpr ⟨hextra, by simpa using heq⟩)
  ready y hy hstack := by
    simp only [perform, onStack_setCurrent] at hstack
    simp only [perform, stack_setCurrent]
    apply h.ready y _ hstack
    rcases hy with hinstalled | hextra
    · exact .inl (by simpa [perform] using hinstalled)
    · exact .inr (List.mem_filter.mp hextra).1
  blocks := by simpa [perform] using h.blocks
  memory := by simpa [perform] using h.memory
  alive := by simpa [perform] using h.alive
  created := by simpa [perform] using h.created
  ticking := by simpa [perform] using h.ticking
  sampler halone hinstalled := by
    simpa [perform, hx.symm] using h.sampler halone (by simpa [perform] using hinstalled)
  strayed := by simpa [perform] using h.strayed

/-! ## Code that is about the timer only -/

/-- The instructions that change the timer and leave `cbox_timer_installed` alone. -/
def onTimer : HostInstr → Bool
  | .setCreated _ | .setArmed _ | .timerCreate | .timerSet _ | .timerDelete => true
  | _ => false

/-- Instructions on the timer alone come to one function of the timer, and leave it installed or
not. -/
theorem after_onTimer {code : List HostInstr} (h : ∀ i ∈ code, onTimer i = true) (s : Host) :
    ∃ f : Timer → Timer, after perform s code = s.mapTimer f ∧ ∀ t, (f t).installed = t.installed := by
  induction code generalizing s with
  | nil => exact ⟨id, rfl, fun _ => rfl⟩
  | cons i code ih =>
    have hfirst : ∃ f : Timer → Timer, s.perform i = s.mapTimer f ∧ ∀ t, (f t).installed = t.installed := by
      have hi := h i List.mem_cons_self
      cases i <;> simp [onTimer] at hi
      case setCreated value => exact ⟨fun t => { t with created := value }, rfl, fun _ => rfl⟩
      case setArmed value => exact ⟨fun t => { t with isArmed := value }, rfl, fun _ => rfl⟩
      case timerCreate => exact ⟨fun t => { t with kernel := .disarmed }, rfl, fun _ => rfl⟩
      case timerSet ticking =>
        exact ⟨fun t => { t with
          kernel := if t.kernel = .none then .none else if ticking then .ticking else .disarmed }, rfl,
          fun _ => rfl⟩
      case timerDelete => exact ⟨fun t => { t with kernel := .none }, rfl, fun _ => rfl⟩
    obtain ⟨f, hi, hf⟩ := hfirst
    obtain ⟨g, hrest, hg⟩ := ih (fun j hj => h j (List.mem_cons_of_mem _ hj)) (s.mapTimer f)
    refine ⟨g ∘ f, ?_, fun t => (hg (f t)).trans (hf t)⟩
    rw [StraightLine.after_cons, hi, hrest]
    rfl

/-- A disarm is such code. -/
theorem onTimer_timerDisarm (s : Host) : ∀ i ∈ s.timerDisarm, onTimer i = true := by
  intro i hi
  unfold timerDisarm at hi
  split at hi <;> simp at hi
  · rcases hi with rfl | rfl <;> rfl
  · subst hi
    rfl

/-! ## Code that leads from one sound state to another -/

/-- Wherever a signal comes in the code, the state is safe, and after the code it is sound. -/
def Leads (alone : Prop) (extra : List Taken) (s : Host) (code : List HostInstr) : Prop :=
  Throughout perform (Safe alone) s code ∧ Sound alone extra (after perform s code)

namespace Leads
variable {extra' : List Taken} {code rest : List HostInstr} {i : HostInstr}

theorem nil (h : s.Sound alone extra) : Leads alone extra s [] := ⟨h.safe, h⟩

theorem cons (hs : s.Safe alone) (h : Leads alone extra (s.perform i) code) :
    Leads alone extra s (i :: code) :=
  ⟨⟨hs, h.1⟩, h.2⟩

/-- Code that leads somewhere, and more code from there. -/
theorem append (h : Leads alone extra s code) (hrest : Leads alone extra' (after perform s code) rest) :
    Leads alone extra' s (code ++ rest) := by
  refine ⟨h.1.append hrest.1, ?_⟩
  rw [StraightLine.after_append]
  exact hrest.2

end Leads

/-! ## The timer -/

/-- Stores to the timer, and calls of the kernel that change it. -/
theorem Sound.mapTimer (h : s.Sound alone extra) {f : Timer → Timer}
    (hinstalled : (f s.sampler.timer).installed = s.sampler.timer.installed)
    (hcreated : (f s.sampler.timer).kernel ≠ .none → (f s.sampler.timer).created = true)
    (hticking : (f s.sampler.timer).kernel = .ticking → s.sampler.timer.installed = true)
    (hstrayed : s.strayed = true → (f s.sampler.timer).kernel = .none) : (s.mapTimer f).Sound alone extra where
  installed x hnone := by
    have hx := h.installed x (by simpa using hnone)
    cases x with
    | crash signal => exact hx
    | timer => exact hx.imp (fun htimer => hinstalled.trans htimer) id
  ready x hx hstack := by
    refine h.ready x ?_ (by simpa using hstack)
    cases x with
    | crash signal => exact hx
    | timer => exact hx.imp (fun htimer => hinstalled.symm.trans htimer) id
  blocks := h.blocks
  memory := h.memory
  alive := h.alive
  created := hcreated
  ticking hkernel := hinstalled.trans (hticking hkernel)
  sampler halone htimer := by
    rw [current_mapTimer]
    exact h.sampler halone (hinstalled.symm.trans htimer)
  strayed := hstrayed

/-- The flag alone may be set. -/
theorem Sound.setArmed (h : s.Sound alone extra) (value : Bool) :
    (s.perform (.setArmed value)).Sound alone extra := by
  rw [perform]
  exact h.mapTimer rfl h.created h.ticking h.strayed

/-- A timer that is stopped ticks for nobody. -/
theorem Sound.timerSet_false (h : s.Sound alone extra) : (s.perform (.timerSet false)).Sound alone extra := by
  rw [perform]
  cases hkernel : s.sampler.timer.kernel with
  | none =>
    apply h.mapTimer rfl
    · simp [hkernel]
    · simp [hkernel]
    · simp [hkernel]
  | disarmed | ticking =>
    apply h.mapTimer rfl
    · intro _
      exact h.created (by rw [hkernel]; intro hnone; cases hnone)
    · simp [hkernel]
    · intro hstrayed
      rw [h.strayed hstrayed] at hkernel
      cases hkernel

/-- One that is set must be installed, in the process that has it. -/
theorem Sound.timerSet_true (h : s.Sound alone extra) (hinstalled : s.sampler.timer.installed = true)
    (hhere : s.strayed = false) : (s.perform (.timerSet true)).Sound alone extra := by
  rw [perform]
  apply h.mapTimer rfl
  · intro hkernel
    apply h.created
    intro hnone
    simp [hnone] at hkernel
  · intro _
    exact hinstalled
  · intro hstrayed
    rw [hhere] at hstrayed
    cases hstrayed

/-- A disarm leads from sound to sound. -/
theorem leads_timerDisarm (h : s.Sound alone extra) : Leads alone extra s s.timerDisarm := by
  unfold timerDisarm
  split
  · exact .cons h.safe (.cons h.timerSet_false.safe (.nil (h.timerSet_false.setArmed false)))
  · exact .cons h.safe (.nil (h.setArmed false))

/-- The two instructions that start the timer. -/
theorem leads_start (h : s.Sound alone extra) (hinstalled : s.sampler.timer.installed = true)
    (hhere : s.strayed = false) : Leads alone extra s [.timerSet true, .setArmed true] :=
  .cons h.safe (.cons (h.timerSet_true hinstalled hhere).safe
    (.nil ((h.timerSet_true hinstalled hhere).setArmed true)))

/-- A new timer is not ticking yet, so it does not matter that `cbox_timer_created` comes after it. -/
theorem leads_timerCreate (h : s.Sound alone extra) (hhere : s.strayed = false) :
    Leads alone extra s [.timerCreate, .setCreated true] := by
  have hnew : (s.mapTimer fun t => { t with kernel := .disarmed, created := true }).Sound alone extra := by
    apply h.mapTimer rfl
    · intro _
      rfl
    · simp
    · simp [hhere]
  apply Leads.cons h.safe
  apply Leads.cons
  -- Between the two instructions the timer exists and is not marked as created.
  · have hsafe := h.safe
    constructor
    · exact hsafe.alive
    · intro x hnone hstack
      apply hsafe.stack x
      · simpa [perform] using hnone
      · simpa [perform] using hstack
    · simp [perform, Host.mapTimer]
    · simp [perform, Host.mapTimer]
  · exact .nil hnew

/-- So does an arming. -/
theorem leads_timerArm (h : s.Sound alone extra) (periodNs : Nat) (io : TimerIo) (hhere : s.strayed = false) :
    Leads alone extra s (s.timerArm periodNs io) := by
  unfold timerArm
  split
  · exact .nil h
  next hgoes =>
    have hinstalled : s.sampler.timer.installed = true := by
      cases hi : s.sampler.timer.installed with
      | true => rfl
      | false => simp [hi] at hgoes
    split
    · split
      · exact .nil h
      · exact leads_start h hinstalled hhere
    · split
      · have hcreate := leads_timerCreate h hhere
        apply hcreate.append
        split
        · exact leads_start hcreate.2 hinstalled hhere
        · exact .nil hcreate.2
      · exact .nil h

/-- So does the repair after a fork, where no kernel timer was inherited. -/
theorem leads_timerAfterFork (h : s.Sound alone extra) (hgone : s.sampler.timer.kernel = .none) :
    Leads alone extra s timerAfterFork := by
  have hreset : (s.perform (.setCreated false)).Sound alone extra := by
    rw [perform]
    apply h.mapTimer rfl
    · simp [hgone]
    · simp [hgone]
    · simp [hgone]
  exact .cons h.safe (.cons hreset.safe (.nil (hreset.setArmed false)))

/-! ## The alternate stack -/

/-- Stores to the statics of `sigstack.c`, and calls that change the stack. -/
theorem Sound.mapStack (h : s.Sound alone extra) {stack : SigStack}
    (hready : s.stack.ready = true → stack.ready = true) (hblocks : stack.blocks = stack.memory.toList)
    (hmemory : stack.memory.isSome = true → stack.ready = true)
    (halive : stack.altStack.isLive stack.blocks = true) : Sound alone extra { s with stack := stack } where
  installed := h.installed
  ready x hx hstack := hready (h.ready x hx hstack)
  blocks := hblocks
  memory := hmemory
  alive := halive
  created := h.created
  ticking := h.ticking
  sampler := h.sampler
  strayed := h.strayed

/-- As long as the stack is not ready, no handler of the module needs it. -/
theorem Safe.mapStack (h : s.Safe alone) {stack : SigStack} (hready : s.stack.ready = false)
    (halive : stack.altStack.isLive stack.blocks = true) : Safe alone { s with stack := stack } where
  alive := halive
  stack x hnone hstack := by
    obtain ⟨hyes, -⟩ := h.stack x hnone hstack
    rw [hready] at hyes
    cases hyes
  created := h.created
  sampler := h.sampler

/-- More memory keeps a stack live. -/
theorem isLive_mono {stack : AltStack} {block : Nat} {blocks : List Nat}
    (h : stack.isLive blocks = true) : stack.isLive (block :: blocks) = true := by
  cases stack with
  | disabled | foreign address => rfl
  | own b =>
    simp only [AltStack.isLive, List.contains_cons, Bool.or_eq_true] at h ⊢
    exact .inr h

/-- Setting up the alternate stack leads from sound to sound. -/
theorem leads_sigstackEnsure (h : s.Sound alone extra) (io : StackIo) :
    Leads alone extra s (s.sigstackEnsure io) := by
  unfold sigstackEnsure
  split
  · exact .nil h
  next hready =>
    rw [Bool.not_eq_true] at hready
    have hmemory : s.stack.memory = none := by
      cases hm : s.stack.memory with
      | none => rfl
      | some block =>
        have hyes := h.memory (by rw [hm]; rfl)
        rw [hready] at hyes
        cases hyes
    have hblocks : s.stack.blocks = [] := by
      rw [h.blocks, hmemory]
      rfl
    split
    · -- somebody else's stack
      apply Leads.cons h.safe
      apply Leads.nil
      exact h.mapStack (fun _ => rfl) h.blocks (fun _ => rfl) h.alive
    · split
      · apply Leads.cons h.safe
        apply Leads.nil
        apply h.mapStack
        · exact id
        · simp [hblocks]
        · simp
        · exact h.alive
      next block hblock =>
        have hgot : Safe alone (s.perform (.malloc block)) :=
          h.safe.mapStack hready (isLive_mono h.alive)
        split
        · apply Leads.cons h.safe
          apply Leads.cons hgot
          apply Leads.cons
          · apply h.safe.mapStack hready
            simp [perform, AltStack.isLive]
          · apply Leads.nil
            apply h.mapStack
            · simp
            · simp [perform, hblocks]
            · simp
            · simp [perform, AltStack.isLive]
        · -- the kernel does not take the block
          have hfreed : (perform (s.perform (.malloc block)) .free).stack.blocks = [] := by
            simp [perform, hblocks]
          have hkept : s.stack.altStack.isLive [] = true := by
            rw [← hblocks]
            exact h.alive
          apply Leads.cons h.safe
          apply Leads.cons hgot
          apply Leads.cons
          · apply h.safe.mapStack hready
            rw [← hfreed] at hkept
            exact hkept
          · apply Leads.nil
            apply h.mapStack
            · exact id
            · simp [perform, hblocks]
            · simp
            · rw [← hfreed] at hkept
              exact hkept

/-! ## Installing -/

/-- The timer's signal is taken, and `cbox_timer_installed` says so. -/
theorem Sound.setTimerInstalled (h : s.Sound alone [.timer]) (hcurrent : s.current .timer = none) :
    (s.perform (.setTimerInstalled true)).Sound alone [] where
  installed x hnone := by
    rw [perform, current_mapTimer] at hnone
    -- The one slot that was taken without being installed is the timer's, and now it is installed.
    cases x with
    | crash signal =>
      rcases h.installed (.crash signal) hnone with hinstalled | hextra
      · exact .inl hinstalled
      · simp at hextra
    | timer => exact .inl rfl
  ready x hx hstack := by
    rw [perform, onStack_mapTimer] at hstack
    apply h.ready x ?_ hstack
    cases x with
    | crash signal => exact hx.imp id fun hnil => absurd hnil List.not_mem_nil
    | timer => exact .inr (by simp)
  blocks := h.blocks
  memory := h.memory
  alive := h.alive
  created := h.created
  ticking _ := rfl
  sampler _ _ := by
    rw [perform, current_mapTimer]
    exact hcurrent
  strayed := h.strayed

/-- So does the initialisation of the timer. -/
theorem leads_timerInit (h : s.Sound alone []) (io : TimerStart) : Leads alone [] s (s.timerInit io) := by
  unfold timerInit
  split
  · exact .nil h
  · have hensure := leads_sigstackEnsure h io.stack
    apply hensure.append
    split
    · have htaken := hensure.2.take .timer
      apply Leads.cons hensure.2.safe
      apply Leads.cons htaken.safe
      apply Leads.nil
      apply htaken.setTimerInstalled
      simp [perform]
    · exact .nil hensure.2

/-- The fatal signals are taken, and `cbox_crash_installed` says so. -/
theorem Sound.setCrashInstalled (h : s.Sound alone extra) (hall : ∀ signal, .crash signal ∈ extra)
    (honly : .timer ∉ extra) : (s.perform (.setCrashInstalled true)).Sound alone [] where
  installed x hnone := by
    cases x with
    | crash signal => exact .inl rfl
    | timer => exact .inl ((h.installed .timer hnone).resolve_right honly)
  ready x hx hstack := by
    apply h.ready x ?_ hstack
    cases x with
    | crash signal => exact .inr (hall signal)
    | timer => exact hx.imp id fun hnil => absurd hnil List.not_mem_nil
  blocks := h.blocks
  memory := h.memory
  alive := h.alive
  created := h.created
  ticking := h.ticking
  sampler := h.sampler
  strayed := h.strayed

/-- When the first signal was given back, the others are left. -/
theorem crash_mem_of_filter {signal : Signal} {signals : List Signal}
    (hextra : ∀ x ∈ extra, x ∈ (signal :: signals).map Taken.crash) :
    ∀ x ∈ extra.filter (· ≠ .crash signal), x ∈ signals.map Taken.crash := by
  intro x hx
  obtain ⟨hmem, hne⟩ := List.mem_filter.mp hx
  have hin := hextra x hmem
  rw [List.map_cons, List.mem_cons] at hin
  exact hin.resolve_left (by simpa using hne)

/-- Without signals, nothing has been taken. -/
theorem eq_nil_of_crash_mem (hextra : ∀ x ∈ extra, x ∈ ([] : List Signal).map Taken.crash) : extra = [] := by
  rw [List.eq_nil_iff_forall_not_mem]
  intro x hx
  simpa using hextra x hx

/-- Signals that are given back, one after the other. -/
theorem leads_giveBack (h : s.Sound alone extra) {signals : List Signal}
    (hextra : ∀ x ∈ extra, x ∈ signals.map .crash) :
    Leads alone [] s (signals.map fun signal => .giveBack (.crash signal)) := by
  induction signals generalizing s extra with
  | nil =>
    obtain rfl := eq_nil_of_crash_mem hextra
    exact .nil h
  | cons signal signals ih =>
    have hback := h.giveBack (x := .crash signal) (by simp)
    apply Leads.cons h.safe
    exact ih hback (crash_mem_of_filter hextra)

/-- The loop has gone through one more signal. -/
theorem mem_done_cons {signal : Signal} {done signals : List Signal}
    (hall : ∀ other, other ∈ done ∨ other ∈ signal :: signals) :
    ∀ other, other ∈ signal :: done ∨ other ∈ signals := by
  intro other
  rcases hall other with hdone | hrest
  · exact .inl (List.mem_cons_of_mem _ hdone)
  · rcases List.mem_cons.mp hrest with rfl | hrest
    · exact .inl List.mem_cons_self
    · exact .inr hrest

/-- The loop takes the signals one by one, or gives those it took back. -/
theorem leads_installLoop (ok : Signal → Bool) {done signals : List Signal}
    (h : s.Sound alone (done.map .crash)) (hall : ∀ signal, signal ∈ done ∨ signal ∈ signals) :
    Leads alone [] s (installLoop ok done signals) := by
  induction signals generalizing s done with
  | nil =>
    apply Leads.cons h.safe
    apply Leads.nil
    apply h.setCrashInstalled
    · intro signal
      rw [List.mem_map]
      exact ⟨signal, (hall signal).resolve_right List.not_mem_nil, rfl⟩
    · simp
  | cons signal signals ih =>
    unfold installLoop
    split
    · apply Leads.cons h.safe
      apply ih
      · rw [List.map_cons]
        exact h.take (.crash signal)
      · exact mem_done_cons hall
    · exact leads_giveBack h fun x hx => hx

theorem mem_crashSignals (signal : Signal) : signal ∈ crashSignals := by
  cases signal <;> decide

/-- The installation of the crash handlers leads from sound to sound. -/
theorem leads_crashInstall (h : s.Sound alone []) (io : CrashStart) :
    Leads alone [] s (s.crashInstall io) := by
  unfold crashInstall
  split
  · exact .nil h
  · split
    · exact .nil h
    · split
      · exact .nil h
      · have hensure := leads_sigstackEnsure h io.stack
        apply hensure.append
        apply leads_installLoop io.sigactionOk hensure.2
        intro signal
        exact .inr (mem_crashSignals signal)

/-- And so does the load. -/
theorem leads_minit (h : s.Sound alone []) (timer : Option TimerStart) (crash : Option CrashStart) :
    Leads alone [] s (s.minit timer crash) := by
  have hfirst : Leads alone [] s (timer.elim [] s.timerInit) := by
    cases timer with
    | none => exact .nil h
    | some io => exact leads_timerInit h io
  apply hfirst.append
  cases crash with
  | none => exact .nil hfirst.2
  | some io => exact leads_crashInstall hfirst.2 io

end Host

end CboxTelemetry.Extension
