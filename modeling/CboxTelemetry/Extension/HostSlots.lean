import CboxTelemetry.Extension.Host

/-!
# What deliveries do to the dispositions

A delivery can take a handler of the module out of the disposition of a fatal signal, for what the recorder
has found there, and the kernel can take out a handler with `SA_RESETHAND`. Nothing else changes
(`Worn`), and no instruction of the module loses that (`respects_worn`). So interrupted code of the module
is, up to `Worn`, where the undisturbed code would be.
-/

namespace CboxTelemetry.Extension

open Profiler (Timer TimerSignal TimerDelivery afterDelivery)
open Signals (Signal Sigaction Delivery Fate)
open StraightLine (Respects)

/-- The signals that have one handler. -/
def Taken.isTimer : Taken → Bool
  | .crash _ => false
  | .timer => true

/-! ## Actions -/

/-- What deliveries leave of an action. -/
def Later (a a' : Sigaction) : Prop := a' = a ∨ a.Once ∧ a' = { a with handler := .dfl }

theorem Later.refl (a : Sigaction) : Later a a := .inl rfl

/-- Being later is transitive. -/
theorem Later.trans {a b c : Sigaction} (h : Later a b) (h' : Later b c) : Later a c := by
  rcases h with rfl | ⟨honce, rfl⟩
  · exact h'
  · rcases h' with rfl | ⟨⟨address, hfunction, -⟩, -⟩
    · exact .inr ⟨honce, rfl⟩
    · cases hfunction

/-- A delivery makes it later, or leaves it. -/
theorem later_afterDelivery (a : Sigaction) : Later a (afterDelivery a) := by
  unfold afterDelivery
  split
  next address hhandler =>
    split
    next hreset => exact .inr ⟨⟨address, hhandler, hreset⟩, rfl⟩
    · exact .refl a
  · exact .refl a

/-- So does one that goes on. -/
theorem later_deliver (a : Sigaction) (d : Delivery) : Later a (a.deliver d).2 := by
  unfold Sigaction.deliver
  split
  · exact .refl a
  · exact .refl a
  next address hhandler =>
    show Later a (if a.resetHand then { a with handler := .dfl } else a)
    split
    next hreset => exact .inr ⟨⟨address, hhandler, hreset⟩, rfl⟩
    · exact .refl a

/-- What deliveries leave of a disposition: `none` is a handler of the module, `saved` what it has found. -/
inductive SlotWorn (saved : Sigaction) : Option Sigaction → Option Sigaction → Prop
  | module : SlotWorn saved none none
  | handedOver {a : Sigaction} : Later saved a → SlotWorn saved none (some a)
  | action {a a' : Sigaction} : Later a a' → SlotWorn saved (some a) (some a')

/-- What is not touched wears nothing. -/
theorem SlotWorn.refl (saved : Sigaction) (o : Option Sigaction) : SlotWorn saved o o := by
  cases o with
  | none => exact .module
  | some a => exact .action (.refl a)

/-- Wear adds up. -/
theorem SlotWorn.trans {saved saved' : Sigaction} {o o' o'' : Option Sigaction} (h : SlotWorn saved o o')
    (hsaved : Later saved saved') (h' : SlotWorn saved' o' o'') : SlotWorn saved o o'' := by
  cases h with
  | module =>
    cases h' with
    | module => exact .module
    | handedOver ha => exact .handedOver (hsaved.trans ha)
  | handedOver ha =>
    cases h' with
    | action ha' => exact .handedOver (ha.trans ha')
  | action ha =>
    cases h' with
    | action ha' => exact .action (ha.trans ha')

/-- What `sigaction` gives back of it. -/
theorem SlotWorn.getD {saved saved' : Sigaction} {o o' : Option Sigaction} (h : SlotWorn saved o o')
    (hsaved : Later saved saved') : Later (o.getD saved) (o'.getD saved') := by
  cases h with
  | module => exact hsaved
  | handedOver ha => exact ha
  | action ha => exact ha

namespace Host

/-- `t` is what deliveries can make of `s`. -/
structure Worn (s t : Host) : Prop where
  saved : ∀ x, Later (s.saved x) (t.saved x)
  slots : ∀ x, SlotWorn (s.saved x) (s.current x) (t.current x)
  /-- The handler of the timer stays where it is. -/
  sampler : s.current .timer = none → t.current .timer = none
  crashInstalled : t.crash.installed = s.crash.installed
  timer : t.sampler.timer = s.sampler.timer
  stack : t.stack = s.stack
  onStack : ∀ x, t.onStack x = s.onStack x
  strayed : t.strayed = s.strayed

/-! ## The views and their updates -/

section
variable (s : Host) (x y : Taken) (o : Option Sigaction) (a : Sigaction) (v : Bool) (f : Timer → Timer)

/-- Setting one slot. -/
@[simp] theorem current_setCurrent : (s.setCurrent x o).current y = if y = x then o else s.current y := by
  cases x with
  | crash signal =>
    cases y with
    | crash signal' =>
      by_cases heq : signal' = signal
      · subst heq
        cases o <;> simp [setCurrent, current, Signals.Process.setDisposition]
      · cases o <;> simp [setCurrent, current, Signals.Process.setDisposition, heq]
    | timer => cases o <;> simp [setCurrent, current]
  | timer =>
    cases y with
    | crash signal' => cases o <;> simp [setCurrent, current]
    | timer => cases o <;> simp [setCurrent, current]

@[simp] theorem saved_setCurrent : (s.setCurrent x o).saved y = s.saved y := by
  cases x <;> cases o <;> cases y <;> rfl

@[simp] theorem current_save : (s.save a x).current y = s.current y := by
  cases x <;> cases y <;> rfl

/-- Saving one. -/
@[simp] theorem saved_save : (s.save a x).saved y = if y = x then a else s.saved y := by
  cases x with
  | crash signal =>
    cases y with
    | crash signal' =>
      by_cases heq : signal' = signal
      · subst heq
        simp [save, saved]
      · simp [save, saved, heq]
    | timer => simp [save, saved]
  | timer =>
    cases y with
    | crash signal' => simp [save, saved]
    | timer => simp [save, saved]

@[simp] theorem current_setOnStack : (s.setOnStack v x).current y = s.current y := by
  cases x <;> cases y <;> rfl

@[simp] theorem saved_setOnStack : (s.setOnStack v x).saved y = s.saved y := by
  cases x <;> cases y <;> rfl

@[simp] theorem current_mapTimer : (s.mapTimer f).current y = s.current y := by
  cases y <;> rfl

@[simp] theorem saved_mapTimer : (s.mapTimer f).saved y = s.saved y := by
  cases y <;> rfl

@[simp] theorem stack_setCurrent : (s.setCurrent x o).stack = s.stack := by
  cases x <;> cases o <;> rfl

@[simp] theorem stack_save : (s.save a x).stack = s.stack := by
  cases x <;> rfl

@[simp] theorem stack_setOnStack : (s.setOnStack v x).stack = s.stack := by
  cases x <;> rfl

@[simp] theorem timer_setCurrent : (s.setCurrent x o).sampler.timer = s.sampler.timer := by
  cases x <;> cases o <;> rfl

@[simp] theorem timer_save : (s.save a x).sampler.timer = s.sampler.timer := by
  cases x <;> rfl

@[simp] theorem timer_setOnStack : (s.setOnStack v x).sampler.timer = s.sampler.timer := by
  cases x <;> rfl

@[simp] theorem crashInstalled_setCurrent : (s.setCurrent x o).crash.installed = s.crash.installed := by
  cases x <;> cases o <;> rfl

@[simp] theorem crashInstalled_save : (s.save a x).crash.installed = s.crash.installed := by
  cases x <;> rfl

@[simp] theorem crashInstalled_setOnStack : (s.setOnStack v x).crash.installed = s.crash.installed := by
  cases x <;> rfl

@[simp] theorem strayed_setCurrent : (s.setCurrent x o).strayed = s.strayed := by
  cases x <;> cases o <;> rfl

@[simp] theorem strayed_save : (s.save a x).strayed = s.strayed := by
  cases x <;> rfl

@[simp] theorem strayed_setOnStack : (s.setOnStack v x).strayed = s.strayed := by
  cases x <;> rfl

@[simp] theorem onStack_setCurrent : (s.setCurrent x o).onStack y = s.onStack y := by
  cases x <;> cases o <;> cases y <;> rfl

@[simp] theorem onStack_save : (s.save a x).onStack y = s.onStack y := by
  cases x <;> cases y <;> rfl

@[simp] theorem onStack_setOnStack :
    (s.setOnStack v x).onStack y = if y.isTimer = x.isTimer then v else s.onStack y := by
  cases x <;> cases y <;> rfl

@[simp] theorem onStack_mapTimer : (s.mapTimer f).onStack y = s.onStack y := by
  cases y <;> rfl

end

/-! ## Instructions -/

variable {s t u : Host}

/-- A host wears nothing by itself. -/
theorem Worn.refl (s : Host) : s.Worn s where
  saved _ := .refl _
  slots _ := .refl _ _
  sampler h := h
  crashInstalled := rfl
  timer := rfl
  stack := rfl
  onStack _ := rfl
  strayed := rfl

/-- And wear adds up. -/
theorem Worn.trans (h : s.Worn t) (h' : t.Worn u) : s.Worn u where
  saved x := (h.saved x).trans (h'.saved x)
  slots x := (h.slots x).trans (h.saved x) (h'.slots x)
  sampler hs := h'.sampler (h.sampler hs)
  crashInstalled := h'.crashInstalled.trans h.crashInstalled
  timer := h'.timer.trans h.timer
  stack := h'.stack.trans h.stack
  onStack x := (h'.onStack x).trans (h.onStack x)
  strayed := h'.strayed.trans h.strayed

/-- What a signal does is the module's only where it was before. -/
theorem Worn.current_none (h : s.Worn t) {x : Taken} (hnone : t.current x = none) : s.current x = none := by
  have hslot := h.slots x
  rw [hnone] at hslot
  generalize s.current x = o at hslot
  cases hslot
  rfl

/-- Wear leaves what is installed. -/
theorem Worn.installed (h : s.Worn t) (x : Taken) : t.installed x = s.installed x := by
  cases x with
  | crash signal => exact h.crashInstalled
  | timer =>
    show t.sampler.timer.installed = s.sampler.timer.installed
    rw [h.timer]

/-- Taking a slot after the wear, or before it. -/
theorem Worn.take (h : s.Worn t) (x : Taken) : (s.perform (.take x)).Worn (t.perform (.take x)) where
  saved y := by
    by_cases heq : y = x
    · subst heq
      simpa [perform, found] using (h.slots y).getD (h.saved y)
    · simpa [perform, heq] using h.saved y
  slots y := by
    by_cases heq : y = x
    · subst heq
      simpa [perform] using SlotWorn.module
    · simpa [perform, heq] using h.slots y
  sampler := by
    by_cases heq : Taken.timer = x
    · subst heq
      simp [perform]
    · simpa [perform, heq] using h.sampler
  crashInstalled := by simpa [perform] using h.crashInstalled
  timer := by simpa [perform] using h.timer
  stack := by simpa [perform] using h.stack
  onStack y := by simp [perform, h.stack, h.onStack]
  strayed := by simpa [perform] using h.strayed

/-- Giving one back, likewise. -/
theorem Worn.giveBack (h : s.Worn t) (x : Taken) :
    (s.perform (.giveBack x)).Worn (t.perform (.giveBack x)) where
  saved y := by simpa [perform] using h.saved y
  slots y := by
    by_cases heq : y = x
    · subst heq
      simpa [perform] using SlotWorn.action (h.saved y)
    · simpa [perform, heq] using h.slots y
  sampler := by
    by_cases heq : Taken.timer = x
    · subst heq
      simp [perform]
    · simpa [perform, heq] using h.sampler
  crashInstalled := by simpa [perform] using h.crashInstalled
  timer := by simpa [perform] using h.timer
  stack := by simpa [perform] using h.stack
  onStack y := by simpa [perform] using h.onStack y
  strayed := by simpa [perform] using h.strayed

/-- And what is done to the timer. -/
theorem Worn.mapTimer (h : s.Worn t) (f : Timer → Timer) : (s.mapTimer f).Worn (t.mapTimer f) where
  saved y := by simpa using h.saved y
  slots y := by simpa using h.slots y
  sampler := by simpa using h.sampler
  crashInstalled := h.crashInstalled
  timer := congrArg f h.timer
  stack := h.stack
  onStack y := by simpa using h.onStack y
  strayed := h.strayed

/-- Stores to the statics of `sigstack.c`. -/
theorem Worn.mapStack (h : s.Worn t) (f : SigStack → SigStack) :
    Worn { s with stack := f s.stack } { t with stack := f t.stack } :=
  { h with stack := congrArg f h.stack }

/-- No instruction loses what deliveries have done. -/
theorem respects_worn : Respects perform Worn := by
  intro s t i h
  cases i with
  | take x => exact h.take x
  | giveBack x => exact h.giveBack x
  | malloc block => exact h.mapStack fun v => { v with blocks := block :: v.blocks, memory := some block }
  | free => exact h.mapStack fun v => { v with blocks := v.blocks.filter (some · ≠ v.memory) }
  | forgetMemory => exact h.mapStack fun v => { v with memory := none }
  | setReady value => exact h.mapStack fun v => { v with ready := value }
  | sigaltstack stack => exact h.mapStack fun v => { v with altStack := stack }
  | setCrashInstalled value => exact { h with crashInstalled := rfl }
  | setTimerInstalled value | setCreated value | setArmed value | timerCreate | timerSet ticking | timerDelete =>
    simp only [perform]
    exact h.mapTimer _

/-! ## Deliveries -/

/-- An action is worn. -/
theorem Worn.later {x : Taken} {a a' : Sigaction} (hcurrent : s.current x = some a) (hlater : Later a a') :
    s.Worn (s.setCurrent x (some a')) where
  saved y := by simpa using Later.refl _
  slots y := by
    by_cases heq : y = x
    · subst heq
      simpa [hcurrent] using SlotWorn.action hlater
    · simpa [heq] using SlotWorn.refl _ _
  sampler hs := by
    by_cases heq : Taken.timer = x
    · subst heq
      rw [hcurrent] at hs
      cases hs
    · simpa [heq] using hs
  crashInstalled := by simp
  timer := by simp
  stack := by simp
  onStack y := by simp
  strayed := by simp

/-- The recorder puts back what it has found. -/
theorem Worn.handOver {signal : Signal} (hcurrent : s.current (.crash signal) = none) :
    s.Worn (s.setCurrent (.crash signal) (some (s.saved (.crash signal)))) where
  saved y := by simpa using Later.refl _
  slots y := by
    by_cases heq : y = .crash signal
    · subst heq
      simpa [hcurrent] using SlotWorn.handedOver (.refl _)
    · simpa [heq] using SlotWorn.refl _ _
  sampler hs := by simpa using hs
  crashInstalled := by simp
  timer := by simp
  stack := by simp
  onStack y := by simp
  strayed := by simp

/-- The process with other crash signals. -/
def withCrash (s : Host) (p : Signals.Process) : Host := { s with crash := p }

theorem worn_deliverAction {a : Sigaction} {d : Delivery} (h : s.current (.crash d.signal) = some a) :
    s.Worn (s.withCrash (s.crash.deliverAction a d).2) :=
  Worn.later h (later_deliver a d)

/-- Raising the signal again wears its slot, where the process lives. -/
theorem worn_reRaise {a : Sigaction} {d : Delivery} (h : s.current (.crash d.signal) = some a)
    (hends : (s.crash.reRaise a d).1.ends d = false) : s.Worn (s.withCrash (s.crash.reRaise a d).2) := by
  have hsent : s.Worn (s.withCrash (s.crash.deliverAction a { d with trap := false }).2) :=
    worn_deliverAction (d := { d with trap := false }) h
  cases hhandler : a.handler with
  | dfl => simp [Signals.Process.reRaise, Signals.Process.deliverAction, Sigaction.deliver, hhandler, Fate.ends] at hends
  -- Only a fault would end the process here: a signal that is ignored does nothing.
  | ign =>
    cases htrap : d.trap with
    | true =>
      simp [Signals.Process.reRaise, Signals.Process.deliverAction, Sigaction.deliver, hhandler, htrap, Fate.ends] at hends
    | false =>
      have hraise : s.crash.reRaise a d = s.crash.deliverAction a { d with trap := false } := by
        simp [Signals.Process.reRaise, Signals.Process.deliverAction, Sigaction.deliver, hhandler, htrap]
      rw [hraise]
      exact hsent
  | function address =>
    have hraise : s.crash.reRaise a d = s.crash.deliverAction a { d with trap := false } := by
      simp [Signals.Process.reRaise, Signals.Process.deliverAction, Sigaction.deliver, hhandler]
    rw [hraise]
    exact hsent

/-- A call of `SIG_IGN` is a `SIGSEGV`. -/
theorem worn_callIgn {d : Delivery} (hends : (s.crash.callIgn d).1.ends d = false) :
    s.Worn (s.withCrash (s.crash.callIgn d).2) := by
  unfold Signals.Process.callIgn at hends ⊢
  cases hsegv : s.crash.disposition .segv with
  | recorder => simp [hsegv, Fate.ends] at hends
  | action a =>
    have hcurrent : s.current (.crash .segv) = some a := by simp [current, hsegv]
    exact worn_deliverAction (d := { d with signal := .segv, trap := true }) hcurrent

/-- A call of the recorder. -/
theorem worn_handle {d : Delivery} {fate : Fate} {p : Signals.Process} (h : s.crash.handle d = (fate, p))
    (hrecorder : s.current (.crash d.signal) = none) (hends : fate.ends d = false) :
    s.Worn (s.withCrash p) := by
  -- the recorder puts back what it found, and hands the delivery on under that
  let v := (s.withCrash { s.crash with inProgress := true }).setCurrent (.crash d.signal)
    (some (s.saved (.crash d.signal)))
  have hlatched : s.Worn (s.withCrash { s.crash with inProgress := true }) := { Worn.refl s with }
  have hback : s.Worn v := hlatched.trans (Worn.handOver hrecorder)
  have hnow : v.current (.crash d.signal) = some (s.crash.previous d.signal) := by
    simp only [v, current_setCurrent, if_true]
    rfl
  unfold Signals.Process.handle at h
  -- The latch is taken: the process ends.
  split at h
  · cases h
    simp [Fate.ends] at hends
  · dsimp only at h
    split at h
    · split at h
      · have hraise := worn_reRaise (a := s.crash.previous d.signal) (d := d) hnow
        change v.crash.reRaise (s.crash.previous d.signal) d = (fate, p) at h
        rw [h] at hraise
        exact hback.trans (hraise hends)
      · have hcall := worn_callIgn (s := v) (d := d)
        change v.crash.callIgn d = (fate, p) at h
        rw [h] at hcall
        exact hback.trans (hcall hends)
      · cases h
        exact hback
    · split at h
      · cases h
        exact hback
      · have hraise := worn_reRaise (a := s.crash.previous d.signal) (d := d) hnow
        change v.crash.reRaise (s.crash.previous d.signal) d = (fate, p) at h
        rw [h] at hraise
        exact hback.trans (hraise hends)

/-- **What a delivery of a fatal signal changes.** -/
theorem worn_deliverCrash {d : Delivery} (h : s.deliverCrash d = some t) : s.Worn t := by
  unfold deliverCrash at h
  split at h
  · cases h
  next hends =>
    rw [Bool.not_eq_true] at hends
    cases h
    show s.Worn (s.withCrash (s.crash.deliver d).2)
    unfold Signals.Process.deliver at hends ⊢
    cases hdisposition : s.crash.disposition d.signal with
    | action a =>
      apply worn_deliverAction
      simp [current, hdisposition]
    | recorder =>
      rw [hdisposition] at hends
      have hrecorder : s.current (.crash d.signal) = none := by simp [current, hdisposition]
      exact worn_handle rfl hrecorder hends

/-- **What a delivery of the timer's signal changes.** -/
theorem worn_deliverTimer {d : TimerDelivery} (h : s.deliverTimer d = some t) : s.Worn t := by
  unfold deliverTimer at h
  split at h
  · cases h
  next hends =>
    rw [Bool.not_eq_true] at hends
    cases h
    -- Another's handler is called, or the module counts the tick or hands it on.
    cases hdisposition : s.sampler.disposition with
    | action a =>
      have hcurrent : s.current .timer = some a := by simp [current, hdisposition]
      rw [TimerSignal.deliver_of_action hdisposition]
      unfold TimerSignal.deliverAction
      split
      · exact .refl s
      · exact .refl s
      · exact Worn.later hcurrent (later_afterDelivery a)
    | sampler =>
      rw [TimerSignal.deliver_of_sampler hdisposition] at hends ⊢
      cases hown : s.sampler.isOwn d with
      | true =>
        rw [TimerSignal.handle_own hown]
        exact .refl s
      | false =>
        rw [TimerSignal.handle_foreign hown] at hends ⊢
        rw [TimerSignal.chain_stays hends]
        exact .refl s

end Host

end CboxTelemetry.Extension
